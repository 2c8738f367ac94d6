import HexEditor.Broadcast
import HexEditor.OrderedMap

/-!
# Synchronization groups

The views of a group tell each other which ranges they have selected and where the
cursor was moved last.  Only members are heard, and only news are announced.
-/

namespace HexEditor

abbrev MemberId := Nat

/-- A range that a member has selected. -/
structure AddrRange where
  addr : Nat
  size : Nat
  deriving DecidableEq, Repr, Inhabited

inductive SyncEvent where
  | membersChanged
  | regionsChanged (owner : MemberId)
  | cursorMoved (owner : MemberId) (addr : Nat)
  deriving DecidableEq, Repr, Inhabited

structure SyncGroup where
  nextId : MemberId := 0
  /-- The ranges that each member has published. -/
  members : OrderedMap (List AddrRange) := ∅
  /-- The last published cursor, and who published it. -/
  cursor : Option (MemberId × Nat) := none
  events : Broadcast SyncEvent := {}

namespace SyncGroup

instance : Inhabited SyncGroup := ⟨{}⟩

def announce (g : SyncGroup) (event : SyncEvent) : SyncGroup :=
  { g with events := g.events.announce event }

def join (g : SyncGroup) : MemberId × SyncGroup :=
  (g.nextId,
    { g with
      nextId := g.nextId + 1
      members := g.members.insert g.nextId [] }.announce .membersChanged)

/-- A member leaves.  Its cursor is forgotten, and so are its ranges. -/
def leave (g : SyncGroup) (id : MemberId) : SyncGroup :=
  match g.members.get? id with
  | none => g
  | some ranges =>
    let left := { g with
      members := g.members.erase id
      cursor := g.cursor.filter (·.1 ≠ id) }.announce .membersChanged
    if ranges.isEmpty then left else left.announce (.regionsChanged id)

def memberCount (g : SyncGroup) : Nat := g.members.size

def publish (g : SyncGroup) (owner : MemberId) (ranges : List AddrRange) : SyncGroup :=
  match g.members.get? owner with
  | none => g
  | some known =>
    if known = ranges then g
    else { g with members := g.members.insert owner ranges }.announce (.regionsChanged owner)

def setCursor (g : SyncGroup) (owner : MemberId) (addr : Nat) : SyncGroup :=
  if !g.members.contains owner || g.cursor = some (owner, addr) then g
  else { g with cursor := some (owner, addr) }.announce (.cursorMoved owner addr)

/-- The ranges of all members but one, in the order in which the members joined. -/
def rangesExcept (g : SyncGroup) (id : MemberId) : List AddrRange :=
  (g.members.entries.filter (·.1 ≠ id)).flatMap (·.2)

def subscribe (g : SyncGroup) : SubscriberId × SyncGroup :=
  let (id, events) := g.events.subscribe
  (id, { g with events })

end SyncGroup

inductive GroupRequest where
  | join
  | leave (id : MemberId)
  | publish (owner : MemberId) (ranges : List AddrRange)
  | setCursor (owner : MemberId) (addr : Nat)
  deriving DecidableEq, Repr

namespace GroupRequest

/-- The member that makes the request, unless it is still to become one. -/
def member? : GroupRequest → Option MemberId
  | join => none
  | leave id => some id
  | publish owner _ => some owner
  | setCursor owner _ => some owner

end GroupRequest

def SyncGroup.perform (g : SyncGroup) : GroupRequest → SyncGroup
  | .join => g.join.2
  | .leave id => g.leave id
  | .publish owner ranges => g.publish owner ranges
  | .setCursor owner addr => g.setCursor owner addr

end HexEditor
