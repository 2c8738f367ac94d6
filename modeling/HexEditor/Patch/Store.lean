import HexEditor.Broadcast
import HexEditor.Patch.Error
import HexEditor.Patch.Set

/-!
# The patch store

The store is the only writer of a patch set.  A write is first planned against every
patch that meets it, in ascending order, and only then carried out:

* a patch that contains the written range takes the new bytes in place;
* a patch inside the range is removed;
* a patch that starts in the range and ends after it keeps its tail;
* a patch that starts before the range and ends in it keeps its head.

Any other meeting means that the set was already corrupt, and the write is refused
before anything changes.  Unless it went into a patch in place, the write then extends
the patch that owns the address before it, or becomes a patch of its own.

Every successful change is announced exactly once; a refused one changes nothing and
announces nothing.
-/

namespace HexEditor

inductive PatchEvent where
  | changed
  deriving DecidableEq, Repr

/-- What a write does to a patch that meets it. -/
inductive Adjustment where
  /-- The patch contains the written range and takes the new bytes in place. -/
  | splice
  /-- The patch lies in the written range and goes away. -/
  | remove
  /-- The patch keeps what lies after the written range. -/
  | keepTail
  /-- The patch keeps what lies before the written range. -/
  | keepHead
  deriving DecidableEq, Repr

/-- How the patch from `first` to `stop` meets a write from `addr` to `limit`, both
without their ends; none when it does not meet the write. -/
def Adjustment.ofMeeting (first stop addr limit : Nat) : Option Adjustment :=
  if first < stop ∧ first < limit ∧ addr < stop then
    if first ≤ addr ∧ limit ≤ stop then some .splice
    else if addr ≤ first ∧ stop ≤ limit then some .remove
    else if addr ≤ first ∧ limit < stop then some .keepTail
    else if first < addr ∧ stop ≤ limit then some .keepHead
    else none
  else none

/-- One step of a planned write: what happens to the patch under a start address. -/
structure PlannedStep where
  key : Nat
  adjustment : Adjustment
  deriving DecidableEq, Repr

namespace PatchSet

/-- Plans a write against the patches that meet it, ascending.  `reached` is the end of
the patch before, which the next one must not overlap. -/
def planFrom (addr limit : Nat) :
    Option Nat → List (Nat × Patch) → Except PatchError (List PlannedStep)
  | _, [] => .ok []
  | reached, (key, p) :: rest =>
    let disjoint := reached.all (· ≤ p.addr)
    match if disjoint then Adjustment.ofMeeting p.addr p.stop addr limit else none with
    | some adjustment =>
      (planFrom addr limit (some p.stop) rest).map (⟨key, adjustment⟩ :: ·)
    | none => .error (.overlapInvariant p.addr (p.stop - 1) addr (limit - 1))

/-- The plan of a write of the addresses from `addr` up to, not including, `limit`. -/
def plan (s : PatchSet) (addr limit : Nat) : Checked (Except PatchError (List PlannedStep)) :=
  return planFrom addr limit none (← s.overlappingEntries addr (limit - addr))

/-- What a planned write leaves of the set before the new bytes are placed. -/
inductive Cleared where
  /-- A patch took the bytes in place. -/
  | spliced (set : PatchSet)
  /-- No patch meets the written range any more. -/
  | room (set : PatchSet)

/-- Carries out a planned write of `bytes` at `addr` on the patches that meet it. -/
def clear (addr : Nat) (bytes : List UInt8) : List PlannedStep → PatchSet → Checked Cleared
  | [], s => return .room s
  | step :: rest, s =>
    match step.adjustment, s.get? step.key with
    | .remove, _ => clear addr bytes rest (s.erase step.key)
    | .splice, some p => do
      let p ← p.splice addr bytes
      return .spliced (s.modify step.key fun _ => p)
    | .keepTail, some p => do
      let p ← p.keepFrom (addr + bytes.length)
      clear addr bytes rest (add (s.erase step.key) p)
    | .keepHead, some p => do
      let p ← p.keepBelow addr
      clear addr bytes rest (add (s.erase step.key) p)
    | .splice, none => return .spliced s
    | .keepTail, none | .keepHead, none => clear addr bytes rest s

/-- The start address of the patch that owns the address before `addr`. -/
def owning (s : PatchSet) (addr : Nat) : Checked (Option Nat) :=
  if addr = 0 then .ok none else return (← s.overlapping (addr - 1) 1).head?

/-- Places `bytes` at `addr`, where no patch is: behind the patch that owns the address
before, or as a patch of their own. -/
def place (s : PatchSet) (addr : Nat) (bytes : List UInt8) : Checked PatchSet := do
  match ← s.owning addr with
  | some key => return s.modify key (·.append bytes)
  | none => return s.add { addr, bytes }

end PatchSet

/-- A patch set together with those who are told of its changes. -/
structure PatchStore where
  set : PatchSet := ∅
  changes : Broadcast PatchEvent := {}

namespace PatchStore

instance : Inhabited PatchStore := ⟨{}⟩

/-- What the store answers to a request, and the store after it. -/
structure Reply (α : Type) where
  answer : Except PatchError α
  store : PatchStore

def refuse {α : Type} (s : PatchStore) (e : PatchError) : Reply α := ⟨.error e, s⟩

/-- The store now holds `set`, and says so. -/
def changedTo (s : PatchStore) (set : PatchSet) : PatchStore :=
  { set, changes := s.changes.announce .changed }

/-- A store over patches added as they are, which may overlap or be empty. -/
def ofPatches (ps : List Patch) : PatchStore := { set := PatchSet.ofList ps }

def subscribe (s : PatchStore) : SubscriberId × PatchStore :=
  let (id, changes) := s.changes.subscribe
  (id, { s with changes })

/-- The patch that contains `addr`. -/
def patchAt? (s : PatchStore) (addr : Nat) : Checked (Option Patch) := do
  match (← s.set.overlapping addr 1).head? with
  | some key => return s.set.get? key
  | none => return none

/-- The byte that a patch puts at `addr`. -/
def read (s : PatchStore) (addr : Nat) : Checked (Option UInt8) :=
  return (← s.patchAt? addr).bind (·.byteAt? addr)

/-- Finishes a write with what it left of the set. -/
def settle (s : PatchStore) (addr : Nat) (bytes : List UInt8) :
    PatchSet.Cleared → Checked (Reply Unit)
  | .spliced set => return ⟨.ok (), s.changedTo set⟩
  | .room set => return ⟨.ok (), s.changedTo (← set.place addr bytes)⟩

/-- Writes `bytes` at `addr`.  Writing nothing does nothing. -/
def write (s : PatchStore) (addr : Nat) (bytes : List UInt8) : Checked (Reply Unit) := do
  if bytes.isEmpty then
    return ⟨.ok (), s⟩
  else if maxAddress < addr + bytes.length then
    return s.refuse (.addressOverflow addr bytes.length)
  else
    match ← s.set.plan addr (addr + bytes.length) with
    | .error e => return s.refuse e
    | .ok steps => s.settle addr bytes (← PatchSet.clear addr bytes steps s.set)

end PatchStore

end HexEditor
