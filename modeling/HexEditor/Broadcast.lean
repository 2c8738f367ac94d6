/-!
# Broadcasts

A broadcast delivers every announced event to the mailbox of each subscriber.  A
subscriber that has gone away is noticed, and forgotten, at the next announcement;
until then it is still counted.
-/

namespace HexEditor

abbrev SubscriberId := Nat

/-- A mailbox: the events delivered and not yet collected, oldest first. -/
structure Mailbox (α : Type) where
  owner : SubscriberId
  listening : Bool := true
  waiting : List α := []

/-- The subscribers of one source of events, in the order in which they came. -/
structure Broadcast (α : Type) where
  mailboxes : List (Mailbox α) := []
  nextId : SubscriberId := 0

namespace Broadcast

variable {α : Type}

instance : Inhabited (Broadcast α) := ⟨{}⟩

def subscribe (b : Broadcast α) : SubscriberId × Broadcast α :=
  (b.nextId, { mailboxes := b.mailboxes ++ [{ owner := b.nextId }], nextId := b.nextId + 1 })

/-- The subscriber goes away; nothing is delivered to it from now on. -/
def unsubscribe (b : Broadcast α) (id : SubscriberId) : Broadcast α :=
  { b with
    mailboxes := b.mailboxes.map fun m =>
      if m.owner = id then { m with listening := false, waiting := [] } else m }

/-- Delivers `event` to everyone who listens and forgets everyone who does not. -/
def announce (b : Broadcast α) (event : α) : Broadcast α :=
  { b with
    mailboxes := (b.mailboxes.filter (·.listening)).map fun m =>
      { m with waiting := m.waiting ++ [event] } }

/-- The events that wait for a subscriber, oldest first. -/
def waiting (b : Broadcast α) (id : SubscriberId) : List α :=
  match b.mailboxes.find? (·.owner == id) with
  | some m => m.waiting
  | none => []

def collect (b : Broadcast α) (id : SubscriberId) : List α × Broadcast α :=
  (b.waiting id,
    { b with
      mailboxes := b.mailboxes.map fun m =>
        if m.owner = id then { m with waiting := [] } else m })

def subscriberCount (b : Broadcast α) : Nat := b.mailboxes.length

end Broadcast

inductive MailRequest where
  | subscribe
  | collect (id : SubscriberId)
  | unsubscribe (id : SubscriberId)
  deriving DecidableEq, Repr

/-- The broadcast after a subscriber has come, collected its mail, or gone. -/
def Broadcast.serve {α : Type} (b : Broadcast α) : MailRequest → Broadcast α
  | .subscribe => b.subscribe.2
  | .collect id => (b.collect id).2
  | .unsubscribe id => b.unsubscribe id

end HexEditor
