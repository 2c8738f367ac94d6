import HexEditor.Broadcast
import Mathlib.Tactic.Common
import Mathlib.Data.List.Basic

/-!
# What reaches a subscriber

A subscriber that `Hears` a broadcast goes on hearing it until it unsubscribes itself, and
all that others do can only add to its mail.  `Delivers j new b c` says so of two states of a
broadcast: whatever happened between them, `j` has received exactly `new`.  It composes, so
that the mail of a long run is put together from the mail of its steps.
-/

namespace HexEditor

namespace Broadcast

variable {α : Type} {b c d : Broadcast α} {i j : SubscriberId} {event : α} {new more : List α}

/-- The mailbox of a subscriber. -/
def mailbox? (b : Broadcast α) (j : SubscriberId) : Option (Mailbox α) :=
  b.mailboxes.find? (·.owner == j)

/-- Events are delivered to the subscriber. -/
def Hears (b : Broadcast α) (j : SubscriberId) : Prop :=
  ∃ m, b.mailbox? j = some m ∧ m.listening = true

/-- The next subscriber gets a number that nobody has. -/
def Fresh (b : Broadcast α) : Prop := ∀ m ∈ b.mailboxes, m.owner < b.nextId

/-- From `b` to `c` the subscriber has received the events `new`, if it heard `b` at all. -/
def Delivers (j : SubscriberId) (new : List α) (b c : Broadcast α) : Prop :=
  b.Hears j → c.Hears j ∧ c.waiting j = b.waiting j ++ new

theorem waiting_eq (b : Broadcast α) (j : SubscriberId) :
    b.waiting j = ((b.mailbox? j).map (·.waiting)).getD [] := by
  unfold waiting mailbox?
  cases b.mailboxes.find? (·.owner == j) <;> rfl

theorem fresh_default : Fresh ({} : Broadcast α) := by
  intro m hm
  simp at hm

theorem Hears.lt (h : b.Hears j) (hfresh : b.Fresh) : j < b.nextId := by
  obtain ⟨m, hm, -⟩ := h
  have howner : m.owner = j := by simpa using List.find?_some hm
  rw [← howner]
  exact hfresh m (List.mem_of_find?_eq_some hm)

namespace Delivers

theorem refl (j : SubscriberId) (b : Broadcast α) : Delivers j [] b b :=
  fun h => ⟨h, (List.append_nil _).symm⟩

theorem trans (h : Delivers j new b c) (h' : Delivers j more c d) :
    Delivers j (new ++ more) b d := by
  intro hhears
  obtain ⟨hc, hnew⟩ := h hhears
  obtain ⟨hd, hmore⟩ := h' hc
  exact ⟨hd, by rw [hmore, hnew, List.append_assoc]⟩

end Delivers

/-! ## Changes of all mailboxes -/

section Map

variable {f : Mailbox α → Mailbox α}

/-- A change of every mailbox, as long as no owner changes, changes the mailbox of each. -/
theorem mailbox?_map (hf : ∀ m, (f m).owner = m.owner) (j : SubscriberId) :
    ({ b with mailboxes := b.mailboxes.map f } : Broadcast α).mailbox? j = (b.mailbox? j).map f := by
  unfold mailbox?
  rw [List.find?_map]
  congr 2
  funext m
  simp [hf]

theorem Fresh.map (h : b.Fresh) (hf : ∀ m, (f m).owner = m.owner) :
    ({ b with mailboxes := b.mailboxes.map f } : Broadcast α).Fresh := by
  intro m hm
  obtain ⟨m', hm', rfl⟩ := List.mem_map.1 hm
  rw [hf]
  exact h m' hm'

end Map

/-! ## Announcements -/

theorem announce_mailbox? (event : α) {m : Mailbox α} (hm : b.mailbox? j = some m)
    (hlistening : m.listening = true) :
    (b.announce event).mailbox? j = some { m with waiting := m.waiting ++ [event] } := by
  have hkept : (b.mailboxes.filter (·.listening)).find? (·.owner == j) = some m := by
    obtain ⟨howner, before, after, hboxes, hbefore⟩ := List.find?_eq_some_iff_append.1 hm
    refine List.find?_eq_some_iff_append.2
      ⟨howner, before.filter (·.listening), after.filter (·.listening), ?_, ?_⟩
    · rw [hboxes, List.filter_append, List.filter_cons_of_pos hlistening]
    · exact fun m' hm' => hbefore m' (List.mem_of_mem_filter hm')
  have hmap := mailbox?_map (b := { b with mailboxes := b.mailboxes.filter (·.listening) })
    (f := fun m => { m with waiting := m.waiting ++ [event] }) (fun _ => rfl) j
  rw [announce, hmap, mailbox?, hkept]
  rfl

theorem announce_delivers (j : SubscriberId) (b : Broadcast α) (event : α) :
    Delivers j [event] b (b.announce event) := by
  rintro ⟨m, hm, hlistening⟩
  have hnew := announce_mailbox? event hm hlistening
  exact ⟨⟨_, hnew, hlistening⟩, by rw [waiting_eq, waiting_eq, hnew, hm]; rfl⟩

theorem Fresh.announce (h : b.Fresh) (event : α) : (b.announce event).Fresh := by
  have hkept : ({ b with mailboxes := b.mailboxes.filter (·.listening) } : Broadcast α).Fresh :=
    fun m hm => h m (List.mem_of_mem_filter hm)
  exact hkept.map fun _ => rfl

/-! ## What subscribers do -/

theorem collect_mailbox? (b : Broadcast α) (i j : SubscriberId) :
    (b.collect i).2.mailbox? j =
      (b.mailbox? j).map fun m => if m.owner = i then { m with waiting := [] } else m :=
  mailbox?_map (fun m => by split <;> rfl) j

theorem unsubscribe_mailbox? (b : Broadcast α) (i j : SubscriberId) :
    (b.unsubscribe i).mailbox? j = (b.mailbox? j).map fun m =>
      if m.owner = i then { m with listening := false, waiting := [] } else m :=
  mailbox?_map (fun m => by split <;> rfl) j

theorem subscribe_mailbox? (b : Broadcast α) (j : SubscriberId) :
    b.subscribe.2.mailbox? j =
      (b.mailbox? j).or (if b.nextId = j then some { owner := b.nextId } else none) := by
  unfold mailbox? subscribe
  rw [List.find?_append, List.find?_singleton]
  simp

/-- What the others do leaves a mailbox alone. -/
theorem delivers_of_mailbox?_eq (h : c.mailbox? j = b.mailbox? j) : Delivers j [] b c := by
  rintro ⟨m, hm, hlistening⟩
  exact ⟨⟨m, h.trans hm, hlistening⟩, by rw [waiting_eq, waiting_eq, h, List.append_nil]⟩

theorem map_mailbox?_of_ne {f : Mailbox α → Mailbox α} (h : i ≠ j) :
    ((b.mailbox? j).map fun m => if m.owner = i then f m else m) = b.mailbox? j := by
  cases hm : b.mailbox? j with
  | none => rfl
  | some m =>
      have howner : m.owner = j := by simpa using List.find?_some hm
      rw [Option.map_some, if_neg (howner ▸ h.symm)]

theorem collect_delivers (b : Broadcast α) (h : i ≠ j) : Delivers j [] b (b.collect i).2 :=
  delivers_of_mailbox?_eq ((collect_mailbox? b i j).trans (map_mailbox?_of_ne h))

theorem unsubscribe_delivers (b : Broadcast α) (h : i ≠ j) :
    Delivers j [] b (b.unsubscribe i) :=
  delivers_of_mailbox?_eq ((unsubscribe_mailbox? b i j).trans (map_mailbox?_of_ne h))

theorem subscribe_delivers (j : SubscriberId) (b : Broadcast α) :
    Delivers j [] b b.subscribe.2 := by
  rintro ⟨m, hm, hlistening⟩
  refine delivers_of_mailbox?_eq ?_ ⟨m, hm, hlistening⟩
  rw [subscribe_mailbox?, hm, Option.some_or]

/-- Who has collected its mail still hears, and has no mail. -/
theorem Hears.collect_self (h : b.Hears j) :
    (b.collect j).2.Hears j ∧ (b.collect j).2.waiting j = [] := by
  obtain ⟨m, hm, hlistening⟩ := h
  have howner : m.owner = j := by simpa using List.find?_some hm
  have hnew : (b.collect j).2.mailbox? j = some { m with waiting := [] } := by
    rw [collect_mailbox?, hm, Option.map_some, if_pos howner]
  exact ⟨⟨_, hnew, hlistening⟩, by rw [waiting_eq, hnew]; rfl⟩

/-- Collecting no mail leaves everybody's as it is. -/
theorem waiting_collect_of_nil (h : b.waiting i = []) (j : SubscriberId) :
    (b.collect i).2.waiting j = b.waiting j := by
  rw [waiting_eq, collect_mailbox?]
  by_cases hij : i = j
  · subst hij
    rw [h]
    rw [waiting_eq] at h
    cases hm : b.mailbox? i with
    | none => rfl
    | some m =>
        rw [hm] at h
        change (if m.owner = i then { m with waiting := [] } else m).waiting = []
        split
        · rfl
        · exact h
  · rw [map_mailbox?_of_ne hij, waiting_eq]

/-- A new subscriber hears, and has no mail. -/
theorem Fresh.subscribe_self (h : b.Fresh) :
    b.subscribe.2.Hears b.nextId ∧ b.subscribe.2.waiting b.nextId = [] := by
  have hnone : b.mailbox? b.nextId = none :=
    List.find?_eq_none.2 fun m hm => by simpa using Nat.ne_of_lt (h m hm)
  have hnew : b.subscribe.2.mailbox? b.nextId = some { owner := b.nextId } := by
    rw [subscribe_mailbox?, hnone, if_pos rfl]
    rfl
  exact ⟨⟨_, hnew, rfl⟩, by rw [waiting_eq, hnew]; rfl⟩

/-- No mail waits under the number. -/
def Cleared (j : SubscriberId) (b : Broadcast α) : Prop :=
  ∀ m ∈ b.mailboxes, m.owner = j → m.waiting = []

theorem Cleared.waiting (h : b.Cleared j) : b.waiting j = [] := by
  rw [waiting_eq]
  cases hm : b.mailbox? j with
  | none => rfl
  | some m =>
      have howner : m.owner = j := by simpa using List.find?_some hm
      exact h m (List.mem_of_find?_eq_some hm) howner

theorem collect_cleared (b : Broadcast α) (j : SubscriberId) : (b.collect j).2.Cleared j := by
  intro m hm
  obtain ⟨n, -, rfl⟩ := List.mem_map.1 hm
  intro howner
  split
  · rfl
  · next hne => exact absurd (by rwa [if_neg hne] at howner) hne

/-- Where no mail waits none arrives when others collect theirs. -/
theorem Cleared.collect (h : b.Cleared j) (i : SubscriberId) : (b.collect i).2.Cleared j := by
  intro m hm
  obtain ⟨n, hn, rfl⟩ := List.mem_map.1 hm
  intro howner
  split
  · rfl
  · next hne => exact h n hn (by rwa [if_neg hne] at howner)

/-- Collecting where no mail waits changes nothing. -/
theorem Cleared.collect_self (h : b.Cleared j) : (b.collect j).2 = b := by
  have hsame : ∀ m ∈ b.mailboxes,
      (if m.owner = j then { m with waiting := [] } else m) = id m := by
    intro m hm
    split
    · next howner =>
        rw [← h m hm howner]
        rfl
    · rfl
  have hall := (List.map_congr_left hsame).trans (List.map_id _)
  unfold Broadcast.collect
  rw [hall]

theorem Fresh.collect (h : b.Fresh) (i : SubscriberId) : (b.collect i).2.Fresh :=
  h.map fun m => by split <;> rfl

theorem Fresh.unsubscribe (h : b.Fresh) (i : SubscriberId) : (b.unsubscribe i).Fresh :=
  h.map fun m => by split <;> rfl

theorem Fresh.subscribe (h : b.Fresh) : b.subscribe.2.Fresh := by
  intro m hm
  rcases List.mem_append.1 hm with hm | hm
  · exact Nat.lt_succ_of_lt (h m hm)
  · rw [List.mem_singleton.1 hm]
    exact Nat.lt_succ_self _

end Broadcast

/-- The request does not concern the mail of `j`. -/
def MailRequest.Spares (j : SubscriberId) : MailRequest → Prop
  | .subscribe => True
  | .collect i => i ≠ j
  | .unsubscribe i => i ≠ j

namespace Broadcast

variable {α : Type} {b : Broadcast α} {j : SubscriberId} {r : MailRequest}

theorem serve_delivers (b : Broadcast α) (h : r.Spares j) : Delivers j [] b (b.serve r) := by
  cases r with
  | subscribe => exact subscribe_delivers j b
  | collect i => exact collect_delivers b h
  | unsubscribe i => exact unsubscribe_delivers b h

theorem Fresh.serve (h : b.Fresh) (r : MailRequest) : (b.serve r).Fresh := by
  cases r with
  | subscribe => exact h.subscribe
  | collect i => exact h.collect i
  | unsubscribe i => exact h.unsubscribe i

end Broadcast

end HexEditor
