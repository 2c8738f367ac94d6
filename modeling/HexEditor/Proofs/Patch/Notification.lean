import HexEditor.Proofs.Patch.Mail

/-!
# Every change is announced once

While requests come in, subscribers come, collect their mail and go.  A `Ledger` keeps the books
beside the store: for everybody who listens, what has been collected so far, and how many changes
have been carried out since.  Which requests are changes is said of the request alone
(`PatchRequest.mutates`), and of the answer only whether it is a refusal.

The books always balance (`Balanced`): what somebody has collected, together with what still waits,
is one event for each change.  Subscribers who are gone are forgotten by the store only at the next
announcement, but the books close their accounts at once; so the accounts are compared with the
mailboxes that are still listened to (`Broadcast.listeners`), not with all of them.
-/

namespace HexEditor

/-! ## Who listens -/

namespace Broadcast

variable {α : Type} {b : Broadcast α} {event : α} {i : SubscriberId}

/-- The subscribers that have not gone away, in the order in which they came. -/
def listeners (b : Broadcast α) : List SubscriberId :=
  (b.mailboxes.filter (·.listening)).map (·.owner)

@[simp] theorem listeners_announce : (b.announce event).listeners = b.listeners := by
  unfold listeners announce
  rw [List.filter_map, List.map_map, List.filter_filter]
  congr 1
  exact List.filter_congr fun m _ => Bool.and_self _

@[simp] theorem listeners_subscribe : b.subscribe.2.listeners = b.listeners ++ [b.nextId] := by
  simp [listeners, subscribe, List.filter_append]

@[simp] theorem listeners_collect : (b.collect i).2.listeners = b.listeners := by
  have hlistening : ∀ m : Mailbox α,
      (if m.owner = i then { m with waiting := [] } else m).listening = m.listening := by
    intro m
    split <;> rfl
  have howner : ∀ m : Mailbox α,
      (if m.owner = i then { m with waiting := [] } else m).owner = m.owner := by
    intro m
    split <;> rfl
  unfold listeners collect
  dsimp only
  rw [List.filter_map, List.map_map]
  simp only [Function.comp_def, hlistening, howner]

@[simp] theorem listeners_unsubscribe :
    (b.unsubscribe i).listeners = b.listeners.filter (· ≠ i) := by
  unfold listeners unsubscribe
  dsimp only
  induction b.mailboxes with
  | nil => rfl
  | cons m rest ih =>
      by_cases howner : m.owner = i
      · cases hlistening : m.listening <;> simp_all
      · cases hlistening : m.listening <;> simp_all

end Broadcast

/-! ## Requests that change something -/

/-- The request changes the patches if it is not refused. -/
def PatchRequest.mutates : PatchRequest → Bool
  | .write _ bytes => !bytes.isEmpty
  | .mergeRun addrs => 2 ≤ addrs.length
  | .revertAll addrs => !addrs.isEmpty
  | .split .. | .merge .. | .revert _ | .setComment .. => true

theorem PatchRequest.Idle.mutates_eq {r : PatchRequest} (h : r.Idle) : r.mutates = false := by
  cases r with
  | write addr bytes =>
      obtain rfl : bytes = [] := h
      rfl
  | mergeRun addrs =>
      have hlength : addrs.length ≤ 1 := h
      exact decide_eq_false (by omega)
  | revertAll addrs =>
      obtain rfl : addrs = [] := h
      rfl
  | _ => exact h.elim

theorem Reshaped.mutates_eq {ps qs : List Patch} {r : PatchRequest} {o : Option Patch}
    (h : Reshaped ps r o qs) : r.mutates = true := by
  cases h with
  | written hbytes => simpa [PatchRequest.mutates] using hbytes
  | split => rfl
  | merged _ _ hne hr =>
      cases r with
      | mergeRun addrs =>
          obtain rfl := Option.some.inj hr
          have hlength := List.length_pos_of_ne_nil hne
          refine decide_eq_true ?_
          rw [List.length_map, List.length_cons]
          omega
      | merge => rfl
      | _ => cases hr
  | reverted => rfl
  | revertedAll hne => simpa [PatchRequest.mutates] using hne
  | commented => rfl

/-- A change that is carried out is announced once; nothing else does anything. -/
structure PatchStore.Announces (s : PatchStore) (r : PatchRequest)
    (reply : PatchStore.Reply (Option Patch)) : Prop where
  changed : r.mutates = true → ∀ o, reply.answer = .ok o →
    reply.store.changes = s.changes.announce .changed
  void : r.mutates = false → reply.store = s
  refused : ∀ e, reply.answer = .error e → reply.store = s

theorem Responds.announces {s : PatchStore} {ps : List Patch} {r : PatchRequest}
    {reply : PatchStore.Reply (Option Patch)} (h : Responds s ps r reply) :
    s.Announces r reply := by
  cases h with
  | idle hidle => exact ⟨by simp [hidle.mutates_eq], fun _ => rfl, fun _ _ => rfl⟩
  | refused => exact ⟨nofun, fun _ => rfl, fun _ _ => rfl⟩
  | reshaped _ hreshaped => exact ⟨fun _ _ _ => rfl, by simp [hreshaped.mutates_eq], nofun⟩

/-! ## The books -/

/-- A request to the store, or something that a subscriber does. -/
inductive StoreRequest where
  | change (r : PatchRequest)
  | mail (r : MailRequest)
  deriving DecidableEq, Repr

/-- What a subscriber has collected, and how many changes have been carried out since it came. -/
structure Account where
  owner : SubscriberId
  collected : List PatchEvent := []
  due : Nat := 0
  deriving DecidableEq, Repr

/-- A store, and an account for everybody who listens. -/
structure Ledger where
  store : PatchStore := {}
  accounts : List Account := []

namespace Ledger

/-- Every subscriber is owed one event more. -/
def charge (l : Ledger) : Ledger :=
  { l with accounts := l.accounts.map fun a => { a with due := a.due + 1 } }

def change (l : Ledger) (r : PatchRequest) : Checked Ledger := do
  let reply ← l.store.perform r
  let l := { l with store := reply.store }
  match reply.answer with
  | .ok _ => return if r.mutates then l.charge else l
  | .error _ => return l

/-- Who comes opens an account, who goes closes it, and who collects has the mail put down. -/
def book (l : Ledger) : MailRequest → List Account
  | .subscribe => l.accounts ++ [{ owner := l.store.changes.subscribe.1 }]
  | .collect id => l.accounts.map fun a =>
    if a.owner = id then { a with collected := a.collected ++ (l.store.changes.collect id).1 } else a
  | .unsubscribe id => l.accounts.filter (·.owner ≠ id)

def mail (l : Ledger) (r : MailRequest) : Ledger where
  store := { l.store with changes := l.store.changes.serve r }
  accounts := l.book r

def serve (l : Ledger) : StoreRequest → Checked Ledger
  | .change r => l.change r
  | .mail r => return l.mail r

/-- The books after some requests, one after the other. -/
def run (l : Ledger) (requests : List StoreRequest) : Checked Ledger := requests.foldlM serve l

/-- Everybody who listens has an account, and has received what is due. -/
structure Balanced (l : Ledger) : Prop where
  sound : l.store.Sound
  owners : l.accounts.map (·.owner) = l.store.changes.listeners
  hears : ∀ a ∈ l.accounts, l.store.changes.Hears a.owner
  received : ∀ a ∈ l.accounts,
    a.collected ++ l.store.changes.waiting a.owner = List.replicate a.due .changed

namespace Balanced

variable {l m : Ledger}

theorem empty : Balanced {} := ⟨PatchStore.sound_default, rfl, nofun, nofun⟩

/-- An announcement is what everybody is owed for a change. -/
theorem charge (h : l.Balanced) {store : PatchStore} (hsound : store.Sound)
    (hchanges : store.changes = l.store.changes.announce .changed) :
    (Ledger.charge { l with store }).Balanced := by
  have hdelivers := fun j => Broadcast.announce_delivers j l.store.changes .changed
  refine ⟨hsound, ?_, List.forall_mem_map.2 fun a ha => ?_, List.forall_mem_map.2 fun a ha => ?_⟩
  · change (l.accounts.map _).map _ = store.changes.listeners
    rw [hchanges, Broadcast.listeners_announce, ← h.owners, List.map_map]
    rfl
  · change store.changes.Hears a.owner
    rw [hchanges]
    exact (hdelivers a.owner (h.hears a ha)).1
  · change a.collected ++ store.changes.waiting a.owner = List.replicate (a.due + 1) .changed
    rw [hchanges, (hdelivers a.owner (h.hears a ha)).2, ← List.append_assoc, h.received a ha,
      List.replicate_succ']

/-- Every request to the store is answered, and is booked as it has been announced. -/
theorem change (h : l.Balanced) (r : PatchRequest) :
    ∃ m, l.change r = .ok m ∧ m.Balanced := by
  obtain ⟨reply, hperform, hresponds, hwellFormed⟩ := PatchStore.perform_eq_ok h.sound.wellFormed r
  obtain ⟨hchanged, hvoid, hrefused⟩ := hresponds.announces
  unfold Ledger.change
  rw [hperform, Checked.ok_bind]
  have hsame : reply.store = l.store → ({ l with store := reply.store } : Ledger).Balanced := by
    intro hstore
    rw [hstore]
    exact h
  cases hanswer : reply.answer with
  | error e => exact ⟨_, rfl, hsame (hrefused e hanswer)⟩
  | ok o =>
      cases hmutates : r.mutates with
      | false => exact ⟨_, rfl, hsame (hvoid hmutates)⟩
      | true =>
          have hchanges := hchanged hmutates o hanswer
          refine ⟨_, rfl, h.charge ⟨hwellFormed, ?_⟩ hchanges⟩
          rw [hchanges]
          exact h.sound.fresh.announce _

theorem subscribe (h : l.Balanced) : (l.mail .subscribe).Balanced := by
  have hdelivers := fun j => Broadcast.subscribe_delivers j l.store.changes
  have hself := h.sound.fresh.subscribe_self
  refine ⟨⟨h.sound.wellFormed, h.sound.fresh.subscribe⟩, ?_, ?_, ?_⟩
  · change (l.accounts ++ [_]).map _ = l.store.changes.subscribe.2.listeners
    rw [List.map_append, h.owners, Broadcast.listeners_subscribe]
    rfl
  · refine List.forall_mem_append.2 ⟨fun a ha => (hdelivers a.owner (h.hears a ha)).1, ?_⟩
    exact List.forall_mem_singleton.2 hself.1
  · refine List.forall_mem_append.2 ⟨fun a ha => ?_, List.forall_mem_singleton.2 hself.2⟩
    change a.collected ++ l.store.changes.subscribe.2.waiting a.owner = _
    rw [(hdelivers a.owner (h.hears a ha)).2, List.append_nil, h.received a ha]

theorem collect (h : l.Balanced) (id : SubscriberId) : (l.mail (.collect id)).Balanced := by
  -- what is collected moves from the mailbox to the account, and nobody else has a part in it
  have hmoved : ∀ a ∈ l.accounts, (l.store.changes.collect id).2.Hears a.owner ∧
      (if a.owner = id then a.collected ++ l.store.changes.waiting id else a.collected) ++
        (l.store.changes.collect id).2.waiting a.owner = List.replicate a.due .changed := by
    intro a ha
    by_cases howner : a.owner = id
    · obtain rfl := howner
      obtain ⟨hhears, hwaiting⟩ := (h.hears a ha).collect_self
      exact ⟨hhears, by rw [if_pos rfl, hwaiting, List.append_nil, h.received a ha]⟩
    · obtain ⟨hhears, hwaiting⟩ :=
        Broadcast.collect_delivers l.store.changes (Ne.symm howner) (h.hears a ha)
      exact ⟨hhears, by rw [if_neg howner, hwaiting, List.append_nil, h.received a ha]⟩
  refine ⟨⟨h.sound.wellFormed, h.sound.fresh.collect id⟩, ?_, List.forall_mem_map.2 fun a ha => ?_,
    List.forall_mem_map.2 fun a ha => ?_⟩
  · change (l.accounts.map _).map _ = (l.store.changes.collect id).2.listeners
    rw [Broadcast.listeners_collect, ← h.owners, List.map_map]
    refine List.map_congr_left fun a _ => ?_
    dsimp only [Function.comp]
    split <;> rfl
  · have hhears := (hmoved a ha).1
    split <;> exact hhears
  · have hreceived := (hmoved a ha).2
    split at hreceived
    · next howner =>
        rw [if_pos howner]
        exact hreceived
    · next howner =>
        rw [if_neg howner]
        exact hreceived

theorem unsubscribe (h : l.Balanced) (id : SubscriberId) :
    (l.mail (.unsubscribe id)).Balanced := by
  have hleft : ∀ a ∈ l.accounts.filter (·.owner ≠ id), a ∈ l.accounts ∧
      Broadcast.Delivers a.owner [] l.store.changes (l.store.changes.unsubscribe id) := by
    intro a ha
    obtain ⟨hmem, howner⟩ := List.mem_filter.1 ha
    exact ⟨hmem, Broadcast.unsubscribe_delivers _ (of_decide_eq_true howner).symm⟩
  refine ⟨⟨h.sound.wellFormed, h.sound.fresh.unsubscribe id⟩, ?_, fun a ha => ?_, fun a ha => ?_⟩
  · change (l.accounts.filter _).map _ = (l.store.changes.unsubscribe id).listeners
    rw [Broadcast.listeners_unsubscribe, ← h.owners, List.filter_map]
    rfl
  · obtain ⟨hmem, hdelivers⟩ := hleft a ha
    exact (hdelivers (h.hears a hmem)).1
  · obtain ⟨hmem, hdelivers⟩ := hleft a ha
    change a.collected ++ (l.store.changes.unsubscribe id).waiting a.owner = _
    rw [(hdelivers (h.hears a hmem)).2, List.append_nil, h.received a hmem]

theorem serve (h : l.Balanced) (r : StoreRequest) : ∃ m, l.serve r = .ok m ∧ m.Balanced := by
  cases r with
  | change r => exact h.change r
  | mail r =>
      refine ⟨l.mail r, rfl, ?_⟩
      cases r with
      | subscribe => exact h.subscribe
      | collect id => exact h.collect id
      | unsubscribe id => exact h.unsubscribe id

theorem run (h : l.Balanced) (requests : List StoreRequest) :
    ∃ m, l.run requests = .ok m ∧ m.Balanced := by
  induction requests generalizing l with
  | nil => exact ⟨l, rfl, h⟩
  | cons r rest ih =>
      obtain ⟨m, hserve, hm⟩ := h.serve r
      obtain ⟨n, hrest, hn⟩ := ih hm
      refine ⟨n, ?_, hn⟩
      unfold Ledger.run at hrest ⊢
      rw [List.foldlM_cons, hserve]
      exact hrest

end Balanced

/-- However requests and subscribers come and go, from the empty store on, those who listen have
received one event for each change since they came.  A change that is carried out is announced
once, and whatever is refused or void leaves the store as it was. -/
theorem changes_announced_once (requests : List StoreRequest) :
    ∃ l, Ledger.run {} requests = .ok l ∧
      l.accounts.map (·.owner) = l.store.changes.listeners ∧
      (∀ a ∈ l.accounts,
        a.collected ++ l.store.changes.waiting a.owner = List.replicate a.due .changed) ∧
      ∀ r, ∃ reply, l.store.perform r = .ok reply ∧
        (r.mutates = true → ∀ o, reply.answer = .ok o →
          reply.store.changes = l.store.changes.announce .changed) ∧
        (r.mutates = false → reply.store = l.store) ∧
        ∀ e, reply.answer = .error e → reply.store = l.store := by
  obtain ⟨l, hrun, hbalanced⟩ := Balanced.empty.run requests
  refine ⟨l, hrun, hbalanced.owners, hbalanced.received, fun r => ?_⟩
  obtain ⟨reply, hperform, hresponds, -⟩ := PatchStore.perform_eq_ok hbalanced.sound.wellFormed r
  obtain ⟨hchanged, hvoid, hrefused⟩ := hresponds.announces
  exact ⟨reply, hperform, hchanged, hvoid, hrefused⟩

/-- The second subscriber comes between two changes, and an empty write and a second revert of the
same patch are none. -/
example : (Ledger.run {} [.mail .subscribe, .change (.write 4 [1]), .mail .subscribe,
    .change (.write 9 []), .change (.revert 4), .change (.revert 4), .mail (.collect 0)]).map
      (·.accounts) = .ok [⟨0, [.changed, .changed], 2⟩, ⟨1, [], 1⟩] := rfl

end Ledger

end HexEditor
