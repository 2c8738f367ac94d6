import HexEditor.Proofs.Sync.Group
import Mathlib.Data.List.Induction

/-!
# What a group has on record, and what it announces

Whoever takes part in a group looks at what the group has on record only when an event asks for it.
So two things matter: that the record is right, and that no change of it is passed over in silence.

The record is compared with the requests that have been made (`OnRecord`).  A number is handed out
by the join of that number, counted from zero; its owner is a member until it leaves, and what it
has published last since the join is what counts (`recorded?`).

What a request announces is what somebody hears who has subscribed just before (`announced`), and
then everybody hears the same.  There are few ways in which a request can come out (`Outcome`), and
each of them announces what it changes (`Announces`).
-/

namespace HexEditor

/-! ## What the requests say -/

namespace GroupRequest

/-- The requests after the join that has handed out a number. -/
def since? : MemberId → List GroupRequest → Option (List GroupRequest)
  | _, [] => none
  | 0, .join :: rest => some rest
  | id + 1, .join :: rest => since? id rest
  | id, _ :: rest => since? id rest

/-- The ranges that a member has published last. -/
def lastPublished (id : MemberId) (requests : List GroupRequest) : List AddrRange :=
  (requests.filterMap fun
    | .publish owner ranges => if owner = id then some ranges else none
    | _ => none).getLast?.getD []

/-- The ranges that stand for a member, if it has joined and has not left. -/
def recorded? (id : MemberId) (requests : List GroupRequest) : Option (List AddrRange) :=
  (since? id requests).bind fun later =>
    if .leave id ∈ later then none else some (lastPublished id later)

variable {id owner : MemberId} {requests : List GroupRequest} {r : GroupRequest}

theorem lt_of_since? {later : List GroupRequest} (h : since? id requests = some later) :
    id < requests.count .join := by
  induction requests generalizing id with
  | nil => cases h
  | cons first rest ih =>
      cases first with
      | join =>
          rw [List.count_cons_self]
          cases id with
          | zero => exact Nat.succ_pos _
          | succ id => exact Nat.succ_lt_succ (ih h)
      | _ =>
          rw [List.count_cons_of_ne (by nofun)]
          exact ih h

theorem lt_of_recorded? {ranges : List AddrRange} (h : recorded? id requests = some ranges) :
    id < requests.count .join := by
  obtain ⟨later, hlater, -⟩ := Option.bind_eq_some_iff.1 h
  exact lt_of_since? hlater

/-- One request more comes after the join, unless it is the join. -/
theorem since?_concat (id : MemberId) (requests : List GroupRequest) (r : GroupRequest) :
    since? id (requests ++ [r]) = ((since? id requests).map (· ++ [r])).or
      (if r = .join ∧ requests.count .join = id then some [] else none) := by
  induction requests generalizing id with
  | nil =>
      cases r with
      | join => cases id <;> rfl
      | _ => rfl
  | cons first rest ih =>
      cases first with
      | join =>
          rw [List.count_cons_self]
          cases id with
          | zero => rfl
          | succ id =>
              simp only [Nat.succ.injEq]
              exact ih id
      | _ =>
          rw [List.count_cons_of_ne (by nofun)]
          exact ih id

theorem lastPublished_concat (id : MemberId) (requests : List GroupRequest) (r : GroupRequest) :
    lastPublished id (requests ++ [r]) = match r with
      | .publish owner ranges => if owner = id then ranges else lastPublished id requests
      | _ => lastPublished id requests := by
  unfold lastPublished
  rw [List.filterMap_append, List.getLast?_append]
  cases r with
  | publish owner ranges => by_cases howner : owner = id <;> simp [howner]
  | _ => rfl

/-- What one request more does to the record. -/
theorem recorded?_concat (id : MemberId) (requests : List GroupRequest) (r : GroupRequest) :
    recorded? id (requests ++ [r]) = match r with
      | .join => if requests.count .join = id then some [] else recorded? id requests
      | .leave owner => if owner = id then none else recorded? id requests
      | .publish owner ranges =>
        (recorded? id requests).map fun known => if owner = id then ranges else known
      | .setCursor .. => recorded? id requests := by
  unfold recorded?
  rw [since?_concat]
  cases hlater : since? id requests with
  | none =>
      cases r with
      | join => by_cases hid : requests.count .join = id <;> simp [hid, lastPublished]
      | _ => simp
  | some later =>
      have hlt := lt_of_since? hlater
      dsimp only [Option.map_some, Option.some_or, Option.bind_some]
      rw [lastPublished_concat]
      cases r with
      | join => simp [hlt.ne']
      | leave owner =>
          rcases eq_or_ne owner id with rfl | howner
          · simp
          · simp [howner, howner.symm]
      | publish owner ranges => by_cases hleft : .leave id ∈ later <;> simp [hleft]
      | setCursor owner addr => simp

end GroupRequest

namespace SyncGroup

open GroupRequest

variable {g h : SyncGroup} {me id owner : MemberId} {requests : List GroupRequest}
  {r : GroupRequest} {new : List SyncEvent} {events : Broadcast SyncEvent}

/-! ## How a request comes out -/

/-- The events that a request announces: what somebody hears who has subscribed just before. -/
def announced (g : SyncGroup) (r : GroupRequest) : List SyncEvent :=
  let fresh := ({} : Broadcast SyncEvent).subscribe
  ({ g with events := fresh.2 }.perform r).events.waiting fresh.1

/-- How a request comes out: what is announced, and what the group then is, its mail aside. -/
inductive Outcome (g : SyncGroup) : GroupRequest → List SyncEvent → SyncGroup → Prop
  | joined : Outcome g .join [.membersChanged]
      { g with nextId := g.nextId + 1, members := g.members.insert g.nextId [] }
  | left {id : MemberId} {ranges : List AddrRange} (hget : g.members.get? id = some ranges) :
      Outcome g (.leave id)
        (.membersChanged :: if ranges.isEmpty then [] else [.regionsChanged id])
        { g with members := g.members.erase id, cursor := g.cursor.filter (·.1 ≠ id) }
  | published {owner : MemberId} {known ranges : List AddrRange}
      (hget : g.members.get? owner = some known) (hne : known ≠ ranges) :
      Outcome g (.publish owner ranges) [.regionsChanged owner]
        { g with members := g.members.insert owner ranges }
  | moved {owner : MemberId} {addr : Nat} (howner : g.members.contains owner = true)
      (hne : g.cursor ≠ some (owner, addr)) :
      Outcome g (.setCursor owner addr) [.cursorMoved owner addr]
        { g with cursor := some (owner, addr) }
  | void {r : GroupRequest} (hr : r ≠ .join) : Outcome g r [] g

/-- However a request comes out, it does so whoever listens. -/
theorem exists_outcome (g : SyncGroup) (r : GroupRequest) : ∃ new h, Outcome g r new h ∧
    ∀ events : Broadcast SyncEvent, { g with events }.perform r =
      { h with events := new.foldl Broadcast.announce events } := by
  cases r with
  | join => exact ⟨_, _, .joined, fun _ => rfl⟩
  | leave id =>
      cases hget : g.members.get? id with
      | none =>
          refine ⟨_, _, .void (by nofun), fun events => ?_⟩
          unfold perform leave
          dsimp only
          rw [hget]
          rfl
      | some ranges =>
          refine ⟨_, _, .left hget, fun events => ?_⟩
          unfold perform leave
          dsimp only
          rw [hget]
          cases ranges <;> rfl
  | publish owner ranges =>
      cases hget : g.members.get? owner with
      | none =>
          refine ⟨_, _, .void (by nofun), fun events => ?_⟩
          unfold perform publish
          dsimp only
          rw [hget]
          rfl
      | some known =>
          by_cases hsame : known = ranges
          · refine ⟨_, _, .void (by nofun), fun events => ?_⟩
            unfold perform publish
            dsimp only
            rw [hget]
            exact if_pos hsame
          · refine ⟨_, _, .published hget hsame, fun events => ?_⟩
            unfold perform publish
            dsimp only
            rw [hget]
            exact if_neg hsame
  | setCursor owner addr =>
      by_cases hvoid : (!g.members.contains owner || g.cursor = some (owner, addr)) = true
      · exact ⟨_, _, .void (by nofun), fun events => if_pos hvoid⟩
      · obtain ⟨howner, hne⟩ : g.members.contains owner = true ∧ g.cursor ≠ some (owner, addr) := by
          simpa using hvoid
        exact ⟨_, _, .moved howner hne, fun events => if_neg hvoid⟩

/-- Whoever listens hears some announcements in their order. -/
theorem announce_all_delivers (inbox : SubscriberId) (events : Broadcast SyncEvent)
    (new : List SyncEvent) :
    events.Delivers inbox new (new.foldl Broadcast.announce events) := by
  induction new generalizing events with
  | nil => exact .refl inbox events
  | cons event rest ih =>
      exact (Broadcast.announce_delivers inbox events event).trans (ih (events.announce event))

/-- What somebody hears who has just subscribed is what everybody hears. -/
theorem outcome (g : SyncGroup) (r : GroupRequest) : ∃ h, Outcome g r (g.announced r) h ∧
    ∀ events : Broadcast SyncEvent, { g with events }.perform r =
      { h with events := (g.announced r).foldl Broadcast.announce events } := by
  obtain ⟨new, h, houtcome, hperform⟩ := exists_outcome g r
  have hnew : g.announced r = new := by
    obtain ⟨hhears, hnone⟩ := (Broadcast.fresh_default (α := SyncEvent)).subscribe_self
    have hdelivered := (announce_all_delivers _ _ new hhears).2
    rw [hnone, List.nil_append] at hdelivered
    unfold announced
    dsimp only
    rw [hperform]
    exact hdelivered
  rw [hnew]
  exact ⟨h, houtcome, hperform⟩

/-! ## What is announced -/

/-- Ranges of others only change when somebody else announces that they have. -/
theorem Outcome.rangesExcept (houtcome : Outcome g r new h) (hg : g.Sound) (me : MemberId) :
    h.rangesExcept me = g.rangesExcept me ∨ ∃ owner ≠ me, .regionsChanged owner ∈ new := by
  cases houtcome with
  | joined => exact .inl (join_rangesExcept hg me)
  | @left id ranges hget =>
      by_cases hme : id = me
      · subst hme
        refine .inl (congrArg (List.flatMap Prod.snd) ?_)
        unfold OrderedMap.erase
        rw [List.filter_filter]
        exact List.filter_congr fun e _ => by simp
      · cases ranges with
        | nil => exact .inl (rangesExcept_erase hget me)
        | cons range rest => exact .inr ⟨id, hme, by simp⟩
  | @published owner known ranges hget hne =>
      by_cases hme : owner = me
      · subst hme
        exact .inl (congrArg (List.flatMap Prod.snd) (OrderedMap.entries_insert_filter_ne _ _ _))
      · exact .inr ⟨owner, hme, List.mem_singleton_self _⟩
  | moved => exact .inl rfl
  | void => exact .inl rfl

theorem Outcome.memberCount (houtcome : Outcome g r new h) :
    h.memberCount = g.memberCount ∨ .membersChanged ∈ new := by
  cases houtcome with
  | joined => exact .inr (List.mem_singleton_self _)
  | left => exact .inr List.mem_cons_self
  | published hget => exact .inl (OrderedMap.size_insert_of_get? hget)
  | moved => exact .inl rfl
  | void => exact .inl rfl

theorem Outcome.cursor (houtcome : Outcome g r new h) {addr : Nat}
    (hcursor : h.cursor = some (owner, addr)) :
    g.cursor = some (owner, addr) ∨ .cursorMoved owner addr ∈ new := by
  cases houtcome with
  | joined => exact .inl hcursor
  | left => exact .inl (Option.filter_eq_some_iff.1 hcursor).1
  | published => exact .inl hcursor
  | moved =>
      obtain ⟨rfl, rfl⟩ := Prod.mk.inj (Option.some.inj hcursor)
      exact .inr (List.mem_singleton_self _)
  | void => exact .inl hcursor

/-- Nothing is announced but news. -/
theorem Outcome.news (houtcome : Outcome g r new h) (hg : g.Sound)
    (hmembers : h.members = g.members) (hcursor : h.cursor = g.cursor) : new = [] := by
  cases houtcome with
  | joined =>
      have hjoined : g.members.get? g.nextId = some [] := by
        rw [← hmembers]
        exact OrderedMap.get?_insert_self
      exact absurd (hg.member_lt_of_get? hjoined) (lt_irrefl _)
  | left hget =>
      rw [← hmembers, OrderedMap.get?_erase_self] at hget
      cases hget
  | published hget hne =>
      rw [← hmembers, OrderedMap.get?_insert_self] at hget
      exact absurd (Option.some.inj hget).symm hne
  | moved _ hne => exact absurd hcursor.symm hne
  | void => rfl

/-- Whoever is no member is not heard. -/
theorem perform_of_stranger (hr : r.member? = some id) (hid : g.members.contains id = false) :
    g.perform r = g := by
  have hnone : g.members.get? id = none := by simpa [OrderedMap.contains] using hid
  cases r with
  | join => cases hr
  | leave owner =>
      obtain rfl := Option.some.inj hr
      unfold perform leave
      dsimp only
      rw [hnone]
  | publish owner ranges =>
      obtain rfl := Option.some.inj hr
      unfold perform publish
      dsimp only
      rw [hnone]
  | setCursor owner addr =>
      obtain rfl := Option.some.inj hr
      unfold perform setCursor
      dsimp only
      rw [hid]
      rfl

theorem announced_of_stranger (hr : r.member? = some id) (hid : g.members.contains id = false) :
    g.announced r = [] := by
  let fresh := ({} : Broadcast SyncEvent).subscribe
  have hkept : { g with events := fresh.2 }.perform r = { g with events := fresh.2 } :=
    perform_of_stranger hr hid
  unfold announced
  dsimp only
  rw [hkept]
  exact (Broadcast.fresh_default (α := SyncEvent)).subscribe_self.2

/-- What a request does is announced, whoever listens, and nothing else is. -/
structure Announces (g : SyncGroup) (r : GroupRequest) : Prop where
  heard : ∀ (events : Broadcast SyncEvent) (inbox : SubscriberId), ∃ after,
    { g with events }.perform r = { g.perform r with events := after } ∧
      events.Delivers inbox (g.announced r) after
  ranges : ∀ me, (g.perform r).rangesExcept me ≠ g.rangesExcept me →
    ∃ owner ≠ me, .regionsChanged owner ∈ g.announced r
  members : (g.perform r).memberCount ≠ g.memberCount → .membersChanged ∈ g.announced r
  cursor : ∀ owner addr, (g.perform r).cursor = some (owner, addr) →
    g.cursor ≠ some (owner, addr) → .cursorMoved owner addr ∈ g.announced r
  news : (g.perform r).members = g.members → (g.perform r).cursor = g.cursor →
    g.announced r = []
  stranger : ∀ id, r.member? = some id → g.members.contains id = false →
    g.perform r = g ∧ g.announced r = []

theorem Sound.announces (hg : g.Sound) (r : GroupRequest) : g.Announces r := by
  obtain ⟨h, houtcome, hperform⟩ := outcome g r
  have hkept : (g.perform r).members = h.members ∧ (g.perform r).cursor = h.cursor := by
    rw [hperform g.events]
    exact ⟨rfl, rfl⟩
  obtain ⟨hmembers, hcursor⟩ := hkept
  exact {
    heard := fun events inbox => ⟨_, by rw [hperform events, hperform g.events],
      announce_all_delivers inbox events _⟩
    ranges := fun me hne => (houtcome.rangesExcept hg me).resolve_left fun heq => hne <| by
      unfold rangesExcept at heq ⊢
      rw [hmembers, heq]
    members := fun hne => houtcome.memberCount.resolve_left fun heq => hne <| by
      unfold memberCount at heq ⊢
      rw [hmembers, heq]
    cursor := fun owner addr hnew hne =>
      (houtcome.cursor (hcursor.symm.trans hnew)).resolve_left hne
    news := fun hmembers' hcursor' =>
      houtcome.news hg (hmembers.symm.trans hmembers') (hcursor.symm.trans hcursor')
    stranger := fun id hr hid => ⟨perform_of_stranger hr hid, announced_of_stranger hr hid⟩ }

/-! ## Runs -/

/-- The group after some requests. -/
def run (g : SyncGroup) (requests : List GroupRequest) : SyncGroup :=
  requests.foldl perform g

/-- The numbers that a group hands out, one for each join. -/
def handedOut : SyncGroup → List GroupRequest → List MemberId
  | _, [] => []
  | g, .join :: rest => g.join.1 :: handedOut g.join.2 rest
  | g, r :: rest => handedOut (g.perform r) rest

theorem run_concat (g : SyncGroup) (requests : List GroupRequest) (r : GroupRequest) :
    g.run (requests ++ [r]) = (g.run requests).perform r :=
  List.foldl_concat ..

theorem Outcome.nextId (houtcome : Outcome g r new h) :
    h.nextId = g.nextId + if r = .join then 1 else 0 := by
  cases houtcome with
  | void hr => rw [if_neg hr, Nat.add_zero]
  | _ => rfl

theorem perform_nextId (g : SyncGroup) (r : GroupRequest) :
    (g.perform r).nextId = g.nextId + if r = .join then 1 else 0 := by
  obtain ⟨h, houtcome, hperform⟩ := outcome g r
  rw [hperform g.events]
  exact houtcome.nextId

theorem handedOut_eq (g : SyncGroup) (requests : List GroupRequest) :
    handedOut g requests = List.range' g.nextId (requests.count .join) := by
  induction requests generalizing g with
  | nil => rfl
  | cons r rest ih =>
      have hnext := perform_nextId g r
      cases r with
      | join => rw [List.count_cons_self, List.range'_succ, handedOut, ih]; rfl
      | _ =>
          rw [List.count_cons_of_ne (by nofun), handedOut, ih, hnext]
          · rfl
          · nofun

theorem run_nextId (g : SyncGroup) (requests : List GroupRequest) :
    (g.run requests).nextId = g.nextId + requests.count .join := by
  induction requests using List.reverseRecOn with
  | nil => rfl
  | append_singleton requests r ih =>
      rw [run_concat, perform_nextId, ih, List.count_append, Nat.add_assoc]
      cases r <;> rfl

theorem Sound.run (hg : g.Sound) (requests : List GroupRequest) : (g.run requests).Sound := by
  induction requests using List.reverseRecOn with
  | nil => exact hg
  | append_singleton requests r ih =>
      rw [run_concat]
      exact ih.perform r

theorem leave_get?_self (g : SyncGroup) (id : MemberId) : (g.leave id).members.get? id = none := by
  unfold leave
  cases hget : g.members.get? id with
  | none => exact hget
  | some ranges =>
      dsimp only
      split <;> exact OrderedMap.get?_erase_self

/-- What a request does to the members. -/
theorem get?_perform (g : SyncGroup) (r : GroupRequest) (id : MemberId) :
    (g.perform r).members.get? id = match r with
      | .join => if g.nextId = id then some [] else g.members.get? id
      | .leave owner => if owner = id then none else g.members.get? id
      | .publish owner ranges =>
        (g.members.get? id).map fun known => if owner = id then ranges else known
      | .setCursor .. => g.members.get? id := by
  cases r with
  | join =>
      dsimp only
      split
      · next hid =>
          subst hid
          exact join_get?_self g
      · next hid => exact OrderedMap.get?_insert_of_ne (Ne.symm hid)
  | leave owner =>
      dsimp only
      split
      · next hid =>
          subst hid
          exact leave_get?_self g owner
      · next hid => exact leave_get?_of_ne g (Ne.symm hid)
  | publish owner ranges =>
      rcases eq_or_ne owner id with rfl | hid
      · cases hget : g.members.get? owner with
        | none =>
            rw [perform_of_stranger rfl (by simp [OrderedMap.contains, hget]), hget]
            rfl
        | some known =>
            dsimp only
            rw [Option.map_some, if_pos rfl]
            exact publish_get?_self hget ranges
      · simp only [hid, if_false, Option.map_id']
        exact publish_get?_of_ne g hid.symm
  | setCursor owner addr => exact congrArg (·.get? id) (setCursor_members g owner addr)

/-- The members are those who have joined and not left, with what they have published last. -/
theorem get?_run (id : MemberId) (requests : List GroupRequest) :
    (run {} requests).members.get? id = recorded? id requests := by
  induction requests using List.reverseRecOn with
  | nil => rfl
  | append_singleton requests r ih =>
      rw [run_concat, recorded?_concat, get?_perform, ih, run_nextId]
      simp only [Nat.zero_add]

theorem run_entries (requests : List GroupRequest) :
    (run {} requests).members.entries = (List.range (requests.count .join)).filterMap
      fun id => (recorded? id requests).map fun ranges => (id, ranges) := by
  refine OrderedMap.eq_of_mem_iff (OrderedMap.ascending _) ?_ ?_
  · refine List.pairwise_filterMap.2 (List.pairwise_lt_range.imp fun hlt e he f hf => ?_)
    obtain ⟨-, -, rfl⟩ := Option.map_eq_some_iff.1 he
    obtain ⟨-, -, rfl⟩ := Option.map_eq_some_iff.1 hf
    exact hlt
  · rintro ⟨id, ranges⟩
    rw [← OrderedMap.get?_eq_some_iff, get?_run, List.mem_filterMap]
    simp only [List.mem_range, Option.map_eq_some_iff, Prod.mk.injEq]
    constructor
    · intro h
      exact ⟨id, lt_of_recorded? h, ranges, h, rfl, rfl⟩
    · rintro ⟨_, -, _, h, rfl, rfl⟩
      exact h

theorem run_rangesExcept (requests : List GroupRequest) (me : MemberId) :
    (run {} requests).rangesExcept me =
      ((List.range (requests.count .join)).filter (· ≠ me)).flatMap fun id =>
        (recorded? id requests).getD [] := by
  unfold rangesExcept
  rw [run_entries]
  generalize List.range _ = ids
  simp only [ne_eq, decide_not]
  induction ids with
  | nil => rfl
  | cons id rest ih =>
      rw [List.filter_cons]
      cases hid : recorded? id requests with
      | none =>
          rw [List.filterMap_cons_none (by rw [hid]; rfl), ih]
          split <;> simp [hid]
      | some ranges =>
          rw [List.filterMap_cons_some (by rw [hid]; rfl), List.filter_cons]
          split
          · rw [List.flatMap_cons, List.flatMap_cons, ih, hid, Option.getD_some]
          · exact ih

/-- A cursor belongs to a member. -/
def Owned (g : SyncGroup) : Prop :=
  ∀ owner addr, g.cursor = some (owner, addr) → g.members.contains owner = true

/-- The cursor of whoever leaves is forgotten. -/
theorem Outcome.owned (houtcome : Outcome g r new h) (hg : g.Owned) : h.Owned := by
  intro owner addr hcursor
  cases houtcome with
  | joined => exact OrderedMap.contains_insert_of_contains (hg owner addr hcursor)
  | @left id =>
      obtain ⟨hcursor, hne⟩ := Option.filter_eq_some_iff.1 hcursor
      rw [OrderedMap.contains_erase_of_ne (by simpa using hne)]
      exact hg owner addr hcursor
  | published => exact OrderedMap.contains_insert_of_contains (hg owner addr hcursor)
  | moved howner =>
      obtain ⟨rfl, -⟩ := Prod.mk.inj (Option.some.inj hcursor)
      exact howner
  | void => exact hg owner addr hcursor

theorem Owned.run (hg : g.Owned) (requests : List GroupRequest) : (g.run requests).Owned := by
  induction requests using List.reverseRecOn with
  | nil => exact hg
  | append_singleton requests r ih =>
      rw [run_concat]
      obtain ⟨h, houtcome, hperform⟩ := outcome (g.run requests) r
      rw [hperform (g.run requests).events]
      exact houtcome.owned ih

/-- What a group has on record is what the requests say. -/
structure OnRecord (g : SyncGroup) (requests : List GroupRequest) : Prop where
  cursor : g.Owned
  members : ∀ id, g.members.get? id = recorded? id requests
  ranges : ∀ me, g.rangesExcept me =
    ((List.range (requests.count .join)).filter (· ≠ me)).flatMap fun id =>
      (recorded? id requests).getD []

/-- However a group is used, no number is handed out twice, the record is right, and the next
request will announce what it changes.  The numbers are below the number of joins, so a counter of
32 bits is enough for fewer than 2 ^ 32 of them. -/
theorem run_announces (requests : List GroupRequest) :
    (handedOut {} requests).Nodup ∧
      (∀ id ∈ handedOut {} requests, id < requests.count .join) ∧
      (run {} requests).OnRecord requests ∧
      ∀ r, (run {} requests).Announces r := by
  rw [handedOut_eq]
  refine ⟨List.nodup_range', fun id hid => ?_, ⟨?_, fun id => get?_run id requests,
    run_rangesExcept requests⟩, (sound_default.run requests).announces⟩
  · simpa using hid
  · exact Owned.run (g := {}) nofun requests

end SyncGroup

end HexEditor
