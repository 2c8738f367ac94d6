import HexEditor.Proofs.Broadcast
import HexEditor.Proofs.OrderedMap
import HexEditor.Sync.Group

/-!
# What a group tells its members

A member remembers two things about the others: how many members there are, and which ranges
they have published.  `Tells` says that it may do so: if either has changed, its mail has the
event that asks to look again.  Every request to a group tells all others, and since mail only
grows, so does any sequence of requests.
-/

namespace HexEditor

namespace OrderedMap

variable {β : Type} {m : OrderedMap β} {key : Nat} {value : β}

theorem size_of_get? (h : m.get? key = some value) :
    m.size = (m.entries.filter fun e => e.1 ≠ key).length + 1 := by
  have hone : (m.entries.filter fun e => e.1 = key) = [(key, value)] := by
    refine eq_of_mem_iff (m.ascending.filter _) (by simp) fun e => ?_
    rw [List.mem_filter, List.mem_singleton, decide_eq_true_eq]
    constructor
    · rintro ⟨he, hkey⟩
      exact eq_of_key_eq he (get?_eq_some_iff.1 h) hkey
    · rintro rfl
      exact ⟨get?_eq_some_iff.1 h, rfl⟩
  have hsplit := List.length_eq_length_filter_add (l := m.entries) fun e => decide (e.1 = key)
  rw [hone] at hsplit
  rw [size, hsplit, Nat.add_comm, List.length_singleton]
  congr 2
  exact List.filter_congr fun e _ => by simp

/-- Replacing a value keeps the number of entries. -/
theorem size_insert_of_get? {other : β} (h : m.get? key = some value) :
    (m.insert key other).size = m.size := by
  have hnew : (m.insert key other).get? key = some other := get?_insert_self
  rw [size_of_get? h, size_of_get? hnew, entries_insert_filter_ne]

end OrderedMap

namespace SyncGroup

variable {g h k : SyncGroup} {me owner : MemberId} {inbox : SubscriberId}

/-- Whoever joins next, or subscribes next, gets a number that nobody has. -/
structure Sound (g : SyncGroup) : Prop where
  member_lt : ∀ e ∈ g.members.entries, e.1 < g.nextId
  fresh : g.events.Fresh

/-- Between `g` and `h` the mail of `inbox` has told `me` of what has changed for it. -/
def Tells (me : MemberId) (inbox : SubscriberId) (g h : SyncGroup) : Prop :=
  ∃ new, g.events.Delivers inbox new h.events ∧
    (.membersChanged ∈ new ∨ h.memberCount = g.memberCount) ∧
    ((∃ owner ≠ me, .regionsChanged owner ∈ new) ∨ h.rangesExcept me = g.rangesExcept me)

theorem sound_default : Sound {} :=
  ⟨fun _ he => absurd he List.not_mem_nil, Broadcast.fresh_default⟩

theorem Sound.member_lt_of_get? (hg : g.Sound) {ranges : List AddrRange}
    (h : g.members.get? owner = some ranges) : owner < g.nextId :=
  hg.member_lt _ (OrderedMap.get?_eq_some_iff.1 h)

namespace Tells

theorem refl (me : MemberId) (inbox : SubscriberId) (g : SyncGroup) : Tells me inbox g g :=
  ⟨[], .refl _ _, .inr rfl, .inr rfl⟩

theorem trans (hgh : Tells me inbox g h) (hhk : Tells me inbox h k) : Tells me inbox g k := by
  obtain ⟨new, hnew, hcount, hranges⟩ := hgh
  obtain ⟨more, hmore, hcount', hranges'⟩ := hhk
  refine ⟨new ++ more, hnew.trans hmore, ?_, ?_⟩
  · rw [List.mem_append]
    rcases hcount with hmem | hcount
    · exact .inl (.inl hmem)
    · exact hcount'.imp .inr (·.trans hcount)
  · simp only [List.mem_append]
    rcases hranges with ⟨owner, hne, hmem⟩ | hranges
    · exact .inl ⟨owner, hne, .inl hmem⟩
    · refine hranges'.imp ?_ (·.trans hranges)
      rintro ⟨owner, hne, hmem⟩
      exact ⟨owner, hne, .inr hmem⟩

/-- What only touches the mail of others has nothing to tell. -/
theorem of_events {events : Broadcast SyncEvent} (h : g.events.Delivers inbox [] events) :
    Tells me inbox g { g with events } := ⟨[], h, .inr rfl, .inr rfl⟩

end Tells

theorem Sound.announce (hg : g.Sound) (event : SyncEvent) : (g.announce event).Sound :=
  ⟨hg.member_lt, hg.fresh.announce event⟩

/-! ## Joining -/

theorem join_entries (hg : g.Sound) :
    g.join.2.members.entries = g.members.entries ++ [(g.nextId, [])] := by
  have hinsert : OrderedMap.insertEntry g.nextId [] (g.members.entries ++ []) =
      g.members.entries ++ [(g.nextId, [])] :=
    OrderedMap.insertEntry_append hg.member_lt (by simp)
  rwa [List.append_nil] at hinsert

theorem join_rangesExcept (hg : g.Sound) (me : MemberId) :
    g.join.2.rangesExcept me = g.rangesExcept me := by
  unfold rangesExcept
  rw [join_entries hg, List.filter_append, List.flatMap_append]
  by_cases hme : g.nextId = me <;> simp [hme]

theorem join_tells (hg : g.Sound) (me : MemberId) (inbox : SubscriberId) :
    Tells me inbox g g.join.2 :=
  ⟨[.membersChanged], Broadcast.announce_delivers _ _ _, .inl (by simp),
    .inr (join_rangesExcept hg me)⟩

theorem Sound.join (hg : g.Sound) : g.join.2.Sound := by
  refine ⟨fun e he => ?_, hg.fresh.announce _⟩
  rw [join_entries hg] at he
  rcases List.mem_append.1 he with he | he
  · exact Nat.lt_succ_of_lt (hg.member_lt e he)
  · rw [List.mem_singleton.1 he]
    exact Nat.lt_succ_self _

theorem join_memberCount (hg : g.Sound) : g.join.2.memberCount = g.memberCount + 1 := by
  unfold memberCount OrderedMap.size
  rw [join_entries hg, List.length_append, List.length_singleton]

theorem join_get?_self (g : SyncGroup) : g.join.2.members.get? g.nextId = some [] :=
  OrderedMap.get?_insert_self

/-! ## Leaving -/

theorem flatMap_filter_ne {es : List (Nat × List AddrRange)} (me : MemberId)
    (h : ∀ e ∈ es, e.1 = owner → e.2 = []) :
    ((es.filter fun e => e.1 != owner).filter (·.1 ≠ me)).flatMap (·.2) =
      (es.filter (·.1 ≠ me)).flatMap (·.2) := by
  induction es with
  | nil => rfl
  | cons e rest ih =>
      obtain ⟨hhead, hrest⟩ := List.forall_mem_cons.1 h
      specialize ih hrest
      by_cases hkey : e.1 = owner
      · rw [List.filter_cons_of_neg (by simpa using hkey), ih, List.filter_cons]
        split
        · rw [List.flatMap_cons, hhead hkey, List.nil_append]
        · rfl
      · rw [List.filter_cons_of_pos (by simpa using hkey), List.filter_cons, List.filter_cons]
        split
        · rw [List.flatMap_cons, List.flatMap_cons, ih]
        · exact ih

/-- A member without ranges can go without a trace in the ranges of the others. -/
theorem rangesExcept_erase (hg : g.members.get? owner = some []) (me : MemberId) :
    rangesExcept { g with members := g.members.erase owner } me = g.rangesExcept me := by
  have hgone : ∀ e ∈ g.members.entries, e.1 = owner → e.2 = [] := by
    rintro ⟨key, ranges⟩ he hkey
    have heq := OrderedMap.eq_of_key_eq he (OrderedMap.get?_eq_some_iff.1 hg) hkey
    exact congrArg Prod.snd heq
  exact flatMap_filter_ne me hgone

theorem leave_tells (g : SyncGroup) {id : MemberId} (hne : id ≠ me) (inbox : SubscriberId) :
    Tells me inbox g (g.leave id) := by
  unfold leave
  cases hget : g.members.get? id with
  | none => exact .refl _ _ _
  | some ranges =>
      dsimp only
      split
      · next hempty =>
          rw [List.isEmpty_iff] at hempty
          subst hempty
          exact ⟨[.membersChanged], Broadcast.announce_delivers _ _ _, .inl (by simp),
            .inr (rangesExcept_erase hget me)⟩
      · exact ⟨[.membersChanged, .regionsChanged id],
          (Broadcast.announce_delivers _ _ _).trans (Broadcast.announce_delivers _ _ _),
          .inl (by simp), .inl ⟨id, hne, by simp⟩⟩

theorem Sound.leave (hg : g.Sound) (id : MemberId) : (g.leave id).Sound := by
  unfold SyncGroup.leave
  cases g.members.get? id with
  | none => exact hg
  | some ranges =>
      have hleft : Sound ({ g with
          members := g.members.erase id
          cursor := g.cursor.filter (·.1 ≠ id) }.announce .membersChanged) :=
        ⟨fun e he => hg.member_lt e (OrderedMap.mem_entries_erase.1 he).1, hg.fresh.announce _⟩
      dsimp only
      split
      · exact hleft
      · exact hleft.announce _

theorem leave_get?_of_ne (g : SyncGroup) {id : MemberId} (hne : me ≠ id) :
    (g.leave id).members.get? me = g.members.get? me := by
  unfold leave
  cases g.members.get? id with
  | none => rfl
  | some ranges =>
      dsimp only
      split <;> exact OrderedMap.get?_erase_of_ne hne

theorem leave_memberCount {id : MemberId} {ranges : List AddrRange}
    (hget : g.members.get? id = some ranges) : (g.leave id).memberCount + 1 = g.memberCount := by
  have hsize : (g.members.erase id).size + 1 = g.members.size := by
    rw [OrderedMap.size_of_get? hget, OrderedMap.size, OrderedMap.erase]
    congr 2
    exact List.filter_congr fun e _ => by simp [bne, beq_eq_decide]
  unfold leave
  rw [hget]
  dsimp only
  split <;> exact hsize

/-! ## Publishing -/

theorem publish_rangesExcept_self (g : SyncGroup) (me : MemberId) (ranges : List AddrRange) :
    (g.publish me ranges).rangesExcept me = g.rangesExcept me := by
  unfold publish
  split
  · rfl
  · split
    · rfl
    · exact congrArg (List.flatMap Prod.snd) (OrderedMap.entries_insert_filter_ne _ _ _)

theorem publish_memberCount (g : SyncGroup) (owner : MemberId) (ranges : List AddrRange) :
    (g.publish owner ranges).memberCount = g.memberCount := by
  unfold publish
  split
  · rfl
  · next hget =>
      split
      · rfl
      · exact OrderedMap.size_insert_of_get? hget

/-- A member need not be told of what it publishes itself, but the others are. -/
theorem publish_tells (g : SyncGroup) (owner : MemberId) (ranges : List AddrRange)
    (me : MemberId) (inbox : SubscriberId) : Tells me inbox g (g.publish owner ranges) := by
  have hcount := publish_memberCount g owner ranges
  have hself := publish_rangesExcept_self g owner ranges
  unfold publish at hcount hself ⊢
  split
  · exact .refl _ _ _
  · split
    · exact .refl _ _ _
    · refine ⟨[.regionsChanged owner], Broadcast.announce_delivers _ _ _, .inr ?_, ?_⟩
      · simpa [*] using hcount
      · by_cases hme : owner = me
        · subst hme
          exact .inr (by simpa [*] using hself)
        · exact .inl ⟨owner, hme, by simp⟩

theorem Sound.publish (hg : g.Sound) (owner : MemberId) (ranges : List AddrRange) :
    (g.publish owner ranges).Sound := by
  unfold SyncGroup.publish
  split
  · exact hg
  · next hget =>
      split
      · exact hg
      · refine ⟨fun e he => ?_, hg.fresh.announce _⟩
        rcases OrderedMap.mem_entries_insert.1 he with rfl | ⟨he, -⟩
        · exact hg.member_lt_of_get? hget
        · exact hg.member_lt e he

theorem publish_get?_of_ne (g : SyncGroup) {ranges : List AddrRange} (hne : me ≠ owner) :
    (g.publish owner ranges).members.get? me = g.members.get? me := by
  unfold publish
  split
  · rfl
  · split
    · rfl
    · exact OrderedMap.get?_insert_of_ne hne

/-- What a member has published is its record. -/
theorem publish_get?_self {known : List AddrRange} (hget : g.members.get? owner = some known)
    (ranges : List AddrRange) : (g.publish owner ranges).members.get? owner = some ranges := by
  unfold publish
  rw [hget]
  dsimp only
  split
  · next heq => rw [hget, heq]
  · exact OrderedMap.get?_insert_self

/-! ## Moving the cursor -/

theorem setCursor_members (g : SyncGroup) (owner : MemberId) (addr : Nat) :
    (g.setCursor owner addr).members = g.members := by
  unfold setCursor
  split <;> rfl

theorem setCursor_tells (g : SyncGroup) (owner : MemberId) (addr : Nat) (me : MemberId)
    (inbox : SubscriberId) : Tells me inbox g (g.setCursor owner addr) := by
  unfold setCursor
  split
  · exact .refl _ _ _
  · exact ⟨[.cursorMoved owner addr], Broadcast.announce_delivers _ _ _, .inr rfl, .inr rfl⟩

theorem Sound.setCursor (hg : g.Sound) (owner : MemberId) (addr : Nat) :
    (g.setCursor owner addr).Sound := by
  unfold SyncGroup.setCursor
  split
  · exact hg
  · exact ⟨hg.member_lt, hg.fresh.announce _⟩

/-- The group after a member has moved its cursor some times. -/
def setCursors (g : SyncGroup) (owner : MemberId) (cursors : List Nat) : SyncGroup :=
  cursors.foldl (fun g addr => g.setCursor owner addr) g

theorem setCursors_append (g : SyncGroup) (owner : MemberId) (first next : List Nat) :
    g.setCursors owner (first ++ next) = (g.setCursors owner first).setCursors owner next :=
  List.foldl_append

theorem exists_setCursors_trans {g h k : SyncGroup} {owner : MemberId}
    (hgh : ∃ cursors, h = g.setCursors owner cursors)
    (hhk : ∃ cursors, k = h.setCursors owner cursors) :
    ∃ cursors, k = g.setCursors owner cursors := by
  obtain ⟨first, rfl⟩ := hgh
  obtain ⟨next, rfl⟩ := hhk
  exact ⟨first ++ next, (setCursors_append g owner first next).symm⟩

/-- However often a cursor moves, only cursor moves are announced. -/
theorem setCursors_spec (g : SyncGroup) (owner : MemberId) (cursors : List Nat) :
    (g.Sound → (g.setCursors owner cursors).Sound) ∧
      (g.setCursors owner cursors).members = g.members ∧
      ∀ me inbox, Tells me inbox g (g.setCursors owner cursors) := by
  induction cursors generalizing g with
  | nil => exact ⟨id, rfl, fun me inbox => .refl me inbox g⟩
  | cons addr rest ih =>
      obtain ⟨hsound, hmembers, htells⟩ := ih (g.setCursor owner addr)
      exact ⟨fun hg => hsound (hg.setCursor owner addr),
        hmembers.trans (setCursor_members g owner addr),
        fun me inbox => (setCursor_tells g owner addr me inbox).trans (htells me inbox)⟩

/-! ## Any request -/

variable {r : GroupRequest}

theorem perform_tells (hg : g.Sound) (h : r.member? ≠ some me) (inbox : SubscriberId) :
    Tells me inbox g (g.perform r) := by
  cases r with
  | join => exact join_tells hg me inbox
  | leave id => exact leave_tells g (fun heq => h (congrArg some heq)) inbox
  | publish owner ranges => exact publish_tells g owner ranges me inbox
  | setCursor owner addr => exact setCursor_tells g owner addr me inbox

theorem Sound.perform (hg : g.Sound) (r : GroupRequest) : (g.perform r).Sound := by
  cases r with
  | join => exact hg.join
  | leave id => exact hg.leave id
  | publish owner ranges => exact hg.publish owner ranges
  | setCursor owner addr => exact hg.setCursor owner addr

/-- Nobody else touches a member's record. -/
theorem perform_get? (hg : g.Sound) (h : r.member? ≠ some me) {ranges : List AddrRange}
    (hget : g.members.get? me = some ranges) :
    (g.perform r).members.get? me = some ranges := by
  cases r with
  | join =>
      have hne : me ≠ g.nextId := (hg.member_lt_of_get? hget).ne
      exact (OrderedMap.get?_insert_of_ne hne).trans hget
  | leave id =>
      exact (leave_get?_of_ne g fun heq => h (congrArg some heq.symm)).trans hget
  | publish owner ranges =>
      exact (publish_get?_of_ne g fun heq => h (congrArg some heq.symm)).trans hget
  | setCursor owner addr => exact (congrArg (·.get? me) (setCursor_members g owner addr)).trans hget

end SyncGroup

end HexEditor
