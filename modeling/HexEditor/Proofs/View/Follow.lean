import HexEditor.Proofs.View.Pump

/-!
# Where a member is asked to go

A view goes to the last place to which another member has moved its cursor.  While one member
moves and the others follow, every mailbox asks its owner to go to where that member is
(`Points`): a move of the leading member is announced to all others, and what they announce when
they follow it is the same place.  Only the mail of the leading member itself may lag behind, since
nobody hears of its own moves; there waits what the others have announced before its last move.
-/

namespace HexEditor

namespace Desk

variable {me : MemberId}

theorem followTarget?_append (me : MemberId) (events more : List SyncEvent) :
    followTarget? me (events ++ more) = (followTarget? me more).or (followTarget? me events) := by
  unfold followTarget?
  rw [List.filterMap_append, List.getLast?_append]

theorem followTarget?_moved (me owner : MemberId) (addr : Nat) :
    followTarget? me [.cursorMoved owner addr] = if owner = me then none else some addr := by
  unfold followTarget?
  by_cases h : owner = me <;> simp [h]

end Desk

namespace SyncGroup

variable {g h : SyncGroup} {x y i : Nat} {me owner : MemberId} {inbox : SubscriberId}
  {new : List SyncEvent}

/-- Where the mail of a member asks it to go. -/
def target? (g : SyncGroup) (me : MemberId) (inbox : SubscriberId) : Option Nat :=
  Desk.followTarget? me (g.events.waiting inbox)

/-- The last cursor is at `x`. -/
def At (x : Nat) (g : SyncGroup) : Prop := ∀ owner addr, g.cursor = some (owner, addr) → addr = x

/-- The member hears the group, and if its mail asks it to go anywhere, then to `x`. -/
structure Points (x : Nat) (me : MemberId) (inbox : SubscriberId) (g : SyncGroup) : Prop where
  hears : g.events.Hears inbox
  eq : ∀ addr, g.target? me inbox = some addr → addr = x

/-- New mail counts before the old. -/
theorem target?_of_delivers (me : MemberId) (hhears : g.events.Hears inbox)
    (hnew : g.events.Delivers inbox new h.events) : h.events.Hears inbox ∧
      h.target? me inbox = (Desk.followTarget? me new).or (g.target? me inbox) := by
  obtain ⟨hhears', hmail⟩ := hnew hhears
  refine ⟨hhears', ?_⟩
  unfold target?
  rw [hmail, Desk.followTarget?_append]

theorem Points.of_delivers (hpoints : Points x me inbox g)
    (hnew : g.events.Delivers inbox new h.events)
    (heq : ∀ addr, Desk.followTarget? me new = some addr → addr = x) : Points x me inbox h := by
  obtain ⟨hhears, htarget⟩ := target?_of_delivers me hpoints.hears hnew
  refine ⟨hhears, ?_⟩
  intro addr haddr
  rw [htarget] at haddr
  rcases Option.or_eq_some_iff.1 haddr with haddr | ⟨-, haddr⟩
  · exact heq addr haddr
  · exact hpoints.eq addr haddr

theorem target?_of_announce {event : SyncEvent} (me : MemberId) (hhears : g.events.Hears inbox)
    (hevents : h.events = g.events.announce event) : h.events.Hears inbox ∧
      h.target? me inbox = (Desk.followTarget? me [event]).or (g.target? me inbox) :=
  target?_of_delivers me hhears (hevents ▸ Broadcast.announce_delivers inbox _ event)

theorem Points.of_announce {event : SyncEvent} (hpoints : Points x me inbox g)
    (hevents : h.events = g.events.announce event)
    (heq : ∀ addr, Desk.followTarget? me [event] = some addr → addr = x) : Points x me inbox h :=
  hpoints.of_delivers (hevents ▸ Broadcast.announce_delivers inbox _ event) heq

/-! ## What others do -/

theorem Points.collect (hpoints : Points x me inbox g) (i : SubscriberId) :
    Points x me inbox { g with events := (g.events.collect i).2 } := by
  by_cases hi : i = inbox
  · subst hi
    obtain ⟨hhears, hmail⟩ := hpoints.hears.collect_self
    refine ⟨hhears, ?_⟩
    intro addr haddr
    unfold target? at haddr
    rw [hmail] at haddr
    cases haddr
  · exact hpoints.of_delivers (Broadcast.collect_delivers _ hi) (by simp [Desk.followTarget?])

theorem Points.subscribe (hpoints : Points x me inbox g) : Points x me inbox g.subscribe.2 :=
  hpoints.of_delivers (Broadcast.subscribe_delivers inbox _) (by simp [Desk.followTarget?])

/-- A new subscriber has no mail that asks it to go anywhere. -/
theorem target?_subscribe_self (hfresh : g.events.Fresh) (me : MemberId) :
    g.subscribe.2.events.Hears g.events.nextId ∧
      g.subscribe.2.target? me g.events.nextId = none := by
  obtain ⟨hhears, hmail⟩ := hfresh.subscribe_self
  refine ⟨hhears, ?_⟩
  change Desk.followTarget? me (g.events.subscribe.2.waiting g.events.nextId) = none
  rw [hmail]
  rfl

theorem Points.join (hpoints : Points x me inbox g) : Points x me inbox g.join.2 :=
  hpoints.of_announce rfl (by simp [Desk.followTarget?])

/-- Nobody is asked to go anywhere by what others have selected. -/
theorem target?_publish (me owner : MemberId) (hhears : g.events.Hears inbox)
    (ranges : List AddrRange) : (g.publish owner ranges).events.Hears inbox ∧
      (g.publish owner ranges).target? me inbox = g.target? me inbox := by
  unfold publish
  split
  · exact ⟨hhears, rfl⟩
  · split
    · exact ⟨hhears, rfl⟩
    · exact target?_of_announce me
        (h := { g with members := g.members.insert owner ranges }.announce (.regionsChanged owner))
        hhears rfl

theorem Points.publish (hpoints : Points x me inbox g) (owner : MemberId)
    (ranges : List AddrRange) : Points x me inbox (g.publish owner ranges) := by
  obtain ⟨hhears, htarget⟩ := target?_publish me owner hpoints.hears ranges
  refine ⟨hhears, ?_⟩
  rw [htarget]
  exact hpoints.eq

theorem At.publish (hat : At x g) (owner : MemberId) (ranges : List AddrRange) :
    At x (g.publish owner ranges) := by
  unfold SyncGroup.publish
  split
  · exact hat
  · split
    · exact hat
    · exact hat

/-- Whoever goes to `x` does not ask anybody to go elsewhere. -/
theorem Points.stay (hpoints : Points x me inbox g) (owner : MemberId) :
    Points x me inbox (g.setCursor owner x) := by
  unfold SyncGroup.setCursor
  split
  · exact hpoints
  · refine hpoints.of_announce rfl ?_
    intro addr haddr
    rw [Desk.followTarget?_moved] at haddr
    split at haddr
    · cases haddr
    · exact (Option.some.inj haddr).symm

theorem At.stay (hat : At x g) (owner : MemberId) : At x (g.setCursor owner x) := by
  unfold SyncGroup.setCursor
  split
  · exact hat
  · rintro _ _ ⟨⟩
    rfl

/-! ## What a member does itself -/

/-- A member is not asked to go where it has gone itself. -/
theorem target?_setCursor_self (hhears : g.events.Hears inbox) (addr : Nat) :
    (g.setCursor me addr).events.Hears inbox ∧
      (g.setCursor me addr).target? me inbox = g.target? me inbox := by
  unfold setCursor
  split
  · exact ⟨hhears, rfl⟩
  · obtain ⟨hhears', htarget⟩ := target?_of_announce me
      (h := { g with cursor := some (me, addr) }.announce (.cursorMoved me addr)) hhears rfl
    rw [Desk.followTarget?_moved, if_pos rfl, Option.none_or] at htarget
    exact ⟨hhears', htarget⟩

theorem target?_setCursors_self (hhears : g.events.Hears inbox) (cursors : List Nat) :
    (g.setCursors me cursors).events.Hears inbox ∧
      (g.setCursors me cursors).target? me inbox = g.target? me inbox := by
  induction cursors generalizing g with
  | nil => exact ⟨hhears, rfl⟩
  | cons addr rest ih =>
      obtain ⟨hfirst, htarget⟩ := target?_setCursor_self hhears addr
      obtain ⟨hrest, htarget'⟩ := ih hfirst
      exact ⟨hrest, htarget'.trans htarget⟩

/-! ## What the leading member does -/

theorem At.move (hat : At x g) (hmember : g.members.contains owner = true) (y : Nat) :
    At y (g.setCursor owner y) := by
  unfold setCursor
  rw [hmember]
  split
  · next hsame =>
      have hcursor : g.cursor = some (owner, y) := by simpa using hsame
      obtain rfl := hat owner y hcursor
      exact hat
  · rintro _ _ ⟨⟩
    rfl

/-- All others are asked to go where a member has gone. -/
theorem Points.move (hpoints : Points x me inbox g) (hat : At x g) (hne : owner ≠ me)
    (hmember : g.members.contains owner = true) (y : Nat) :
    Points y me inbox (g.setCursor owner y) := by
  unfold setCursor
  rw [hmember]
  split
  · next hsame =>
      -- nothing is announced, so the member was at `y` already
      have hcursor : g.cursor = some (owner, y) := by simpa using hsame
      obtain rfl := hat owner y hcursor
      exact hpoints
  · obtain ⟨hhears, htarget⟩ := target?_of_announce me
      (h := { g with cursor := some (owner, y) }.announce (.cursorMoved owner y)) hpoints.hears rfl
    rw [Desk.followTarget?_moved, if_neg hne, Option.some_or] at htarget
    refine ⟨hhears, ?_⟩
    intro addr haddr
    rw [htarget] at haddr
    exact (Option.some.inj haddr).symm

theorem At.moves (hat : At x g) (hmember : g.members.contains owner = true)
    (cursors : List Nat) : At (cursors.getLast?.getD x) (g.setCursors owner cursors) := by
  induction cursors generalizing g x with
  | nil => exact hat
  | cons addr rest ih =>
      rw [List.getLast?_cons, Option.getD_some]
      refine ih (hat.move hmember addr) ?_
      rwa [setCursor_members]

theorem Points.moves (hpoints : Points x me inbox g) (hat : At x g) (hne : owner ≠ me)
    (hmember : g.members.contains owner = true) (cursors : List Nat) :
    Points (cursors.getLast?.getD x) me inbox (g.setCursors owner cursors) := by
  induction cursors generalizing g x with
  | nil => exact hpoints
  | cons addr rest ih =>
      rw [List.getLast?_cons, Option.getD_some]
      refine ih (hpoints.move hat hne hmember addr) (hat.move hmember addr) ?_
      rwa [setCursor_members]

end SyncGroup

/-- The view selects nothing, and has published nothing. -/
structure View.Idle (v : View) : Prop where
  anchor : v.grid.cursor.anchor = none
  published : v.published = none

namespace Desk

variable {d : Desk} {x : Nat} {me : MemberId} {inbox : SubscriberId}

/-- A view is not asked to go anywhere by its own moves. -/
theorem target?_of_setCursors {e : Desk} (hhears : d.group.events.Hears d.view.syncInbox)
    (hmember : e.view.member = d.view.member) (hinbox : e.view.syncInbox = d.view.syncInbox)
    {cursors : List Nat} (hgroup : e.group = d.group.setCursors d.view.member cursors) :
    e.target? = d.target? := by
  show e.group.target? e.view.member e.view.syncInbox = _
  rw [hmember, hinbox, hgroup]
  exact (SyncGroup.target?_setCursors_self hhears cursors).2

/-! ## Following -/

theorem followed_of_eq (d : Desk) : d.followed d.view.grid.cursor.addr = d := by
  unfold followed
  simp

theorem followed_addr {addr : Nat} (hfollow : d.view.follow = true)
    (hne : addr ≠ d.view.grid.cursor.addr) (hin : d.view.grid.cursor.inBounds addr = true) :
    (d.followed addr).view.grid.cursor.addr = addr := by
  have hgo : ¬ (!d.view.follow || decide (addr = d.view.grid.cursor.addr)) = true := by
    simp [hfollow, hne]
  unfold followed
  rw [if_neg hgo]
  dsimp only
  rw [if_pos hin]
  unfold Scene.moved
  dsimp only
  split <;> rfl

theorem followed_group (d : Desk) (addr : Nat) : (d.followed addr).group = d.group ∨
    (d.followed addr).group = d.group.setCursor d.view.member addr := by
  unfold followed
  split
  · exact .inl rfl
  · dsimp only
    split
    · unfold Scene.moved
      dsimp only
      split
      · exact .inl rfl
      · exact .inr rfl
    · exact .inl rfl

theorem followed_idle (h : d.view.Idle) (addr : Nat) : (d.followed addr).view.Idle := by
  unfold followed
  split
  · exact h
  · dsimp only
    split
    · unfold Scene.moved
      dsimp only
      split <;> exact ⟨rfl, h.published⟩
    · exact ⟨rfl, h.published⟩

theorem followed_member (d : Desk) (addr : Nat) :
    (d.followed addr).view.member = d.view.member := by
  unfold followed
  split <;> rfl

/-! ## What pumping makes of the group -/

theorem publishSelection_idle (h : d.view.Idle) : d.publishSelection = d := by
  have hselection : d.view.grid.cursor.selection? = none := by
    unfold Cursor.selection?
    rw [h.anchor]
    rfl
  exact publishSelection_of_published (h.published.trans hselection.symm)

theorem publishSelection_group (d : Desk) : d.publishSelection.group = d.group ∨
    ∃ ranges, d.publishSelection.group = d.group.publish d.view.member ranges := by
  unfold publishSelection
  dsimp only
  split
  · exact .inl rfl
  · exact .inr ⟨_, rfl⟩

/-- What holds of the group after the view has collected its mail, and is kept when it goes where
it is asked to go and when it publishes, holds of the group after pumping.  An idle view does not
publish. -/
theorem pumped_group_induction {P : SyncGroup → Prop} (d : Desk)
    (hcollect : P { d.group with events := (d.group.events.collect d.view.syncInbox).2 })
    (hgo : ∀ g addr, d.target? = some addr → P g → P (g.setCursor d.view.member addr))
    (hpublish : ∀ g ranges, ¬ d.view.Idle → P g → P (g.publish d.view.member ranges)) :
    P d.pumped.group := by
  have hrenews := renews_renewed d
  have hrenewed : P d.renewed.group := by
    rw [hrenews.group]
    exact hcollect
  have hmember : d.renewed.view.member = d.view.member := hrenews.leads.member
  have hidle : d.view.Idle → d.renewed.view.Idle := by
    intro h
    refine ⟨?_, ?_⟩
    · rw [hrenews.cursor]
      exact h.anchor
    · rw [hrenews.view]
      exact h.published
  -- the last stage does nothing at all when the view is idle
  have hend : ∀ e : Desk, P e.group → e.view.member = d.view.member →
      (d.view.Idle → e.view.Idle) → P e.publishSelection.group := by
    intro e he hme hstill
    by_cases h : d.view.Idle
    · rw [publishSelection_idle (hstill h)]
      exact he
    · rcases publishSelection_group e with heq | ⟨ranges, heq⟩
      · rw [heq]
        exact he
      · rw [heq, hme]
        exact hpublish _ _ h he
  unfold pumped
  cases htarget : d.target? with
  | none => exact hend _ hrenewed hmember hidle
  | some addr =>
      rw [Option.elim_some]
      refine hend _ ?_ ((followed_member _ addr).trans hmember) fun h => followed_idle (hidle h) addr
      rcases followed_group d.renewed addr with heq | heq
      · rw [heq]
        exact hrenewed
      · rw [heq, hmember]
        exact hgo _ addr htarget hrenewed

/-- Whoever is asked to go to `x` and goes there does not ask others to go elsewhere. -/
theorem points_pumped (h : d.group.Points x me inbox)
    (htarget : ∀ addr, d.target? = some addr → addr = x) : d.pumped.group.Points x me inbox := by
  refine pumped_group_induction d (h.collect _) ?_ ?_
  · intro g addr haddr hg
    obtain rfl := htarget addr haddr
    exact hg.stay _
  · exact fun g ranges _ hg => hg.publish _ ranges

theorem at_pumped (h : d.group.At x) (htarget : ∀ addr, d.target? = some addr → addr = x) :
    d.pumped.group.At x := by
  refine pumped_group_induction d h ?_ ?_
  · intro g addr haddr hg
    obtain rfl := htarget addr haddr
    exact hg.stay _
  · exact fun g ranges _ hg => hg.publish _ ranges

/-- After pumping a view is not asked to go anywhere. -/
theorem pumped_target? (h : d.group.events.Hears d.view.syncInbox) : d.pumped.target? = none := by
  have hleads := leads_pumped d
  show d.pumped.group.target? d.pumped.view.member d.pumped.view.syncInbox = none
  rw [hleads.member, hleads.syncInbox]
  obtain ⟨hhears, hmail⟩ := h.collect_self
  have hcollected : ({ d.group with events := (d.group.events.collect d.view.syncInbox).2 } :
      SyncGroup).target? d.view.member d.view.syncInbox = none := by
    unfold SyncGroup.target?
    rw [hmail]
    rfl
  refine (pumped_group_induction (P := fun g => g.events.Hears d.view.syncInbox ∧
    g.target? d.view.member d.view.syncInbox = none) d ⟨hhears, hcollected⟩ ?_ ?_).2
  · rintro g addr - ⟨hg, htarget⟩
    obtain ⟨hg', htarget'⟩ := SyncGroup.target?_setCursor_self hg addr
    exact ⟨hg', htarget'.trans htarget⟩
  · rintro g ranges - ⟨hg, htarget⟩
    obtain ⟨hg', htarget'⟩ := SyncGroup.target?_publish _ _ hg ranges
    exact ⟨hg', htarget'.trans htarget⟩

/-- A view learns nothing of others from what it publishes itself. -/
theorem rangesExcept_pumped (d : Desk) :
    d.pumped.group.rangesExcept d.view.member = d.group.rangesExcept d.view.member := by
  refine pumped_group_induction (P := fun g => g.rangesExcept d.view.member =
    d.group.rangesExcept d.view.member) d rfl ?_ ?_
  · rintro g addr - hg
    rw [← hg]
    unfold SyncGroup.rangesExcept
    rw [SyncGroup.setCursor_members]
  · rintro g ranges - hg
    rw [← hg]
    exact SyncGroup.publish_rangesExcept_self _ _ _

/-- The records of the group are as they were after pumping an idle view. -/
theorem members_pumped (h : d.view.Idle) : d.pumped.group.members = d.group.members := by
  refine pumped_group_induction (P := fun g => g.members = d.group.members) d rfl ?_ ?_
  · rintro g addr - hg
    exact (SyncGroup.setCursor_members _ _ _).trans hg
  · exact fun g ranges hidle _ => absurd h hidle

/-! ## What pumping makes of the view -/

theorem idle_pumped (h : d.view.Idle) : d.pumped.view.Idle := by
  have hrenews := renews_renewed d
  have hidle : d.renewed.view.Idle :=
    ⟨hrenews.cursor ▸ h.anchor, by rw [hrenews.view]; exact h.published⟩
  unfold pumped
  cases d.target? with
  | none =>
      rw [Option.elim_none, publishSelection_idle hidle]
      exact hidle
  | some addr =>
      have hfollowed := followed_idle hidle addr
      rw [Option.elim_some, publishSelection_idle hfollowed]
      exact hfollowed

/-- Pumping does not touch the patches. -/
theorem project_pumped (d : Desk) :
    d.pumped.project = { d.project with patches := { d.project.patches with
      changes := (d.project.patches.changes.collect d.view.patchInbox).2 } } := by
  obtain ⟨s, -, hproject, hpumped⟩ := exists_gone d
  rw [hpumped, publishSelection_project]
  exact hproject.trans (renews_renewed d).project

/-- A view that is only asked to go where it is stays there. -/
theorem pumped_of_target (h : ∀ addr, d.target? = some addr → addr = d.view.grid.cursor.addr) :
    d.pumped = d.renewed.publishSelection := by
  unfold pumped
  cases htarget : d.target? with
  | none => rfl
  | some addr =>
      obtain rfl := h addr htarget
      rw [Option.elim_some, ← (renews_renewed d).cursor, followed_of_eq]

theorem cursor_pumped (h : ∀ addr, d.target? = some addr → addr = d.view.grid.cursor.addr) :
    d.pumped.view.grid.cursor = d.view.grid.cursor := by
  rw [pumped_of_target h, publishSelection_grid, (renews_renewed d).cursor]

/-- A view that follows goes where it is asked to go. -/
theorem addr_pumped {addr : Nat} (htarget : d.target? = some addr) (hfollow : d.view.follow = true)
    (hne : addr ≠ d.view.grid.cursor.addr) (hin : d.view.grid.cursor.inBounds addr = true) :
    d.pumped.view.grid.cursor.addr = addr := by
  have hrenews := renews_renewed d
  unfold pumped
  rw [htarget, Option.elim_some, publishSelection_grid]
  refine followed_addr ?_ ?_ ?_
  · rw [hrenews.view]
    exact hfollow
  · rw [hrenews.cursor]
    exact hne
  · rw [hrenews.cursor]
    exact hin

end Desk

end HexEditor
