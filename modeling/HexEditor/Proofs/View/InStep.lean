import HexEditor.Proofs.Grid.Heard
import HexEditor.View.Request

/-!
# What a view remembers

A view remembers four things that it shares with others: the patches, how many members its group
has, what they have selected, and what it has published itself.  It is `InStep` when each of
these is as it should be or an event that asks to renew it waits in its mailboxes.

What others do keeps a view in step, because the store and the group tell of it
(`InStep.of_tells`); keys and the pointer keep it in step as well (`InStep.of_kept`); and pumping
empties the mailboxes and leaves nothing to renew (`pumped_spec`).
-/

namespace HexEditor

namespace View

/-- The regions that a member should show for what the others have selected. -/
def foreignRegions (me : MemberId) (g : SyncGroup) : List Region :=
  (g.rangesExcept me).filterMap fun r => Region.plain? .synchronized r.addr r.size

/-- The view has a place among the subscribers of the project and the members of the group,
where its record is the selection that it has published last. -/
structure Seated (v : View) (p : Project) (g : SyncGroup) : Prop where
  ofView : v.grid.OfView
  painted : v.grid.Painted
  hearsPatches : p.patches.changes.Hears v.patchInbox
  hearsGroup : g.events.Hears v.syncInbox
  record : g.members.get? v.member = some (Desk.publishedRanges v.published)

/-- The view remembers the project and the group as they are. -/
structure Current (v : View) (p : Project) (g : SyncGroup) : Prop where
  patches : v.grid.overlay.patches = p.patchRegions
  alwaysShow : v.grid.blink.alwaysShow = decide (1 < g.memberCount)
  synchronized : v.grid.overlay.synchronized = foreignRegions v.member g

/-- Whatever the view does not remember as it is, its mail asks it to look at. -/
structure InStep (v : View) (p : Project) (g : SyncGroup) : Prop extends Seated v p g where
  patches : p.patches.changes.waiting v.patchInbox ≠ [] ∨
    v.grid.overlay.patches = p.patchRegions
  alwaysShow : .membersChanged ∈ g.events.waiting v.syncInbox ∨
    v.grid.blink.alwaysShow = decide (1 < g.memberCount)
  synchronized : (∃ owner ≠ v.member, .regionsChanged owner ∈ g.events.waiting v.syncInbox) ∨
    v.grid.overlay.synchronized = foreignRegions v.member g

variable {v w : View} {p q : Project} {g h : SyncGroup}

theorem Seated.inStep (hseated : v.Seated p g) (hcurrent : v.Current p g) : v.InStep p g :=
  ⟨hseated, .inr hcurrent.patches, .inr hcurrent.alwaysShow, .inr hcurrent.synchronized⟩

theorem Seated.contains (hseated : v.Seated p g) : g.members.contains v.member = true := by
  unfold OrderedMap.contains
  rw [hseated.record]
  rfl

/-- Another grid in the place of a view. -/
theorem Seated.of_grid (hseated : v.Seated p g) {grid : Grid} (hofView : grid.OfView)
    (hpainted : grid.Painted) : View.Seated { v with grid } p g :=
  ⟨hofView, hpainted, hseated.hearsPatches, hseated.hearsGroup, hseated.record⟩

/-! ## What others do -/

theorem patchRegions_congr (hset : q.patches.set = p.patches.set) :
    q.patchRegions = p.patchRegions := by
  unfold Project.patchRegions
  rw [hset]

/-- A view stays in step with a store and a group that tell it of every change. -/
theorem InStep.of_tells (hstep : v.InStep p g)
    (hstore : p.patches.Tells v.patchInbox q.patches) (hgroup : g.Tells v.member v.syncInbox h)
    (hrecord : h.members.get? v.member = g.members.get? v.member) : v.InStep q h := by
  obtain ⟨changes, hchanges, hset⟩ := hstore
  obtain ⟨events, hevents, hcount, hranges⟩ := hgroup
  obtain ⟨hhears, hmail⟩ := hchanges hstep.hearsPatches
  obtain ⟨hhears', hmail'⟩ := hevents hstep.hearsGroup
  refine ⟨⟨hstep.ofView, hstep.painted, hhears, hhears', hrecord.trans hstep.record⟩, ?_, ?_, ?_⟩
  · rw [hmail]
    rcases hset with hne | hset
    · exact .inl (by simp [hne])
    · rw [patchRegions_congr hset]
      exact hstep.patches.imp_left fun hne => by simp [hne]
  · rw [hmail', List.mem_append]
    rcases hcount with hmem | hcount
    · exact .inl (.inr hmem)
    · rw [hcount]
      exact hstep.alwaysShow.imp_left .inl
  · rw [hmail']
    simp only [List.mem_append]
    rcases hranges with ⟨owner, hne, hmem⟩ | hranges
    · exact .inl ⟨owner, hne, .inr hmem⟩
    · rw [foreignRegions, hranges]
      refine hstep.synchronized.imp_left ?_
      rintro ⟨owner, hne, hmem⟩
      exact ⟨owner, hne, .inl hmem⟩

end View

namespace Desk

variable {d e f : Desk} {s : Scene}

/-- The store and the group can be relied on. -/
structure Sound (d : Desk) : Prop where
  store : d.project.patches.Sound
  group : d.group.Sound

/-- From `d` to `e` nothing has happened that concerns others, except what they are told of. -/
structure Leads (d e : Desk) : Prop where
  member : e.view.member = d.view.member
  patchInbox : e.view.patchInbox = d.view.patchInbox
  syncInbox : e.view.syncInbox = d.view.syncInbox
  sound : d.Sound → e.Sound
  store : ∀ inbox ≠ d.view.patchInbox, d.project.patches.Tells inbox e.project.patches
  group : ∀ me ≠ d.view.member, ∀ inbox ≠ d.view.syncInbox, d.group.Tells me inbox e.group
  record : ∀ me ≠ d.view.member, e.group.members.get? me = d.group.members.get? me

namespace Leads

theorem refl (d : Desk) : Leads d d :=
  ⟨rfl, rfl, rfl, id, fun _ _ => .refl _ _, fun _ _ _ _ => .refl _ _ _, fun _ _ => rfl⟩

theorem trans (hde : Leads d e) (hef : Leads e f) : Leads d f where
  member := hef.member.trans hde.member
  patchInbox := hef.patchInbox.trans hde.patchInbox
  syncInbox := hef.syncInbox.trans hde.syncInbox
  sound hd := hef.sound (hde.sound hd)
  store inbox hne := (hde.store inbox hne).trans (hef.store inbox (hde.patchInbox ▸ hne))
  group me hme inbox hne := (hde.group me hme inbox hne).trans
    (hef.group me (hde.member ▸ hme) inbox (hde.syncInbox ▸ hne))
  record me hme := (hef.record me (hde.member ▸ hme)).trans (hde.record me hme)

/-- A change of the view that keeps its place concerns nobody else. -/
theorem of_view {v : View} (hmember : v.member = d.view.member)
    (hpatch : v.patchInbox = d.view.patchInbox) (hsync : v.syncInbox = d.view.syncInbox) :
    Leads d { d with view := v } :=
  ⟨hmember, hpatch, hsync, fun hd => ⟨hd.store, hd.group⟩, fun _ _ => .refl _ _,
    fun _ _ _ _ => .refl _ _ _, fun _ _ => rfl⟩

/-- Whatever is done to the scene tells all others, as long as they hear of it from the store and
of cursors that move. -/
theorem of_scene (hstore : d.project.patches.Evolves s.around.project.patches)
    (hgroup : ∃ cursors, s.around.group = d.group.setCursors d.view.member cursors) :
    Leads d (d.withScene s) := by
  obtain ⟨cursors, hgroup⟩ := hgroup
  obtain ⟨hsound, hmembers, htells⟩ := SyncGroup.setCursors_spec d.group d.view.member cursors
  rw [← hgroup] at hsound hmembers htells
  exact ⟨rfl, rfl, rfl, fun hd => ⟨hstore.sound hd.store, hsound hd.group⟩,
    fun inbox _ => hstore.tells inbox, fun me _ inbox _ => htells me inbox,
    fun me _ => congrArg (·.get? me) hmembers⟩

/-- Keys and the pointer tell all others. -/
theorem of_kept (hkept : Scene.Kept d.scene s) : Leads d (d.withScene s) := by
  obtain ⟨cursors, hgroup, -⟩ := hkept.group
  exact .of_scene hkept.store ⟨cursors, hgroup⟩

/-- A store that carries out requests tells all others. -/
theorem of_evolves {patches : PatchStore} (h : d.project.patches.Evolves patches) :
    Leads d { d with project := { d.project with patches } } :=
  ⟨rfl, rfl, rfl, fun hd => ⟨h.sound hd.store, hd.group⟩, fun inbox _ => h.tells inbox,
    fun _ _ _ _ => .refl _ _ _, fun _ _ => rfl⟩

end Leads

/-! ## Keys and the pointer -/

/-- A view stays in step through everything that keeps its scene. -/
theorem inStep_of_kept (h : d.view.InStep d.project d.group) (hkept : Scene.Kept d.scene s) :
    (d.withScene s).view.InStep (d.withScene s).project (d.withScene s).group := by
  obtain ⟨cursors, hgroup, -⟩ := hkept.group
  change s.around.group = d.group.setCursors d.view.member cursors at hgroup
  obtain ⟨-, hmembers, htells⟩ := SyncGroup.setCursors_spec d.group d.view.member cursors
  rw [← hgroup] at hmembers htells
  have htold := h.of_tells (hkept.store.tells _) (htells _ _) (by rw [hmembers])
  refine ⟨⟨hkept.ofView h.ofView, hkept.painted h.painted, htold.hearsPatches, htold.hearsGroup,
    htold.record⟩, ?_, ?_, ?_⟩
  · exact htold.patches.imp_right hkept.patches.trans
  · exact htold.alwaysShow.imp_right hkept.alwaysShow.trans
  · exact htold.synchronized.imp_right hkept.synchronized.trans

end Desk

end HexEditor
