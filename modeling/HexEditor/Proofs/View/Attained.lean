import HexEditor.Proofs.View.Follow
import HexEditor.Proofs.View.Reachable

/-!
# Attained workspaces

The grid of a view can also be given commands directly: other regions to show, regions to paint, a
cursor drawn without the focus.  A view does not stay in step through them.  What it keeps is what
pumping needs: its one listener, its mailboxes and its place among the members (`Tuned`).  Since
the others still hear of everything, all views keep it in every workspace that comes about by
allowed requests and by such commands (`Attained`), as long as no command brings in a listener.
-/

namespace HexEditor

/-- The view has its one listener, its mailboxes, and its place among the members, and its region
ends in the address space. -/
structure View.Tuned (v : View) (p : Project) (g : SyncGroup) : Prop where
  upkept : v.grid.Upkept
  bounded : v.grid.cursor.stop ≤ maxAddress
  hearsPatches : p.patches.changes.Hears v.patchInbox
  hearsGroup : g.events.Hears v.syncInbox
  registered : ∃ ranges, g.members.get? v.member = some ranges

namespace View

variable {v : View} {p q : Project} {g h : SyncGroup}

theorem InStep.tuned (hv : v.InStep p g) (hbounded : v.grid.cursor.stop ≤ maxAddress) :
    v.Tuned p g :=
  ⟨hv.ofView.upkept, hbounded, hv.hearsPatches, hv.hearsGroup, _, hv.record⟩

/-- A view stays tuned through everything that it is told of. -/
theorem Tuned.of_tells (hv : v.Tuned p g) (hstore : p.patches.Tells v.patchInbox q.patches)
    (hgroup : g.Tells v.member v.syncInbox h)
    (hrecord : h.members.get? v.member = g.members.get? v.member) : v.Tuned q h := by
  obtain ⟨changes, hchanges, -⟩ := hstore
  obtain ⟨events, hevents, -⟩ := hgroup
  obtain ⟨ranges, hranges⟩ := hv.registered
  exact ⟨hv.upkept, hv.bounded, (hchanges hv.hearsPatches).1, (hevents hv.hearsGroup).1, ranges,
    hrecord.trans hranges⟩

end View

namespace Desk

variable {d e : Desk} {s : Scene}

/-- A change of the view alone that keeps its place. -/
theorem tuned_of_view (h : d.view.Tuned d.project d.group) {v : View}
    (hplace : v.member = d.view.member ∧ v.patchInbox = d.view.patchInbox ∧
      v.syncInbox = d.view.syncInbox) (hupkept : v.grid.Upkept)
    (hstop : v.grid.cursor.stop = d.view.grid.cursor.stop) :
    v.Tuned d.project d.group ∧ Leads d { d with view := v } := by
  obtain ⟨hmember, hpatch, hsync⟩ := hplace
  refine ⟨⟨hupkept, hstop.trans_le h.bounded, ?_, ?_, ?_⟩, .of_view hmember hpatch hsync⟩
  · rw [hpatch]
    exact h.hearsPatches
  · rw [hsync]
    exact h.hearsGroup
  · rw [hmember]
    exact h.registered

/-- Whatever is done to the grid, if others hear of it as they hear of keys and the pointer. -/
theorem tuned_of_heard (h : d.view.Tuned d.project d.group) (hheard : Scene.Heard d.scene s) :
    (d.withScene s).view.Tuned (d.withScene s).project (d.withScene s).group ∧
      Leads d (d.withScene s) := by
  obtain ⟨cursors, hgroup⟩ := hheard.group
  have hstore := hheard.store
  change s.around.group = d.group.setCursors d.view.member cursors at hgroup
  obtain ⟨-, hmembers, htells⟩ := SyncGroup.setCursors_spec d.group d.view.member cursors
  rw [← hgroup] at hmembers htells
  have htold : d.view.Tuned s.around.project s.around.group :=
    h.of_tells (hstore.tells _) (htells _ _) (by rw [hmembers])
  exact ⟨⟨hheard.upkept h.upkept, hheard.bounded h.bounded, htold.hearsPatches, htold.hearsGroup,
    htold.registered⟩, .of_scene hstore ⟨cursors, hgroup⟩⟩

theorem tuned_pumped (h : d.view.Tuned d.project d.group) :
    d.pumped.view.Tuned d.pumped.project d.pumped.group := by
  have hleads := leads_pumped d
  -- collecting the own mail, going elsewhere and publishing keep the mailbox and the place
  have hgroup : d.pumped.group.events.Hears d.view.syncInbox ∧
      ∃ ranges, d.pumped.group.members.get? d.view.member = some ranges := by
    refine pumped_group_induction (P := fun g => g.events.Hears d.view.syncInbox ∧
      ∃ ranges, g.members.get? d.view.member = some ranges) d
      ⟨h.hearsGroup.collect_self.1, h.registered⟩ ?_ ?_
    · rintro g addr - ⟨hhears, ranges, hranges⟩
      refine ⟨(SyncGroup.target?_setCursor_self hhears addr).1, ranges, ?_⟩
      rw [SyncGroup.setCursor_members]
      exact hranges
    · rintro g new - ⟨hhears, ranges, hranges⟩
      exact ⟨(SyncGroup.target?_publish d.view.member _ hhears new).1, new,
        SyncGroup.publish_get?_self hranges new⟩
  refine ⟨upkept_pumped h.upkept, (pumped_grid d).2.2.2.2.trans_le h.bounded, ?_, ?_, ?_⟩
  · rw [hleads.patchInbox, project_pumped]
    exact h.hearsPatches.collect_self.1
  · rw [hleads.syncInbox]
    exact hgroup.1
  · rw [hleads.member]
    exact hgroup.2

/-- Each part that requests are made of keeps a view tuned and tells all others. -/
theorem Part.tuned (hd : d.Sound) (h : d.view.Tuned d.project d.group) (hpart : Part d e) :
    e.view.Tuned e.project e.group ∧ Leads d e := by
  cases hpart with
  | handled hhandles => exact tuned_of_heard h (.of_handles h.upkept hd.store hhandles)
  | blinked => exact tuned_of_view h ⟨rfl, rfl, rfl⟩ ⟨h.upkept.listeners, h.upkept.moving⟩ rfl
  | highlighted => exact tuned_of_view h ⟨rfl, rfl, rfl⟩ ⟨h.upkept.listeners, h.upkept.moving⟩ rfl
  | copied => exact tuned_of_view h ⟨rfl, rfl, rfl⟩ h.upkept rfl
  | replied hstore => exact ⟨h.of_tells (hstore.tells _) (.refl _ _ _) rfl, .of_evolves hstore⟩
  | pumped hpump =>
      obtain ⟨b, heq⟩ := pump_eq h.upkept
      rw [hpump] at heq
      obtain ⟨-, rfl⟩ := Prod.mk.inj (Except.ok.inj heq)
      exact ⟨tuned_pumped h, leads_pumped d⟩

end Desk

theorem View.lasting_tuned : View.Lasting View.Tuned where
  opened hseated hcurrent hbounded := (hseated.inStep hcurrent).tuned hbounded
  hearsPatches h := h.hearsPatches
  hearsGroup h := h.hearsGroup
  registered h := h.registered
  of_tells h := h.of_tells
  part hd h hpart := hpart.tuned hd h

namespace Workspace

variable {w w' : Workspace} {v : Nat} {s : Seat} {c : Command} {a : Answer} {d : Desk}

/-- The workspaces that come about by allowed requests and by commands to the grids of views, as
long as these bring in no listeners. -/
inductive Attained : Workspace → Prop
  | start {w : Workspace} (h : w.Initial) : Attained w
  | request {w w' : Workspace} {r : WorkspaceRequest} (hw : Attained w) (hallowed : r.Allowed w)
      (h : w.perform r = .ok w') : Attained w'
  | command {w : Workspace} {v : Nat} {s : Seat} {c : Command} {a : Answer} {d : Desk}
      (hw : Attained w) (hs : w.seat? v = some s) (hlistener : c.listener? = none)
      (h : (w.desk s).onGrid (·.perform c) = .ok (a, d)) : Attained (w.putBack v s d)

theorem Reachable.attained (hw : w.Reachable) : w.Attained := by
  induction hw with
  | start h => exact .start h
  | step _ hallowed h ih => exact ih.request hallowed h

/-- A command to the grid of a view keeps all views tuned. -/
theorem SoundWith.command (hw : w.SoundWith View.Tuned) (hs : w.seat? v = some s)
    (hlistener : c.listener? = none) (h : (w.desk s).onGrid (·.perform c) = .ok (a, d)) :
    (w.putBack v s d).SoundWith View.Tuned := by
  obtain ⟨⟨answer, t⟩, hperform, hplaced⟩ := Checked.bind_eq_ok_iff.1 h
  obtain ⟨-, rfl⟩ := Prod.mk.inj (Except.ok.inj hplaced)
  have hview := hw.view v s hs
  have hheard := Scene.Heard.of_performed (s := (w.desk s).scene) hview.upkept (hw.desk s).store
    hlistener (Scene.performed hperform)
  obtain ⟨htuned, hleads⟩ := Desk.tuned_of_heard (d := w.desk s) hview hheard
  exact hw.steps View.lasting_tuned hs htuned hleads

theorem Attained.sound (hw : w.Attained) : w.SoundWith View.Tuned := by
  induction hw with
  | start h => exact h.sound
  | request _ hallowed h ih => exact ih.perform View.lasting_tuned hallowed h
  | command _ hs hlistener h ih => exact ih.command hs hlistener h

end Workspace

end HexEditor
