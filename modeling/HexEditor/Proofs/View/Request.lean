import HexEditor.Proofs.View.Parts
import HexEditor.Proofs.View.UpToDate

/-!
# Requests to a view

Each part that requests are made of keeps a view in step and tells all others (`Steps`), and after
pumping the view shows things as they are (`Pumped`).  `perform_spec` says so of all requests.
-/

namespace HexEditor.Desk

variable {d e f : Desk} {s : Scene} {b : Bool}

/-- The request has left the view in step, and has told all others. -/
structure Steps (d e : Desk) : Prop where
  inStep : e.view.InStep e.project e.group
  leads : Leads d e

/-- Moreover, the view shows things as they are. -/
structure Pumped (d e : Desk) : Prop extends Steps d e where
  upToDate : e.UpToDate

theorem Steps.trans (hde : Leads d e) (hef : Steps e f) : Steps d f :=
  ⟨hef.inStep, hde.trans hef.leads⟩

theorem Pumped.trans (hde : Leads d e) (hef : Pumped e f) : Pumped d f :=
  ⟨.trans hde hef.toSteps, hef.upToDate⟩

/-! ## The parts of a request -/

/-- A change of the view that shows the same as before. -/
theorem steps_of_view (h : d.view.InStep d.project d.group) {v : View}
    (hplace : v.member = d.view.member ∧ v.patchInbox = d.view.patchInbox ∧
      v.syncInbox = d.view.syncInbox ∧ v.published = d.view.published)
    (hofView : v.grid.OfView) (hpainted : v.grid.Painted)
    (hpatches : v.grid.overlay.patches = d.view.grid.overlay.patches)
    (halways : v.grid.blink.alwaysShow = d.view.grid.blink.alwaysShow)
    (hsync : v.grid.overlay.synchronized = d.view.grid.overlay.synchronized) :
    Steps d { d with view := v } := by
  obtain ⟨hmember, hpatch, hinbox, hpublished⟩ := hplace
  refine ⟨⟨⟨hofView, hpainted, ?_, ?_, ?_⟩, ?_, ?_, ?_⟩, .of_view hmember hpatch hinbox⟩
  · rw [hpatch]
    exact h.hearsPatches
  · rw [hinbox]
    exact h.hearsGroup
  · rw [hmember, hpublished]
    exact h.record
  · rw [hpatch, hpatches]
    exact h.patches
  · rw [hinbox, halways]
    exact h.alwaysShow
  · rw [hmember, hinbox, hsync]
    exact h.synchronized

theorem steps_of_kept (h : d.view.InStep d.project d.group) (hkept : Scene.Kept d.scene s) :
    Steps d (d.withScene s) :=
  ⟨inStep_of_kept h hkept, .of_kept hkept⟩

theorem steps_of_evolves (h : d.view.InStep d.project d.group) {patches : PatchStore}
    (hstore : d.project.patches.Evolves patches) :
    Steps d { d with project := { d.project with patches } } :=
  ⟨h.of_tells (hstore.tells _) (.refl _ _ _) rfl, .of_evolves hstore⟩

theorem steps_of_blink (h : d.view.InStep d.project d.group) {blink : Blink} {focused pressed : Bool}
    (halways : blink.alwaysShow = d.view.grid.blink.alwaysShow) :
    Steps d (d.mapGrid fun g => { g with blink, focused, pressed }) :=
  steps_of_view h ⟨rfl, rfl, rfl, rfl⟩ ⟨h.ofView.listeners, h.ofView.source, h.ofView.moving⟩
    ⟨h.painted.eq, h.painted.plain⟩ rfl halways rfl

theorem steps_of_setSmart (h : d.view.InStep d.project d.group) (on : Bool) :
    Steps d (d.setSmart on) := by
  refine steps_of_view h ⟨rfl, rfl, rfl, rfl⟩
    ⟨h.ofView.listeners, h.ofView.source, h.ofView.moving⟩ ?_ rfl rfl rfl
  refine Grid.Painted.setClassification ?_
  split
  · exact ItemMap.highlights_plain _ _
  · simp

/-- Pumping a view that is in step makes it show things as they are. -/
theorem exists_pumped (hd : d.Sound) (h : d.view.InStep d.project d.group) :
    ∃ b e, d.pump = .ok (b, e) ∧ Pumped d e := by
  obtain ⟨b, hpump⟩ := pump_eq h.ofView.upkept
  obtain ⟨hseated, hcurrent, hpublished⟩ := pumped_spec h
  have hleads := leads_pumped d
  exact ⟨b, d.pumped, hpump, ⟨hseated.inStep hcurrent, hleads⟩,
    upToDate_of_current (hleads.sound hd).store hseated hcurrent hpublished⟩

theorem pumped_of_pump (hd : d.Sound) (h : d.view.InStep d.project d.group)
    (hpump : d.pump = .ok (b, e)) : Pumped d e := by
  obtain ⟨b', e', heq, hpumped⟩ := exists_pumped hd h
  rw [hpump] at heq
  obtain ⟨-, rfl⟩ := Prod.mk.inj (Except.ok.inj heq)
  exact hpumped

theorem Part.steps (hd : d.Sound) (h : d.view.InStep d.project d.group) (hpart : Part d e) :
    Steps d e := by
  cases hpart with
  | handled hhandles => exact steps_of_kept h (.of_handles h.ofView hd.store hhandles)
  | blinked halways => exact steps_of_blink h halways
  | highlighted on => exact steps_of_setSmart h on
  | copied clipboard => exact steps_of_view h ⟨rfl, rfl, rfl, rfl⟩ h.ofView h.painted rfl rfl rfl
  | replied hstore => exact steps_of_evolves h hstore
  | pumped hpump => exact (pumped_of_pump hd h hpump).toSteps

theorem Parts.steps (hd : d.Sound) (h : d.view.InStep d.project d.group) (hparts : Parts d e) :
    Steps d e := by
  refine hparts.keeps (P := Steps d) ?_ ⟨h, .refl d⟩
  intro e f hpart hsteps
  exact .trans hsteps.leads (hpart.steps (hsteps.leads.sound hd) hsteps.inStep)

/-- Every request keeps a view in step, and those that end with pumping make it show things as
they are. -/
theorem perform_spec {r : ViewRequest} (hd : d.Sound) (h : d.view.InStep d.project d.group)
    (hdone : d.perform r = .ok e) : Steps d e ∧ (r.pumps d.view = true → Pumped d e) := by
  obtain ⟨hparts, hends⟩ := perform_parts hd hdone
  refine ⟨hparts.steps hd h, fun hpumps => ?_⟩
  obtain ⟨f, b, hf, hpump⟩ := hends hpumps
  have hsteps := hf.steps hd h
  exact .trans hsteps.leads (pumped_of_pump (hsteps.leads.sound hd) hsteps.inStep hpump)

end HexEditor.Desk
