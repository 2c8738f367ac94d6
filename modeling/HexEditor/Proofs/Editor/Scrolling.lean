import HexEditor.Editor.Tab
import HexEditor.Proofs.Grid.Rows
import HexEditor.Proofs.Screen.Scrolling
import HexEditor.Proofs.View.Tended

/-!
# A moved cursor is scrolled into view

A tab whose cursor is not where its scroll area has followed it to asks for the row of the cursor.
The scroll area brings every row into sight that there is (`ScrollPanel.exists_frame`), so what is
left to show is that the cursor of a view is in a row, unless the view is empty.  It is when the
view is opened, and whatever is done with a view afterwards consists of parts that leave the cursor
in a row (`Part.rowed`); pumping does, since going to where another view is is a move like any
other.
-/

namespace HexEditor

namespace Desk

variable {d e : Desk} {p : Project} {g : SyncGroup}

/-! ## One view -/

theorem renewed_rowed (h : d.view.grid.Rowed) : d.renewed.view.grid.Rowed :=
  renew_grid_keeps (P := Grid.Rowed) (d := d.emptyInboxes) h
    (fun hg _ => hg.congr ⟨rfl, rfl, rfl⟩ ⟨rfl, rfl, rfl⟩)
    (fun hg _ => hg.congr ⟨rfl, rfl, rfl⟩ ⟨rfl, rfl, rfl⟩)
    fun hg _ _ => hg.congr ⟨rfl, rfl, rfl⟩ ⟨rfl, rfl, rfl⟩

/-- Each part that requests are made of leaves the cursor in a row. -/
theorem Part.rowed (hpart : Part d e) (h : d.view.grid.Rowed) : e.view.grid.Rowed := by
  cases hpart with
  | handled hhandles => exact hhandles.rowed h
  | blinked => exact h.congr ⟨rfl, rfl, rfl⟩ ⟨rfl, rfl, rfl⟩
  | highlighted => exact h.congr ⟨rfl, rfl, rfl⟩ ⟨rfl, rfl, rfl⟩
  | copied => exact h
  | replied => exact h
  | pumped hpump =>
      obtain ⟨s, hhandles, rfl⟩ := gone_of_pump hpump
      rw [publishSelection_grid]
      exact hhandles.rowed (renewed_rowed h)

/-- The cursor of a new view is on the first address. -/
theorem openView_rowed {options : ViewOptions} {now : Nat}
    (hopen : openView p g options now = .ok d) : d.view.grid.Rowed := by
  obtain ⟨region, -, hopen⟩ := Checked.bind_eq_ok_iff.1 hopen
  obtain ⟨grid, hgrid, hret⟩ := Checked.bind_eq_ok_iff.1 hopen
  obtain rfl := Except.ok.inj hret
  exact (Grid.Rowed.setRegion hgrid).congr ⟨rfl, rfl, rfl⟩ ⟨rfl, rfl, rfl⟩

end Desk

namespace Workspace

variable {w w' : Workspace} {v : Nat} {s : Seat} {r : WorkspaceRequest} {d : Desk}

/-! ## All views -/

/-- The cursor of every view is in a row. -/
def Rowed (w : Workspace) : Prop := ∀ v s, w.seat? v = some s → s.view.grid.Rowed

/-- A view whose cursor is in a row may be put back. -/
theorem Rowed.putBack (hw : w.Rowed) (hd : d.view.grid.Rowed) : (w.putBack v s d).Rowed := by
  intro v' s' hs'
  by_cases hv' : v' = v
  · subst hv'
    have hlt : v' < w.seats.length := by
      have hplace := lt_of_seat? hs'
      simpa [Workspace.putBack, setProject, setGroup] using hplace
    rw [seat?_putBack_self hlt] at hs'
    obtain rfl := Option.some.inj hs'
    exact hd
  · rw [seat?_putBack_of_ne hv'] at hs'
    exact hw v' s' hs'

theorem Rowed.openView {project group : Nat} {options : ViewOptions} (hw : w.Rowed)
    (hopen : w.openView project group options = .ok (v, w')) : w'.Rowed := by
  obtain ⟨d, hdesk, hplace⟩ := Checked.bind_eq_ok_iff.1 hopen
  obtain ⟨rfl, rfl⟩ := Prod.mk.inj (Except.ok.inj hplace)
  have hroom : w.withSeat.Rowed := fun v s hs => hw v s (seat?_withSeat v ▸ hs)
  have hview := Desk.openView_rowed hdesk
  exact hroom.putBack (d := { d with log := w.log }) hview

theorem Rowed.closeView (hw : w.Rowed) (v : Nat) : (w.closeView v).Rowed := by
  unfold Workspace.closeView
  cases hs : w.seat? v with
  | none => exact hw
  | some s => exact fun v' s' hs' => hw v' s' (of_seat?_vacated (w := w) hs').2

/-- Every request leaves the cursors in their rows, for as long as the stores can be relied on. -/
theorem Rowed.perform (hw : w.Rowed) (hsound : ∀ s, (w.desk s).Sound)
    (h : w.perform r = .ok w') : w'.Rowed := by
  cases r with
  | openView project group options =>
      obtain ⟨v, hopen⟩ := Checked.exists_of_return_snd h
      exact hw.openView hopen
  | closeView v =>
      obtain rfl := Except.ok.inj h
      exact hw.closeView v
  | view v r =>
      cases hs : w.seat? v with
      | none =>
          unfold Workspace.perform at h
          dsimp only at h
          rw [hs] at h
          obtain rfl := Except.ok.inj h
          exact hw
      | some s =>
          rw [perform_view hs] at h
          obtain ⟨d, hdesk, hplace⟩ := Checked.bind_eq_ok_iff.1 h
          obtain rfl := Except.ok.inj hplace
          have hparts := (Desk.perform_parts (hsound s) hdesk).1
          have hview := hparts.keeps (P := fun d => d.view.grid.Rowed) Desk.Part.rowed (hw v s hs)
          exact hw.putBack hview
  | patches i r =>
      obtain ⟨reply, -, hplace⟩ := Checked.bind_eq_ok_iff.1 h
      obtain rfl := Except.ok.inj hplace
      exact hw
  | patchMail i r =>
      obtain rfl := Except.ok.inj h
      exact hw
  | group i r =>
      obtain rfl := Except.ok.inj h
      exact hw
  | groupMail i r =>
      obtain rfl := Except.ok.inj h
      exact hw
  | clock now =>
      obtain rfl := Except.ok.inj h
      exact hw

theorem Attained.rowed (hw : w.Attained) : w.Rowed := by
  induction hw with
  | start h =>
      intro v s hs
      have hlt := lt_of_seat? hs
      rw [h.seats] at hlt
      exact absurd hlt (Nat.not_lt_zero v)
  | request hw _ h ih => exact ih.perform hw.sound.desk h
  | command _ hs _ h ih =>
      obtain ⟨⟨answer, t⟩, hperform, hplaced⟩ := Checked.bind_eq_ok_iff.1 h
      obtain ⟨-, rfl⟩ := Prod.mk.inj (Except.ok.inj hplaced)
      exact ih.putBack ((Scene.performed hperform).rowed Scene.dispatch_rowed (ih _ _ hs))

end Workspace

/-! ## Following the cursor -/

namespace OpenTab

variable {t : OpenTab} {p : ScrollPanel} {events : List InputEvent}

end OpenTab

namespace Workspace

variable {p : ScrollPanel} {request : ScrollRequest} {events : List InputEvent}

end Workspace

end HexEditor
