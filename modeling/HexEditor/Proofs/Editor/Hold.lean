import HexEditor.Editor.Step
import HexEditor.Proofs.View.Focus

/-!
# How a tab stands to the keyboard

Whether the canvas of a tab has the keyboard is noted twice.  The tab notes it, and hands the keys
of a frame to the view accordingly.  The grid of the view is told when the keyboard comes and when
it goes, and its cursor blinks in between.

The canvas tells the grid of every press that takes the keyboard to it or away from it.  The field
for an address takes the keyboard away as well, but then only the tab notes it, and as the tab has
noted it, a press beside the canvas is not told to the grid any more either.  So there are three
ways in which a tab can stand to the keyboard (`Hold`), and in one of them the two notes differ.
Both notes follow every step of a tab (`OpenTab.Held.step`).
-/

namespace HexEditor

/-- How a tab stands to the keyboard. -/
inductive Hold where
  /-- The canvas does not have it. -/
  | free
  | canvas
  /-- The field for an address has taken it from the canvas, and the grid has not been told. -/
  | taken
  deriving DecidableEq, Repr

namespace Hold

/-- Whether the tab hands the keys of a frame to its view. -/
def keys (h : Hold) : Bool := h = .canvas

/-- Whether the grid takes itself to have the keyboard. -/
def told (h : Hold) : Bool := h ≠ .free

/-- The pointer is pressed on the canvas, or beside it. -/
def press (onCanvas : Bool) (h : Hold) : Hold :=
  if onCanvas then .canvas else if h = .canvas then .free else h

/-- The field for an address has the keyboard. -/
def fieldTakes (h : Hold) : Hold := if h = .canvas then .taken else h

/-- After the input of a frame on a canvas in a rectangle of the screen. -/
def after (input : FrameInput) (frame : Rect) (h : Hold) : Hold :=
  match input.pointer with
  | some p => if input.pressed then h.press (frame.covers p) else h
  | none => h

end Hold

/-- What a step of a tab does to the hold on the keyboard. -/
def TabStep.pass (t : OpenTab) (h : Hold) : TabStep → Hold
  | .jumpField _ hasKeyboard _ => if hasKeyboard && !t.tab.jump.yields then h.fieldTakes else h
  | .canvas frame _ input => h.after input frame
  | _ => h

/-- Whether the step tells a view that the keyboard comes or goes, without its tab. -/
def TabStep.refocuses : TabStep → Bool
  | .view r => r.refocuses
  | _ => false

namespace OpenTab

variable {α : Type} {t u : OpenTab} {v : Nat} {h : Hold}

/-! ## A tab at work -/

/-- A tab on the view with a number, of which both notes say how it stands to the keyboard. -/
structure Held (v : Nat) (h : Hold) (t : OpenTab) : Prop where
  view : t.tab.view = v
  keys : t.tab.hasFocus = h.keys
  grid : t.desk.InFocus h.told

theorem Held.onDesk {op : Desk → Checked (α × Desk)} {answer : α} (ht : t.Held v h)
    (hop : ∀ a e, op t.desk = .ok (a, e) → e.InFocus h.told)
    (hdone : t.onDesk op = .ok (answer, u)) : u.Held v h := by
  obtain ⟨⟨a, desk⟩, hdesk, hret⟩ := Checked.bind_eq_ok_iff.1 hdone
  obtain ⟨-, rfl⟩ := Prod.mk.inj (Except.ok.inj hret)
  exact ⟨ht.view, ht.keys, hop _ _ hdesk⟩

theorem Held.within {op : Desk → Checked (α × Desk)} (ht : t.Held v h)
    (hop : ∀ a e, op t.desk = .ok (a, e) → e.InFocus h.told) (hdone : t.within op = .ok u) :
    u.Held v h := by
  obtain ⟨⟨answer, u'⟩, hdesk, hret⟩ := Checked.bind_eq_ok_iff.1 hdone
  obtain rfl := Except.ok.inj hret
  exact ht.onDesk hop hdesk

theorem Held.report (ht : t.Held v h) (result : Except PatchError Unit) :
    (t.report result).Held v h := by
  cases result with
  | ok => exact ht
  | error => exact ⟨ht.view, ht.keys, ht.grid⟩

/-- What has been typed as an address does not matter. -/
theorem Held.mapJump (ht : t.Held v h) (f : JumpField → JumpField) : (t.mapJump f).Held v h :=
  ⟨ht.view, ht.keys, ht.grid⟩

theorem Held.activate {action : ViewAction} (ht : t.Held v h)
    (hdone : t.activate action = .ok u) : u.Held v h := by
  obtain ⟨⟨result, u'⟩, hdesk, hret⟩ := Checked.bind_eq_ok_iff.1 hdone
  obtain rfl := Except.ok.inj hret
  exact (ht.onDesk (fun _ _ => Desk.activate_inFocus ht.grid) hdesk).report result

theorem Held.runAction {action : ViewAction} (ht : t.Held v h)
    (hdone : t.runAction action = .ok u) : u.Held v h := by
  unfold OpenTab.runAction at hdone
  split at hdone
  · obtain rfl := Except.ok.inj hdone
    exact ⟨ht.view, ht.keys, ht.grid⟩
  · exact ht.activate hdone

/-! ## The canvas -/

/-- A press on the canvas takes the keyboard, from whomever. -/
theorem Held.takeFocus (ht : t.Held v h) : t.takeFocus.Held v .canvas := by
  unfold OpenTab.takeFocus
  split
  · next hfocus =>
      have hcanvas : h = .canvas := of_decide_eq_true (ht.keys.symm.trans hfocus)
      exact hcanvas ▸ ht
  · exact ⟨ht.view, rfl, ht.grid.focusIn _⟩

theorem Held.pressed {frame : Rect} {c : Canvas} {p : Point} (ht : t.Held v h)
    (hdone : t.pressed frame c p = .ok u) : u.Held v (h.press (frame.covers p)) := by
  unfold OpenTab.pressed at hdone
  unfold Hold.press
  split at hdone
  · next hcovers =>
      rw [if_pos hcovers]
      have htaken := ht.takeFocus.mapJump fun f => { f with yields := true, hasFocus := false }
      exact htaken.within (fun _ _ => Desk.press_inFocus htaken.grid) hdone
  · next hcovers =>
      rw [if_neg hcovers]
      split at hdone
      · next hfocus =>
          obtain rfl := Except.ok.inj hdone
          rw [if_pos (of_decide_eq_true (ht.keys.symm.trans hfocus))]
          exact ⟨ht.view, rfl, ht.grid.focusOut⟩
      · next hfocus =>
          obtain rfl := Except.ok.inj hdone
          rw [if_neg fun hcanvas => hfocus (ht.keys.trans (decide_eq_true hcanvas))]
          exact ht

theorem Held.handlePress {frame : Rect} {c : Canvas} (ht : t.Held v h)
    (hdone : t.handlePress frame c = .ok u) : u.Held v (h.after t.input frame) := by
  unfold OpenTab.handlePress at hdone
  unfold Hold.after
  cases hpointer : t.input.pointer with
  | none =>
      rw [hpointer] at hdone
      obtain rfl := Except.ok.inj hdone
      exact ht
  | some p =>
      rw [hpointer] at hdone
      dsimp only at hdone ⊢
      split at hdone
      · next hpressed =>
          rw [if_pos hpressed]
          exact ht.pressed hdone
      · next hpressed =>
          rw [if_neg hpressed]
          obtain rfl := Except.ok.inj hdone
          exact ht

theorem Held.handleDrag {c : Canvas} (ht : t.Held v h) (hdone : t.handleDrag c = .ok u) :
    u.Held v h := by
  unfold OpenTab.handleDrag at hdone
  split at hdone
  · split at hdone
    · exact ht.within (fun _ _ => Desk.drag_inFocus ht.grid) hdone
    · obtain rfl := Except.ok.inj hdone
      exact ht
  · obtain rfl := Except.ok.inj hdone
    exact ht

theorem Held.release (ht : t.Held v h) : Held v h { t with desk := t.desk.release } :=
  ⟨ht.view, ht.keys, Desk.release_inFocus ht.grid⟩

theorem Held.handleRelease (ht : t.Held v h) : t.handleRelease.Held v h := by
  unfold OpenTab.handleRelease
  split
  · exact ht.release
  · exact ht

theorem Held.handleDoubleClick {frame : Rect} (ht : t.Held v h)
    (hdone : t.handleDoubleClick frame = .ok u) : u.Held v h := by
  unfold OpenTab.handleDoubleClick at hdone
  split at hdone
  · exact ht.within (fun _ _ => Desk.doubleClick_inFocus ht.grid) hdone
  · obtain rfl := Except.ok.inj hdone
    exact ht

theorem Held.handleSecondaryClick {frame : Rect} {c : Canvas} (ht : t.Held v h)
    (hdone : t.handleSecondaryClick frame c = .ok u) : u.Held v h := by
  unfold OpenTab.handleSecondaryClick at hdone
  split at hdone
  · split at hdone
    · obtain ⟨u', hpress, hret⟩ := Checked.bind_eq_ok_iff.1 hdone
      obtain rfl := Except.ok.inj hret
      exact (ht.within (fun _ _ => Desk.press_inFocus ht.grid) hpress).release
    · obtain rfl := Except.ok.inj hdone
      exact ht
  · obtain rfl := Except.ok.inj hdone
    exact ht

/-- Of all that the pointer does, only the press matters. -/
theorem Held.handlePointer {frame : Rect} {c : Canvas} (ht : t.Held v h)
    (hdone : t.handlePointer frame c = .ok u) : u.Held v (h.after t.input frame) := by
  obtain ⟨t₁, hpress, hdone⟩ := Checked.bind_eq_ok_iff.1 hdone
  obtain ⟨t₂, hdrag, hdone⟩ := Checked.bind_eq_ok_iff.1 hdone
  obtain ⟨t₃, hclick, hdone⟩ := Checked.bind_eq_ok_iff.1 hdone
  exact (((ht.handlePress hpress).handleDrag hdrag).handleRelease.handleDoubleClick
    hclick).handleSecondaryClick hdone

theorem Held.handleKeys (ht : t.Held v h) (hdone : t.handleKeys = .ok u) : u.Held v h :=
  Checked.foldlM_keeps (P := Held v h)
    (fun _ hkey ht => ht.within (fun _ _ => Desk.key_inFocus ht.grid) hkey) hdone ht

theorem Held.handleCopy {copied : List String} (ht : t.Held v h)
    (hdone : t.handleCopy = .ok (copied, u)) : u.Held v h := by
  unfold OpenTab.handleCopy at hdone
  split at hdone
  · obtain ⟨⟨count, t'⟩, hdesk, hret⟩ := Checked.bind_eq_ok_iff.1 hdone
    have hcopied := ht.onDesk (fun _ _ => Desk.copySelection_inFocus ht.grid) hdesk
    dsimp only at hret
    split at hret
    · obtain ⟨-, rfl⟩ := Prod.mk.inj (Except.ok.inj hret)
      exact hcopied
    · obtain ⟨-, rfl⟩ := Prod.mk.inj (Except.ok.inj hret)
      exact hcopied
  · obtain ⟨-, rfl⟩ := Prod.mk.inj (Except.ok.inj hdone)
    exact ht

theorem Held.handlePaste (ht : t.Held v h) (hdone : t.handlePaste = .ok u) : u.Held v h := by
  unfold OpenTab.handlePaste at hdone
  split at hdone
  · obtain ⟨⟨result, u'⟩, hdesk, hret⟩ := Checked.bind_eq_ok_iff.1 hdone
    obtain rfl := Except.ok.inj hret
    exact (ht.onDesk (fun _ _ => Desk.paste_inFocus ht.grid) hdesk).report result
  · obtain rfl := Except.ok.inj hdone
    exact ht

theorem Held.handleEscape (ht : t.Held v h) (hdone : t.handleEscape = .ok u) : u.Held v h := by
  unfold OpenTab.handleEscape at hdone
  split at hdone
  · exact ht.within (fun _ _ => Desk.clearThenPump_inFocus ht.grid) hdone
  · obtain rfl := Except.ok.inj hdone
    exact ht

theorem Held.handleInput {frame : Rect} {topRow : Nat} {copied : List String} (ht : t.Held v h)
    (hdone : t.handleInput frame topRow = .ok (copied, u)) :
    u.Held v (h.after t.input frame) := by
  obtain ⟨t₁, hpointer, hdone⟩ := Checked.bind_eq_ok_iff.1 hdone
  have h₁ := ht.handlePointer hpointer
  split at hdone
  · obtain ⟨-, rfl⟩ := Prod.mk.inj (Except.ok.inj hdone)
    exact h₁
  · obtain ⟨t₂, hkeys, hdone⟩ := Checked.bind_eq_ok_iff.1 hdone
    obtain ⟨⟨texts, t₃⟩, hcopy, hdone⟩ := Checked.bind_eq_ok_iff.1 hdone
    obtain ⟨t₄, hpaste, hdone⟩ := Checked.bind_eq_ok_iff.1 hdone
    obtain ⟨t₅, hescape, hret⟩ := Checked.bind_eq_ok_iff.1 hdone
    obtain ⟨-, rfl⟩ := Prod.mk.inj (Except.ok.inj hret)
    exact (((h₁.handleKeys hkeys).handleCopy hcopy).handlePaste hpaste).handleEscape hescape

/-! ## The field for an address -/

theorem Held.jump (ht : t.Held v h) (hdone : t.jump = .ok u) : u.Held v h := by
  unfold OpenTab.jump at hdone
  split at hdone
  · obtain rfl := Except.ok.inj hdone
    exact ht
  · obtain ⟨⟨isShown, u'⟩, hdesk, hret⟩ := Checked.bind_eq_ok_iff.1 hdone
    have hjumped := ht.onDesk (fun _ _ => Desk.jumpTo_inFocus ht.grid) hdesk
    dsimp only at hret
    split at hret
    · obtain rfl := Except.ok.inj hret
      exact hjumped
    · obtain rfl := Except.ok.inj hret
      exact ⟨hjumped.view, hjumped.keys, hjumped.grid⟩

/-- The field takes the keyboard from the canvas, and the grid is not told. -/
theorem Held.fieldTakes (ht : t.Held v h) :
    (t.mapTab fun tab => { tab with hasFocus := false }).Held v h.fieldTakes := by
  have hkeys : ∀ h : Hold, h.fieldTakes.keys = false ∧ h.fieldTakes.told = h.told := by
    intro h
    cases h <;> decide
  refine ⟨ht.view, (hkeys h).1.symm, ?_⟩
  rw [(hkeys h).2]
  exact ht.grid

theorem Held.showJumpField {hasKeyboard : Bool} (ht : t.Held v h)
    (hdone : t.showJumpField hasKeyboard = .ok u) :
    u.Held v (if hasKeyboard && !t.tab.jump.yields then h.fieldTakes else h) := by
  unfold OpenTab.showJumpField at hdone
  dsimp only at hdone
  split at hdone
  · next htakes =>
      rw [if_pos htakes]
      have htaken := ((ht.mapJump fun f => { f with yields := false }).mapJump
        fun f => { f with hasFocus := true }).fieldTakes
      split at hdone
      · exact (htaken.mapJump _).jump hdone
      · obtain rfl := Except.ok.inj hdone
        exact htaken
  · next htakes =>
      rw [if_neg htakes]
      split at hdone
      · exact ((ht.mapJump _).mapJump _).jump hdone
      · obtain rfl := Except.ok.inj hdone
        exact ht.mapJump _

/-! ## All steps -/

/-- Both notes follow every step. -/
theorem Held.step {s : TabStep} (ht : t.Held v h) (hs : s.refocuses = false)
    (hdone : t.step s = .ok u) : u.Held v (s.pass t h) := by
  cases s with
  | act action => exact ht.runAction hdone
  | view r =>
      obtain ⟨desk, hdesk, hret⟩ := Checked.bind_eq_ok_iff.1 hdone
      obtain rfl := Except.ok.inj hret
      exact ⟨ht.view, ht.keys, Desk.perform_inFocus ht.grid hs hdesk⟩
  | setMetrics metrics =>
      obtain rfl := Except.ok.inj hdone
      exact ⟨ht.view, ht.keys, ht.grid.setMetrics metrics⟩
  | follow =>
      obtain rfl := Except.ok.inj hdone
      unfold followRow?
      dsimp only
      split
      · exact ht
      · exact ⟨ht.view, ht.keys, ht.grid⟩
  | jumpField text hasKeyboard input =>
      have hshown : ({ t with input }.mapJump fun f => { f with text }).Held v h :=
        ⟨ht.view, ht.keys, ht.grid⟩
      have hheld := hshown.showJumpField hdone
      exact hheld
  | canvas frame topRow input =>
      obtain ⟨⟨copied, u'⟩, hinput, hret⟩ := Checked.bind_eq_ok_iff.1 hdone
      obtain rfl := Except.ok.inj hret
      exact Held.handleInput (t := { t with input }) ⟨ht.view, ht.keys, ht.grid⟩ hinput

/-! ## A click -/

/-- The pointer is pressed and released at a point in one frame. -/
def clickedAt (p : Point) : FrameInput := { pointer := some p, pressed := true, released := true }

/-- The tab after a click on its canvas that has left the desk of its view so. -/
def clicked (t : OpenTab) (p : Point) (desk : Desk) : OpenTab :=
  { t with
    tab := { t.tab with
      hasFocus := true, jump := { t.tab.jump with yields := true, hasFocus := false } }
    desk
    input := clickedAt p }

end OpenTab

end HexEditor
