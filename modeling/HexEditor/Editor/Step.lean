import HexEditor.Editor.Canvas
import HexEditor.Editor.Popup
import HexEditor.Editor.Request
import HexEditor.View.Request

/-!
# Steps of the editor

What the frames of the window are made of, as data.  A step of a tab is taken by the current
one; the other steps are about the list of tabs and the popup.
-/

namespace HexEditor

/-- Something that happens to a tab at work. -/
inductive TabStep where
  /-- An entry of a menu is chosen. -/
  | act (action : ViewAction)
  | view (r : ViewRequest)
  | setMetrics (metrics : CellMetrics)
  | follow
  /-- The field for an address is shown with a text. -/
  | jumpField (text : String) (hasKeyboard : Bool) (input : FrameInput)
  /-- The canvas handles the input of a frame. -/
  | canvas (frame : Rect) (topRow : Nat) (input : FrameInput)

inductive EditorStep where
  | request (r : EditorRequest)
  | pumpAll
  | tab (s : TabStep)
  /-- Opens the popup that an action waits for. -/
  | openPendingPopup
  /-- Shows the error that waits, in place of any other popup. -/
  | showError
  | showAbout
  /-- Shows the popup, whose text field is in some state, for a frame with its events. -/
  | popupFrame (field : TextField) (events : List InputEvent) (input : FrameInput)
    (clicked : Bool)
  /-- Closes the popup by the mark of its window. -/
  | dismissPopup

/-- The tab after a step. -/
def OpenTab.step (t : OpenTab) : TabStep → Checked OpenTab
  | .act action => t.runAction action
  | .view r => return { t with desk := ← t.desk.perform r }
  | .setMetrics metrics => return { t with desk := t.desk.mapGrid (·.setMetrics metrics) }
  | .follow => return t.followRow?.2
  | .jumpField text hasKeyboard input =>
    ({ t with input }.mapJump fun f => { f with text }).showJumpField hasKeyboard
  | .canvas frame topRow input => return (← { t with input }.handleInput frame topRow).2

namespace Editor

def showError (e : Editor) : Editor := if e.error.isSome then e.openPopup .error else e

def dismissPopup (e : Editor) : Checked Editor :=
  match e.popup.topic with
  | none => return e
  | some topic => e.closePopup topic false

/-- The editor after a step. -/
def step (e : Editor) : EditorStep → Checked Editor
  | .request r => e.perform r
  | .pumpAll => e.pumpAll
  | .tab s => e.inTab (·.step s)
  | .openPendingPopup => return e.openPendingPopup
  | .showError => return e.showError
  | .showAbout => return e.openPopup .about
  | .popupFrame field events input clicked => return (← e.showPopup field events input clicked).2
  | .dismissPopup => e.dismissPopup

end Editor

end HexEditor
