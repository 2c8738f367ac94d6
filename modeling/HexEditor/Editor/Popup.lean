import HexEditor.Editor.Basic

/-!
# Popups

A popup shows an error or a notice, or asks for what an action that waits still needs:
the text of a comment, or a confirmation.  When it is confirmed, the action is carried
out; when it is closed, the action is forgotten.
-/

namespace HexEditor

namespace Topic

def title : Topic → String
  | error => "Error"
  | about => "About"
  | comment _ => "Set Comment"
  | confirmRevert => "Revert Patches"

/-- Whether the popup asks for something that can be confirmed. -/
def canConfirm : Topic → Bool
  | comment _ | confirmRevert => true
  | error | about => false

/-- The action that a confirmed popup stands for, if it is about the action that waits. -/
def confirmed? (text : String) : Topic → ViewAction → Option ViewAction
  | comment addr, .editComment _ => some (.setComment addr (some text))
  | confirmRevert, .revertSelected => some .revertSelected
  | _, _ => none

end Topic

/-- The tab when no action waits in it any more. -/
def OpenTab.forgetPending (t : OpenTab) : OpenTab :=
  t.mapTab fun tab => { tab with pending := none }

namespace Editor

def openPopup (e : Editor) (topic : Topic) : Editor :=
  { e with popup := { e.popup with topic := some topic } }

/-- Opens the popup that the waiting action of the current tab needs, unless a popup is
open already. -/
def openPendingPopup (e : Editor) : Editor :=
  if e.popup.topic.isSome then e
  else
    match e.openTab? with
    | none => e
    | some t =>
      match t.tab.pending with
      | some (.editComment addr) =>
        { e with popup := ⟨some (.comment addr), (t.desk.patchComment? addr).getD ""⟩ }
      | some .revertSelected => { e with popup := ⟨some .confirmRevert, ""⟩ }
      | _ => e

/-- Takes the waiting action of the current tab, and carries it out when the popup was
confirmed. -/
def finishPending (e : Editor) (topic : Topic) (confirmed : Bool) : Checked Editor :=
  e.inTab fun t =>
    match t.tab.pending.bind (topic.confirmed? e.popup.text) with
    | some action =>
      if confirmed then t.forgetPending.activate action else return t.forgetPending
    | none => return t.forgetPending

def closePopup (e : Editor) (topic : Topic) (confirmed : Bool) : Checked Editor := do
  let e ← match topic with
    | .error => pure { e with error := none }
    | .about => pure e
    | .comment _ | .confirmRevert => e.finishPending topic confirmed
  return { e with popup := {} }

/-- Shows the text field of a popup for a frame, if the popup has one. -/
def showPopupField (e : Editor) (field : TextField) (events : List InputEvent) :
    TextField × Editor :=
  match e.popup.topic with
  | some (.comment _) =>
    let (text, field) := field.shownRegaining e.popup.text events
    (field, { e with popup := { e.popup with text } })
  | _ => ({ field with focused := false }, e)

/-- Shows the popup for a frame with its events; `clicked` says whether its button is
clicked.  The enter key confirms as well, and the escape key closes. -/
def showPopup (e : Editor) (field : TextField) (events : List InputEvent) (input : FrameInput)
    (clicked : Bool) : Checked (TextField × Editor) := do
  let (field, e) := { e with input }.showPopupField field events
  match e.popup.topic with
  | none => return (field, { e with popup := {} })
  | some topic =>
    let confirmed := topic.canConfirm && (clicked || input.enterReleased)
    if confirmed || input.escapePressed then return (field, ← e.closePopup topic confirmed)
    else return (field, e)

/-- Shows the popup for a frame in the main window. -/
def showMainPopup (e : Editor) (held : HeldKeys) (events : List InputEvent) : Checked Editor := do
  let (input, _) := FrameInput.gather {} held events
  let (popupField, e) ← e.showPopup e.popupField events input false
  return { e with popupField }

end Editor

end HexEditor
