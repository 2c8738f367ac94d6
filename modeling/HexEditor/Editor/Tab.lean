import HexEditor.Screen.Scroll
import HexEditor.Text.AddressEntry
import HexEditor.View.Editing
import HexEditor.View.Error

/-!
# Tabs

A tab shows a view of a file.  It knows whether the canvas takes the keys, what has been
typed into the field for an address, and which action waits for a popup.

A tab at work has its desk, the input of the frame, and the error that is shown to the
user at hand.
-/

namespace HexEditor

/-- The field into which an address is typed. -/
structure JumpField where
  hasFocus : Bool := false
  text : String := ""
  /-- Whether the field gives the keyboard away when it is shown next. -/
  yields : Bool := false
  deriving Repr, Inhabited

structure Tab where
  title : String
  path : String
  view : Nat
  jump : JumpField := {}
  /-- The number under which the scroll area is remembered. -/
  scrollArea : Nat
  /-- The cursor that the scroll area has followed last. -/
  followed : Nat
  hasFocus : Bool := false
  /-- The action that waits for a popup. -/
  pending : Option ViewAction := none
  deriving Repr, Inhabited

/-- A tab at work. -/
structure OpenTab where
  tab : Tab
  desk : Desk
  input : FrameInput := {}
  error : Option String := none

namespace OpenTab

def mapTab (t : OpenTab) (f : Tab → Tab) : OpenTab := { t with tab := f t.tab }

def mapJump (t : OpenTab) (f : JumpField → JumpField) : OpenTab :=
  t.mapTab fun tab => { tab with jump := f tab.jump }

/-- Does something in the view. -/
def onDesk {α : Type} (t : OpenTab) (op : Desk → Checked (α × Desk)) : Checked (α × OpenTab) := do
  let (answer, desk) ← op t.desk
  return (answer, { t with desk })

/-- Does something in the view whose answer does not matter. -/
def within {α : Type} (t : OpenTab) (op : Desk → Checked (α × Desk)) : Checked OpenTab :=
  return (← t.onDesk op).2

/-- Reports a refusal of the patch store. -/
def report (t : OpenTab) (result : Except PatchError Unit) : OpenTab :=
  match result with
  | .ok () => t
  | .error cause => { t with error := some (EditorError.patch cause).message }

/-- Carries out an action and reports its refusal. -/
def activate (t : OpenTab) (action : ViewAction) : Checked OpenTab := do
  let (result, t) ← t.onDesk (·.activate action)
  return t.report result

/-- Carries out an action, or lets it wait for its popup. -/
def runAction (t : OpenTab) (action : ViewAction) : Checked OpenTab :=
  if action.needsInput || action.needsConfirmation then
    return t.mapTab fun tab => { tab with pending := some action }
  else t.activate action

/-! ## Following the cursor -/

/-- The row that has to come into sight because the cursor has moved. -/
def followRow? (t : OpenTab) : Option Nat × OpenTab :=
  let grid := t.desk.view.grid
  let cursor := grid.cursor.addr
  if cursor = t.tab.followed then (none, t)
  else (some (grid.sheet.rowCol cursor).1, t.mapTab fun tab => { tab with followed := cursor })

/-- Goes to a typed address, and reports one that is not shown. -/
def jump (t : OpenTab) : Checked OpenTab := do
  match Text.address? t.tab.jump.text with
  | none => return t
  | some addr =>
    let (isShown, t) ← t.onDesk (·.jumpTo addr)
    if isShown then return t
    else
      let message := "Address " ++ Hexadecimal.lowerPadded 8 addr ++ " is outside of the view"
      return { t with error := some message }

/-- Shows the field for an address while it has the keyboard or not.  The enter key
goes to the address. -/
def showJumpField (t : OpenTab) (hasKeyboard : Bool) : Checked OpenTab := do
  let hasKeyboard := hasKeyboard && !t.tab.jump.yields
  let t := t.mapJump fun f => { f with yields := false }
  let t :=
    if hasKeyboard then
      (t.mapJump fun f => { f with hasFocus := true }).mapTab fun tab =>
        { tab with hasFocus := false }
    else t
  if t.input.enterReleased && t.tab.jump.hasFocus then
    (t.mapJump fun f => { f with hasFocus := false }).jump
  else return t

end OpenTab

end HexEditor
