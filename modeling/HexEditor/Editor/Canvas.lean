import HexEditor.Editor.Tab
import HexEditor.Screen.Painting

/-!
# The canvas of a tab

A press of the pointer on the canvas takes the keyboard to it, and a press beside it
takes the keyboard away.  Dragging selects, and a click with the secondary button moves
the cursor unless there is a selection.  While the canvas has the keyboard, keys and
commands go to the view.
-/

namespace HexEditor.OpenTab

/-- The canvas in a rectangle of the screen that shows the rows from `topRow` on. -/
def canvasIn (t : OpenTab) (frame : Rect) (topRow : Nat) : Canvas :=
  .create frame topRow t.desk.view.grid.sheet.layout.rowHeight

/-- What is painted in a rectangle of the screen for the rows from `first` up to, not
including, `stop`. -/
def paint (t : OpenTab) (palette : Palette) (frame : Rect) (first stop : Nat) :
    Checked (List Shape) :=
  Painting.canvas t.desk.scene palette (t.canvasIn frame first) first stop

/-! ## The keyboard -/

def takeFocus (t : OpenTab) : OpenTab :=
  if t.tab.hasFocus then t
  else { t with tab := { t.tab with hasFocus := true }, desk := t.desk.focusIn t.desk.now }

def dropFocus (t : OpenTab) : OpenTab :=
  { t with tab := { t.tab with hasFocus := false }, desk := t.desk.focusOut }

/-! ## The pointer -/

/-- Where the pointer is, if that is on the canvas. -/
def hovering? (t : OpenTab) (frame : Rect) : Option Point := t.input.pointer.filter frame.covers

/-- The primary button goes down: the keyboard follows, and the cursor moves. -/
def pressed (t : OpenTab) (frame : Rect) (c : Canvas) (p : Point) : Checked OpenTab :=
  if frame.covers p then
    (t.takeFocus.mapJump fun f => { f with yields := true, hasFocus := false }).within
      (·.press (c.toSheet p) t.input.shift)
  else if t.tab.hasFocus then return t.dropFocus
  else return t

def handlePress (t : OpenTab) (frame : Rect) (c : Canvas) : Checked OpenTab :=
  match t.input.pointer with
  | some p => if t.input.pressed then t.pressed frame c p else return t
  | none => return t

def handleDrag (t : OpenTab) (c : Canvas) : Checked OpenTab :=
  match t.input.pointer with
  | some p =>
    if t.desk.view.grid.pressed && t.input.down then t.within (·.drag (c.toSheet p)) else return t
  | none => return t

def handleRelease (t : OpenTab) : OpenTab :=
  if t.input.released then { t with desk := t.desk.release } else t

def handleDoubleClick (t : OpenTab) (frame : Rect) : Checked OpenTab :=
  if t.input.doubleClicked && (t.hovering? frame).isSome then t.within (·.doubleClick) else return t

def handleSecondaryClick (t : OpenTab) (frame : Rect) (c : Canvas) : Checked OpenTab :=
  match t.hovering? frame with
  | some p =>
    if t.input.secondaryClicked && t.desk.view.grid.cursor.selection?.isNone then do
      let t ← t.within (·.press (c.toSheet p) false)
      return { t with desk := t.desk.release }
    else return t
  | none => return t

def handlePointer (t : OpenTab) (frame : Rect) (c : Canvas) : Checked OpenTab := do
  let t ← t.handlePress frame c
  let t ← t.handleDrag c
  let t ← t.handleRelease.handleDoubleClick frame
  t.handleSecondaryClick frame c

/-! ## Keys and commands -/

/-- Hands the keys of the frame to the view. -/
def handleKeys (t : OpenTab) : Checked OpenTab :=
  t.input.keys.foldlM (fun t k => t.within (·.key k.1 k.2)) t

/-- Copies the selection when that is asked for.  Answers the text for the system's clipboard, if
anything is selected. -/
def handleCopy (t : OpenTab) : Checked (List String × OpenTab) :=
  if t.input.copy then do
    let (count, t) ← t.onDesk (·.copySelection)
    if count = 0 then return ([], t)
    else
      let bytes := t.desk.view.clipboard.getD []
      return ([String.ofList (bytes.flatMap fun b => Hexadecimal.padded 2 b.toNat)], t)
  else return ([], t)

/-- Pastes at the cursor when that is asked for, and reports a refusal. -/
def handlePaste (t : OpenTab) : Checked OpenTab :=
  if t.input.paste then do
    let (result, t) ← t.onDesk (·.paste)
    return t.report result
  else return t

def handleEscape (t : OpenTab) : Checked OpenTab :=
  if t.input.escapePressed then t.within fun d => (d.mapGrid (·.clearSelection)).pump
  else return t

/-- Handles the input of a frame on the canvas that shows the rows from `topRow` on.
Answers the texts that were copied. -/
def handleInput (t : OpenTab) (frame : Rect) (topRow : Nat) :
    Checked (List String × OpenTab) := do
  let t ← t.handlePointer frame (t.canvasIn frame topRow)
  if !t.tab.hasFocus then return ([], t)
  let t ← t.handleKeys
  let (copied, t) ← t.handleCopy
  let t ← t.handlePaste
  return (copied, ← t.handleEscape)

end HexEditor.OpenTab
