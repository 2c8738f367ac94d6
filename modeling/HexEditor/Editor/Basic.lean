import HexEditor.Editor.Disk
import HexEditor.Editor.Tab
import HexEditor.Memory.Strings
import HexEditor.Screen.TextField
import HexEditor.Settings.Palette
import HexEditor.View.Workspace

/-!
# The editor

The open tabs, of which at most one is current, the popup, and the error that waits to
be shown.  Every file has a project and a group of its own, and the tabs of one file
share both.
-/

namespace HexEditor

/-- What a popup is about. -/
inductive Topic where
  | error
  | about
  /-- The comment on the patch at an address. -/
  | comment (addr : Nat)
  | confirmRevert
  deriving DecidableEq, Repr, Inhabited

/-- The popup: what it is about, while it is open, and what stands in its text field. -/
structure Popup where
  topic : Option Topic := none
  text : String := ""
  deriving DecidableEq, Repr, Inhabited

structure Editor where
  config : Config := {}
  space : Workspace := {}
  tabs : List Tab := []
  current : Option Nat := none
  maxTabs : Nat := 8
  popup : Popup := {}
  popupField : TextField := {}
  /-- The number of the next tab's scroll area. -/
  nextScrollArea : Nat := 0
  input : FrameInput := {}
  error : Option String := none

namespace Editor

instance : Inhabited Editor := ⟨{}⟩

def palette (e : Editor) : Palette := .ofColors e.config.colors

/-! ## The current tab -/

def currentTab? (e : Editor) : Option (Nat × Tab) := do
  let i ← e.current
  let tab ← e.tabs[i]?
  return (i, tab)

/-- The current tab at work. -/
def openTab? (e : Editor) : Option OpenTab := do
  let (_, tab) ← e.currentTab?
  let seat ← e.space.seat? tab.view
  return { tab, desk := e.space.desk seat, input := e.input, error := e.error }

/-- Puts the current tab back after something has happened to it. -/
def putBack (e : Editor) (t : OpenTab) : Editor :=
  match e.currentTab? with
  | none => e
  | some (i, tab) =>
    let space := match e.space.seat? tab.view with
      | none => e.space
      | some seat => e.space.putBack tab.view seat t.desk
    { e with space, tabs := e.tabs.set i t.tab, input := t.input, error := t.error }

/-- Does something in the current tab; none when there is no current tab. -/
def onTab? {α : Type} (e : Editor) (op : OpenTab → Checked (α × OpenTab)) :
    Checked (Option (α × Editor)) := do
  match e.openTab? with
  | none => return none
  | some t =>
    let (answer, t) ← op t
    return some (answer, e.putBack t)

/-- Does something in the current tab, if there is one. -/
def inTab (e : Editor) (op : OpenTab → Checked OpenTab) : Checked Editor := do
  match e.openTab? with
  | none => return e
  | some t => return e.putBack (← op t)

/-! ## Opening and closing tabs -/

def tooManyTabs : String := "Maximum number of tabs reached"

/-- Opens a tab for a view of a project in a group, and makes it the current one. -/
def addTab (e : Editor) (title path : String) (project group : Nat) : Checked Editor := do
  let (view, space) ← e.space.openView project group (e.config.viewOptions {})
  let followed := match space.seat? view with
    | some seat => seat.view.grid.cursor.addr
    | none => 0
  let tab : Tab := { title, path, view, scrollArea := e.nextScrollArea, followed }
  return { e with
    space
    tabs := e.tabs ++ [tab]
    current := some e.tabs.length
    nextScrollArea := e.nextScrollArea + 1 }

/-- The image of a file. -/
def readImage (disk : Disk) (path : String) : Except EditorError Image := do
  let bytes ← disk.read path
  if bytes.isEmpty then throw .emptyImage
  return .ofBytes 0 bytes

/-- Opens a file in a new tab.  When it is open already, its first tab becomes the
current one. -/
def load (e : Editor) (disk : Disk) (path : String) : Checked Editor := do
  match e.tabs.findIdx? (Disk.samePath path ·.path) with
  | some i => return { e with current := some i }
  | none =>
    if e.maxTabs ≤ e.tabs.length then return { e with error := some tooManyTabs }
    match readImage disk path with
    | .error cause => return { e with error := some cause.message }
    | .ok image =>
      let (project, space) :=
        e.space.addProject { image, items := ← image.strings Image.leastStringSize }
      { e with space }.addTab (Disk.fileName path) path project project

/-- Opens another view of the file of the current tab, in the same group. -/
def openSynchronizedView (e : Editor) : Checked Editor := do
  match e.currentTab? with
  | none => return e
  | some (_, tab) =>
    if e.maxTabs ≤ e.tabs.length then return { e with error := some tooManyTabs }
    match e.space.seat? tab.view with
    | none => return e
    | some seat =>
      let members := (e.space.group seat.group).memberCount + 1
      let title := Disk.fileName tab.path ++ " [" ++ toString members ++ "]"
      e.addTab title tab.path seat.project seat.group

/-- Closes a tab.  The first of the tabs that are left becomes the current one. -/
def closeTab (e : Editor) (i : Nat) : Editor :=
  let space := match e.tabs[i]? with
    | some tab => e.space.closeView tab.view
    | none => e.space
  let tabs := e.tabs.eraseIdx i
  { e with space, tabs, current := if tabs.isEmpty then none else some 0 }

/-- Chooses one of the tabs. -/
def selectTab (e : Editor) (i : Nat) : Editor := { e with current := some i }

/-- Pumps the views of all tabs, so that each sees what was edited in the others. -/
def pumpAll (e : Editor) : Checked Editor := do
  let space ← e.tabs.foldlM (fun space tab => do
    match ← Workspace.onView? space tab.view (·.pump) with
    | some (_, space) => return space
    | none => return space) e.space
  return { e with space }

end Editor

end HexEditor
