import HexEditor.Editor.Popup
import HexEditor.Text.Preview

/-!
# What the window shows

The window consists of surfaces, each of which shows a list of widgets.  A widget is a
text; clicking it does something, opens a menu, or has no effect.
-/

namespace HexEditor

/-- The parts of the window. -/
inductive Surface where
  | menuBar
  | sidePanel
  | tabStrip
  | popup
  | contextMenu
  | hexPanel
  deriving DecidableEq, Repr, Inhabited

inductive Click where
  | nothing
  | act (action : ViewAction)
  | closeTab (i : Nat)
  | switchTab (i : Nat)
  | switchSmart
  | newView
  | about
  | confirm
  /-- Takes the keyboard to the text field of the surface. -/
  | enterField
  | fold (title : String)
  /-- Presses a point of the sheet. -/
  | press (p : Point)
  deriving Repr, Inhabited

/-- A text with what a click on it does. -/
structure Button where
  text : String
  click : Click := .nothing
  deriving Repr, Inhabited

namespace Button

/-- A button that may be disabled, in which case it does nothing. -/
def enabledIf (isEnabled : Bool) (text : String) (action : ViewAction) : Button :=
  { text, click := if isEnabled then .act action else .nothing }

def ofMenuItem (i : MenuItem) : Button := enabledIf i.enabled i.label i.action

end Button

/-- Something that a surface shows: a button, or the name of a menu. -/
inductive Widget where
  | button (b : Button)
  | menu (title : String) (entries : List Button)
  deriving Repr, Inhabited

namespace Widget

def label (text : String) : Widget := .button { text }

def text : Widget → String
  | button b => b.text
  | menu title _ => title

def entries : Widget → List Button
  | button _ => []
  | menu _ entries => entries

/-- The widget of an entry of a context menu; a separator has none. -/
def ofMenuEntry? : MenuEntry → Option Widget
  | .item i => some (.button (.ofMenuItem i))
  | .submenu title items => some (.menu title (items.map .ofMenuItem))
  | .separator => none

end Widget

namespace OpenTab

/-- The regions of patches that meet the cursor or the selection. -/
def selectedPatchRegions (t : OpenTab) : List Region :=
  t.desk.view.grid.overlay.active.filter (·.isMutable)

/-! ## Menus -/

def editMenu (t : OpenTab) : Checked (List Button) := do
  let view := t.desk.view
  return [
    .enabledIf view.grid.cursor.selection?.isSome "Copy" .copy,
    .enabledIf view.clipboard.isSome "Paste" .paste,
    .enabledIf (← t.desk.canMergeSelected) "Merge selected patches" .mergeSelected,
    .enabledIf (!t.selectedPatchRegions.isEmpty) "Revert selected patches..." .revertSelected]

def viewMenu (_ : OpenTab) : List Button :=
  [{ text := "Smart highlighting", click := .switchSmart },
    { text := "New synchronized view", click := .newView }]

def contextWidgets (t : OpenTab) : Checked (List Widget) := do
  let menu ← t.desk.contextMenu
  if menu.isEmpty then return [.label "No actions"]
  else return menu.filterMap Widget.ofMenuEntry?

/-! ## The side panel -/

def previewLimit : Nat := 8

/-- What is shown of a patch under the cursor. -/
def patchWidgets (p : Patch) : List Widget :=
  [.label (Hexadecimal.lowerPadded 8 p.addr), .label (toString p.size ++ " bytes"),
    .label (Text.preview p.bytes previewLimit)]
  ++ p.comment.toList.map .label
  ++ [.button { text := "Comment...", click := .act (.editComment p.addr) },
    .button { text := "Revert", click := .act (.revert p.addr) }]

def patchList (t : OpenTab) : List Widget :=
  match t.desk.patchesUnderCursor with
  | [] => [.label "No patch under the cursor"]
  | patches => patches.flatMap patchWidgets

/-- The field for an address: a hint while it is empty, and what it holds. -/
def fieldWidgets (t : OpenTab) : List Widget :=
  let text := t.tab.jump.text
  let hint : List Widget :=
    if text.isEmpty then [.button { text := "Address (hex)", click := .enterField }] else []
  hint ++ [.button { text, click := .enterField }]

/-- A section of the side panel, of which only the title is shown when it is folded. -/
def sectionWidgets (folded : List String) (title : String) (content : List Widget) :
    List Widget :=
  .button { text := title, click := .fold title } ::
    if folded.contains title then [] else content

def jumpSection : String := "Jump To Address"

/-- The side panel, in which some sections are folded. -/
def sideWidgets (t : OpenTab) (folded : List String) : List Widget :=
  sectionWidgets folded "File Information"
    [.label "File Name", .label (Disk.fileName t.tab.path),
      .label "Payload Size", .label (toString t.desk.project.image.size ++ " bytes"),
      .label "Views", .label (toString t.desk.group.memberCount)]
  ++ sectionWidgets folded "Status" [.label t.desk.statusText]
  ++ sectionWidgets folded jumpSection t.fieldWidgets
  ++ sectionWidgets folded "Patches"
    (.label (toString t.desk.project.patches.set.size ++ " patch(es) in project") :: t.patchList)

/-! ## The hex panel -/

/-- A text of a row with the point in the middle of its slot. -/
def slotWidget (s : Sheet) (row : Nat) (text : String) (left width : Float32) : Widget :=
  let center : Point := ⟨left + width / 2, (s.rowCorner row).y + s.layout.rowHeight / 2⟩
  .button { text, click := .press center }

/-- The texts of a row: its address, and both texts of each cell. -/
def rowWidgets (s : Sheet) (row : Row) : List Widget :=
  let l := s.layout
  slotWidget s row.row row.addrText l.addrOffset l.addrWidth ::
    row.cells.flatMap fun cell =>
      [slotWidget s row.row cell.hexText (l.edge .bytes cell.col) l.byteWidth,
        slotWidget s row.row (String.ofList [cell.ascii]) (l.edge .ascii cell.col) l.asciiWidth]

def hexWidgets (t : OpenTab) : Checked (List Widget) := do
  let scene := t.desk.scene
  let s := scene.grid.sheet
  return (← scene.visibleRows 0 s.rowCount).flatMap (rowWidgets s)

end OpenTab

namespace Editor

def noFile : String := "No file open"

def menuBar (e : Editor) : Checked (List Widget) := do
  let closing : Click := match e.current with
    | some i => .closeTab i
    | none => .nothing
  let edit ← match e.openTab? with
    | some t => t.editMenu
    | none => pure [{ text := noFile }]
  let view := match e.openTab? with
    | some t => t.viewMenu
    | none => [{ text := noFile }]
  return [
    .menu "File" [{ text := "Open file..." }, { text := "Close tab", click := closing }],
    .menu "Edit" edit,
    .menu "View" view,
    .button { text := "About", click := .about }]

def sidePanel (e : Editor) (folded : List String) : List Widget :=
  match e.openTab? with
  | some t => t.sideWidgets folded
  | none => [.label noFile]

/-- The tabs, and the button that opens a further one as long as there is room. -/
def tabStrip (e : Editor) : List Widget :=
  let tabs := e.tabs.zipIdx.flatMap fun (tab, i) =>
    [Widget.button { text := tab.title, click := .switchTab i },
      .button { text := "×", click := .closeTab i }]
  tabs ++ if e.tabs.length < e.maxTabs then [.label " + "] else []

/-- What the program says about itself. -/
def aboutTexts : List String :=
  ["Hexgrid",
    "Hex view with patch editing and synchronized views",
    "The app is built with egui - immediate-mode GUI library. "
      ++ "The grid, cursor, highlight and patch logic is handled by the hexgridlib library, "
      ++ "built as part of the same project.\n\nEdits never touch the loaded file: every "
      ++ "typed byte becomes a patch that can be split, merged, commented, or reverted.",
    "v0.1.0"]

/-- The content of a popup. -/
def popupContent (e : Editor) : Topic → List Widget
  | .error => [.label (e.error.getD "")]
  | .about => aboutTexts.map .label
  | .comment addr =>
    [.label ("Comment for patch at 0x" ++ Hexadecimal.lower addr ++ ":"),
      .button { text := e.popup.text, click := .enterField },
      .button { text := " OK ", click := .confirm }]
  | .confirmRevert =>
    let count := match e.openTab? with
      | some t => t.selectedPatchRegions.length
      | none => 0
    [.label ("Revert " ++ toString count
        ++ " selected patch region(s)? This cannot be undone."),
      .button { text := " Revert ", click := .confirm }]

/-- The popup, whose title stands behind its content. -/
def popupWidgets (e : Editor) : List Widget :=
  match e.popup.topic with
  | some topic => e.popupContent topic ++ [.label topic.title]
  | none => []

/-- What a surface shows, in which some sections are folded. -/
def widgets (e : Editor) (folded : List String) : Surface → Checked (List Widget)
  | .menuBar => e.menuBar
  | .sidePanel => return e.sidePanel folded
  | .tabStrip => return e.tabStrip
  | .popup => return e.popupWidgets
  | .contextMenu =>
    match e.openTab? with
    | some t => t.contextWidgets
    | none => return []
  | .hexPanel =>
    match e.openTab? with
    | some t => t.hexWidgets
    | none => return []

end Editor

end HexEditor
