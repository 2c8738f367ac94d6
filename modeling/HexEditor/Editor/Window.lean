import HexEditor.Editor.Canvas
import HexEditor.Editor.Widget

/-!
# Using the window

One surface is shown in a window.  Clicking the name of a menu opens it, so that its
entries are shown behind the other texts; any other click and the escape key close it.
Clicking the title of a section folds it.  A text field takes the keyboard when it is
clicked, and loses it when anything else is.
-/

namespace HexEditor

/-- A surface that is shown, and what is open on it. -/
structure Window where
  surface : Surface
  /-- The number of the menu that is open. -/
  opened : Option Nat := none
  /-- The titles of the sections that are folded. -/
  folded : List String := []
  field : TextField := {}
  pointer : Pointer := {}
  deriving Repr, Inhabited

inductive Target where
  | menu (i : Nat)
  | button (click : Click)
  deriving Repr, Inhabited

namespace Window

def target (i : Nat) : Widget → Target
  | .button b => .button b.click
  | .menu _ _ => .menu i

/-- The entries of the open menu. -/
def openEntries (w : Window) (widgets : List Widget) : List Button :=
  match w.opened.bind (widgets[·]?) with
  | some widget => widget.entries
  | none => []

/-- The visible texts with their targets, in the order in which they are painted. -/
def visible (w : Window) (widgets : List Widget) : List (String × Target) :=
  (widgets.zipIdx.map fun (widget, i) => (widget.text, target i widget)) ++
    (w.openEntries widgets).map fun b => (b.text, .button b.click)

/-- Folds a section away, or unfolds it. -/
def fold (w : Window) (title : String) : Window :=
  { w with
    folded := if w.folded.contains title then w.folded.erase title else title :: w.folded }

/-- Closes the open menu when the escape key goes down. -/
def closeMenu (w : Window) (events : List InputEvent) : Window :=
  if events.any (· matches .key .escape true _) then { w with opened := none } else w

/-- The target of the visible text number `n` that reads as given. -/
def find? (w : Window) (widgets : List Widget) (text : String) (n : Nat) : Option Target :=
  (((w.visible widgets).filter (·.1 == text))[n]?).map (·.2)

end Window

namespace Editor

/-! ## Frames -/

/-- The rectangle of the hex panel, which is as large as its rows. -/
def panelFrame (t : OpenTab) : Rect := t.desk.view.grid.sheet.bounds

/-- Shows the hex panel for a frame, if a tab is open. -/
def showHexPanel (e : Editor) (input : FrameInput) : Checked Editor :=
  e.inTab fun t => do
    let (_, t) := { t with input, desk := t.desk.mapGrid (·.setMetrics {}) }.followRow?
    let (_, t) ← t.handleInput (panelFrame t) 0
    return { t with desk := (t.desk.tick t.desk.now).2 }

/-- Shows the field for an address for a frame, unless its section is folded. -/
def showField (e : Editor) (w : Window) (events : List InputEvent) : Checked (Window × Editor) := do
  match e.openTab? with
  | none => return (w, e)
  | some t =>
    if w.folded.contains OpenTab.jumpSection then return (w, e)
    let yields := t.tab.jump.yields
    let (text, field) := w.field.shown t.tab.jump.text events
    let t ← (t.mapJump fun f => { f with text }).showJumpField field.focused
    return ({ w with field := { field with focused := field.focused && !yields } }, e.putBack t)

/-- Shows a surface for a frame in which events arrive while some keys are held. -/
def frame (e : Editor) (w : Window) (held : HeldKeys) (events : List InputEvent) :
    Checked (Window × Editor) := do
  let (input, pointer) := FrameInput.gather w.pointer held events
  let w := { w with pointer }
  match w.surface with
  | .sidePanel => e.showField w events
  | .popup =>
    let (field, e) ← e.showPopup w.field events input false
    return ({ w with field }, e)
  | .hexPanel => return (w, ← e.showHexPanel input)
  | .menuBar | .contextMenu => return (w.closeMenu events, e)
  | .tabStrip => return (w, e)

/-- Shows a surface for frames one after another while no key is held. -/
def frames (e : Editor) (w : Window) (frames : List (List InputEvent)) :
    Checked (Window × Editor) :=
  frames.foldlM (fun (w, e) events => e.frame w {} events) (w, e)

/-! ## Clicks -/

/-- The frames of a click at a point: the pointer comes, the button goes down, is held,
and goes up. -/
def clickFrames (p : Point) : List (List InputEvent) :=
  [[.moved p], [.button p .primary true], [], [.button p .primary false]]

def fieldText (e : Editor) (w : Window) : String :=
  match w.surface with
  | .popup => e.popup.text
  | _ => (e.currentTab?.map (·.2.jump.text)).getD ""

/-- What a click does, after which the text field has lost the keyboard unless it was
clicked. -/
def click (e : Editor) (w : Window) (c : Click) : Checked (Window × Editor) := do
  let away := { w with field := { w.field with focused := w.surface = .popup && w.field.focused } }
  match c with
  | .nothing => return (away, e)
  | .act action => return (away, ← e.inTab (·.runAction action))
  | .closeTab i => return (away, e.closeTab i)
  | .switchTab i => return (away, e.selectTab i)
  | .switchSmart =>
    return (away, ← e.inTab fun t => return { t with desk := t.desk.setSmart (!t.desk.view.smart) })
  | .newView => return (away, ← e.openSynchronizedView)
  | .about => return (away, e.openPopup .about)
  | .confirm =>
    let (field, e) ← e.showPopup w.field [] {} true
    return ({ w with field }, e)
  | .enterField => return ({ w with field := w.field.click (e.fieldText w) }, e)
  | .fold title => return (away.fold title, e)
  | .press p => e.frames w (clickFrames p)

/-- Clicks a target and shows the surface afterwards. -/
def clickTarget (e : Editor) (w : Window) : Target → Checked (Window × Editor)
  | .menu i =>
    return ({ w with opened := if w.opened = some i then none else some i }, e)
  | .button c => do
    let (w, e) ← e.click w c
    e.frame { w with opened := none } {} []

/-- Clicks visible texts one after another, each given with the number by which it is
told apart from equal ones.  Stops at one that is not visible and answers it. -/
def clickAll (e : Editor) (w : Window) :
    List (String × Nat) → Checked (Except String Window × Editor)
  | [] => return (.ok w, e)
  | (text, n) :: rest => do
    match w.find? (← e.widgets w.folded w.surface) text n with
    | none => return (.error text, e)
    | some target =>
      let (w, e) ← e.clickTarget w target
      e.clickAll w rest

/-- Shows a surface in a new window, clicks texts, hands over the events of one frame
while some keys are held, and shows the surface once more.  Answers the texts that are
visible in the end, or the text that was to be clicked and is not visible. -/
def use (e : Editor) (surface : Surface) (clicks : List (String × Nat)) (held : HeldKeys)
    (events : List InputEvent) : Checked (Except String (List String) × Editor) := do
  let (w, e) ← e.frame { surface } {} []
  match ← e.clickAll w clicks with
  | (.error text, e) => return (.error text, e)
  | (.ok w, e) =>
    let (w, e) ← e.frame w held events
    let (w, e) ← e.frame w {} []
    return (.ok ((w.visible (← e.widgets w.folded surface)).map (·.1)), e)

end Editor

end HexEditor
