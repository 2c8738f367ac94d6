import HexEditor.Cursor.Blink
import HexEditor.Grid.Command
import HexEditor.Highlight.Overlay
import HexEditor.Memory.Project
import HexEditor.Plane.Sheet
import HexEditor.Sync.Group

/-!
# Grids

A grid lays a region of memory out on a sheet, with a cursor, the regions painted over
it, and the blink timer.  What a grid and its listeners reach beyond the grid itself
are its surroundings; the two together are a scene.
-/

namespace HexEditor

structure Grid where
  sheet : Sheet
  metrics : CellMetrics := {}
  cursor : Cursor := {}
  overlay : Overlay := {}
  blink : Blink := {}
  source : Option ByteSource := none
  /-- The listeners in the order in which they are called. -/
  listeners : List Listener := []
  /-- Whether the pointer is held down on a cell. -/
  pressed : Bool := false
  focused : Bool := false

/-- What a grid and its listeners reach beyond the grid itself. -/
structure Surroundings where
  project : Project := {}
  group : SyncGroup := {}
  /-- The number under which the grid takes part in the group. -/
  member : MemberId := 0
  /-- Whether the item around the cursor is highlighted. -/
  smart : Bool := true
  now : Nat := 0
  /-- What the scripts have recorded. -/
  log : List ListenerCall := []

/-- A grid in its surroundings. -/
structure Scene where
  grid : Grid
  around : Surroundings := {}

namespace Grid

def create (metrics : CellMetrics) : Grid := { sheet := .blank metrics, metrics }

instance : Inhabited Grid := ⟨create {}⟩

/-- Lays the grid out for a new glyph size, if it differs. -/
def setMetrics (g : Grid) (metrics : CellMetrics) : Grid :=
  if g.metrics == metrics then g
  else { g with metrics, sheet := { g.sheet with layout := .ofMetrics metrics } }

/-- Marks the painted regions that meet the current span. -/
def updateActive (g : Grid) : Grid :=
  { g with overlay := g.overlay.updateActive g.cursor.span }

/-- Shows `size` bytes of a source from `start` on, with the cursor on the first. -/
def setRegion (g : Grid) (source : ByteSource) (start size : Nat) : Checked Grid := do
  let sheet ← Sheet.create start size g.metrics
  let cursor := (g.cursor.setBounds sheet.start sheet.stop).2
  return { g with sheet, cursor, source := some source }.updateActive

def beginSelection (g : Grid) : Grid := { g with cursor := g.cursor.beginSelection }.updateActive

def clearSelection (g : Grid) : Grid := { g with cursor := g.cursor.clearSelection }.updateActive

/-- Prepares a move: an extending one starts a selection unless there is one, any other
ends the selection. -/
def anchorFor (g : Grid) (extend : Bool) : Grid :=
  if extend then if g.cursor.isSelecting then g else g.beginSelection
  else g.clearSelection

def release (g : Grid) : Grid := { g with pressed := false }

def focusIn (g : Grid) (now : Nat) : Grid :=
  { g with focused := true, blink := g.blink.focusIn now }

def focusOut (g : Grid) : Grid :=
  { g with focused := false, pressed := false, blink := g.blink.focusOut }

/-- Advances the blink timer.  Answers whether the cursor has to be painted anew. -/
def tick (g : Grid) (now : Nat) : Bool × Grid :=
  let (toggled, blink) := g.blink.tick now
  (toggled, { g with blink })

def setAlwaysShow (g : Grid) (on : Bool) : Grid := { g with blink := g.blink.setAlwaysShow on }

def setBlinkInterval (g : Grid) (interval : Nat) : Grid :=
  { g with blink := { g.blink with interval } }

def setClassification (g : Grid) (regions : List Region) : Grid :=
  { g with overlay := g.overlay.setClassification regions g.cursor.span }

def setSynchronized (g : Grid) (regions : List Region) : Grid :=
  { g with overlay := g.overlay.setSynchronized regions g.cursor.span }

def setPatches (g : Grid) (regions : List Region) : Grid :=
  { g with overlay := g.overlay.setPatches regions g.cursor.span }

def listen (g : Grid) (l : Listener) : Grid := { g with listeners := g.listeners ++ [l] }

/-- The regions under the cursor, nearest start first. -/
def regionsUnder (g : Grid) : List Region := g.overlay.under g.cursor.addr

/-- The rectangles of the cursor; none when it is not drawn. -/
def marks? (g : Grid) : Option CursorMarks :=
  let addr := g.cursor.addr
  if !g.blink.shown || !g.sheet.contains addr then none
  else
    let layout := g.sheet.layout
    let height := layout.rowPadding / 2
    let baseY := layout.rowHeight - height
    let corner := g.sheet.corner addr .bytes
    let (corner, width) : Point × Float32 :=
      match g.cursor.nibble with
      | none => (corner, layout.byteWidth)
      | some .high => (corner, layout.byteWidth / 2)
      | some .low => (⟨corner.x + layout.byteWidth / 2, corner.y⟩, layout.byteWidth / 2)
    let asciiCorner := g.sheet.corner addr .ascii
    some
      { bytes := (Rect.ofSize corner width height).translate 0 baseY
        ascii := (Rect.ofSize asciiCorner layout.asciiWidth height).translate 0 baseY
        pane := g.cursor.pane
        phaseOn := g.blink.phaseOn }

end Grid

namespace Scene

def mapGrid (s : Scene) (f : Grid → Grid) : Scene := { s with grid := f s.grid }

/-- The byte that the grid shows at an address. -/
def value (s : Scene) (addr : Nat) : Checked (Option UInt8) :=
  match s.grid.source with
  | none => return none
  | some (.image m) => return m.get? addr
  | some .addressPattern => return some (UInt8.ofNat addr)
  | some .project => s.around.project.read addr

/-- Writes one byte.  Answers whether the source took it. -/
def write (s : Scene) (addr : Nat) (value : UInt8) : Checked (Bool × Scene) := do
  match s.grid.source with
  | none => return (false, s)
  | some (.image m) =>
    match m.set? addr value with
    | some m => return (true, s.mapGrid fun g => { g with source := some (.image m) })
    | none => return (false, s)
  | some .addressPattern => return (false, s)
  | some .project =>
    let (taken, project) ← s.around.project.write addr value
    return (taken, { s with around := { s.around with project } })

/-- The cells of a row that lie in the region. -/
def cells (s : Scene) (row : Nat) : Checked (List Cell) := do
  let cells ← (List.range bytesPerRow).mapM fun col => do
    let addr ← s.grid.sheet.addrAt row col
    if s.grid.sheet.contains addr then return some (Cell.of col addr (← s.value addr))
    else return none
  return cells.filterMap id

/-- The rows from `first` up to, not including, `stop`, as far as there are any. -/
def visibleRows (s : Scene) (first stop : Nat) : Checked (List Row) :=
  let stop := min stop s.grid.sheet.rowCount
  (List.range' first (stop - first)).mapM fun row => do
    let addr ← s.grid.sheet.rowAddr row
    return { row, addr
             addrText := Hexadecimal.lowerPadded 8 addr
             alternate := row % 2 = 1
             cells := ← s.cells row }

end Scene

end HexEditor
