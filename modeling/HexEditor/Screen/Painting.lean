import HexEditor.Plane.Outline
import HexEditor.Screen.Canvas
import HexEditor.Settings.Palette
import HexEditor.View.Basic

/-!
# Painting the canvas

What is painted for a range of rows, from the back to the front: the background of every
other row, the regions and the selection in both panes as far as they are in sight, the
glyphs, and the marks of the cursor.
-/

namespace HexEditor

/-- Something that is painted. -/
inductive Shape where
  | fill (r : Rect) (color : Color)
  /-- A closed line. -/
  | line (points : List Point) (width : Float32) (color : Color)
  /-- A text by its left top corner. -/
  | text (corner : Point) (content : String) (color : Color)
  deriving Repr, Inhabited

namespace Painting

/-- The opacity of a region that meets the cursor or the selection. -/
def activeAlpha : UInt8 := 50

/-- The opacity of any other region. -/
def passiveAlpha : UInt8 := 20

def selectionAlpha : UInt8 := 70

/-- The factor by which regions away from the cursor are darkened. -/
def passiveFactor : Float32 := 0.6

def lineWidth : Float32 := 1

/-- How far the outline of a region stays inside its cells. -/
def regionInset : Float32 := 0.5

/-- The panes in the order in which they are painted. -/
def panes : List Pane := [.bytes, .ascii]

/-- The filled and surrounded outline of a range. -/
def outline (c : Canvas) (o : Outline) (fill line : Color) : List Shape :=
  o.rects.map (fun r => .fill (c.rectToScreen r) fill) ++
    o.subpaths.map fun points => .line (points.map c.toScreen) lineWidth line

/-- The part of a region that is in sight, if any. -/
def regionSpan? (inSight : Span) (r : Region) : Option Span := inSight.meet? ⟨r.addr, r.last⟩

/-- The addresses of a span of a region, in both panes. -/
def regionOutlines (s : Sheet) (palette : Palette) (c : Canvas) (r : Region) (span : Span) :
    List Shape :=
  let color := palette.region r.category
  let (alpha, line) :=
    if r.active then (activeAlpha, color) else (passiveAlpha, color.fade passiveFactor)
  panes.flatMap fun pane =>
    outline c (s.outline span.first span.last pane regionInset) (line.withAlpha alpha) line

/-- The part of a region that is in sight, in both panes. -/
def region (s : Sheet) (palette : Palette) (c : Canvas) (inSight : Span) (r : Region) :
    List Shape :=
  ((regionSpan? inSight r).map (regionOutlines s palette c r)).getD []

/-- The addresses of a span of the selection, in the color of the selection in the pane
that takes the typing. -/
def selectionOutlines (g : Grid) (palette : Palette) (c : Canvas) (span : Span) : List Shape :=
  panes.flatMap fun pane =>
    let color := if pane = g.cursor.pane then palette.selection else palette.selectionAlt
    outline c (g.sheet.outline span.first span.last pane 0) (color.withAlpha selectionAlpha) color

/-- The part of the selection that is in sight, in both panes. -/
def selection (g : Grid) (palette : Palette) (c : Canvas) (inSight : Span) : List Shape :=
  ((g.cursor.selection?.bind inSight.meet?).map (selectionOutlines g palette c)).getD []

/-- The background of a row that is set off. -/
def background (s : Sheet) (c : Canvas) (row : Row) : List Shape :=
  if row.alternate then
    let r := Rect.ofSize (s.rowCorner row.row) (s.layout.maxX + s.layout.charWidth)
      s.layout.rowHeight
    [.fill (c.rectToScreen r) .alternateRow]
  else []

/-- The glyphs of a cell at a height, in both panes. -/
def cell (l : Layout) (c : Canvas) (y : Float32) (cell : Cell) : List Shape :=
  let color := Color.ofClass cell.cellClass
  [.text (c.toScreen ⟨l.edge .bytes cell.col, y⟩) cell.hexText color,
    .text (c.toScreen ⟨l.edge .ascii cell.col, y⟩) (String.ofList [cell.ascii]) color]

/-- The glyphs of a row. -/
def glyphs (s : Sheet) (c : Canvas) (row : Row) : List Shape :=
  let y := (s.rowCorner row.row).y + s.layout.rowPadding / 2
  .text (c.toScreen ⟨s.layout.addrOffset, y⟩) row.addrText .address ::
    row.cells.flatMap (cell s.layout c y)

/-- The marks of the cursor: the one in the pane that takes the typing while it is in
its visible phase, and the other one. -/
def marks (palette : Palette) (c : Canvas) (m : CursorMarks) : List Shape :=
  let (active, passive) := match m.pane with
    | .bytes => (m.bytes, m.ascii)
    | .ascii => (m.ascii, m.bytes)
  let blinking : List Shape :=
    if m.phaseOn then [.fill (c.rectToScreen active) palette.selection] else []
  blinking ++ [.fill (c.rectToScreen passive) palette.selectionAlt]

/-- Everything that is painted for the rows from `first` up to, not including, `stop`. -/
def canvas (scene : Scene) (palette : Palette) (c : Canvas) (first stop : Nat) :
    Checked (List Shape) := do
  let g := scene.grid
  let rows ← scene.visibleRows first stop
  let highlights : List Shape := match ← g.sheet.visibleSpan first stop with
    | none => []
    | some inSight =>
      g.overlay.painted.flatMap (region g.sheet palette c inSight) ++
        selection g palette c inSight
  return rows.flatMap (background g.sheet c) ++ highlights ++ rows.flatMap (glyphs g.sheet c) ++
    (g.marks?.map (marks palette c)).getD []

end Painting

end HexEditor
