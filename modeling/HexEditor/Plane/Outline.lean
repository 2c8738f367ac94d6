import HexEditor.Plane.Sheet

/-!
# Outlines of address ranges

An inclusive range of addresses covers the end of its first row, the whole of the rows
in between, and the beginning of its last row.  Its outline is the border of these up
to three rectangles.  When the range has two rows and ends left of the column in which
it starts, the two rectangles do not touch and are outlined separately.
-/

namespace HexEditor

/-- The rectangles of a range, and the closed lines around them. -/
structure Outline where
  subpaths : List (List Point) := []
  rects : List Rect := []
  deriving Repr, Inhabited

namespace Outline

def isEmpty (o : Outline) : Bool := o.subpaths.isEmpty

def bounds? (o : Outline) : Option Rect := Rect.hull? o.rects

/-- A sequence of points without those that repeat the point before. -/
def dropRepeats (corners : List Point) : List Point :=
  corners.foldl (fun line p => if line.getLast? == some p then line else line ++ [p]) []

/-- The closed line through the given corners: a repeated corner is left out, and so is
a last corner that repeats the first. -/
def closedLine (corners : List Point) : List Point :=
  let line := dropRepeats corners
  if 1 < line.length && line.head? == line.getLast? then line.dropLast else line

end Outline

/-- The rectangles that a range covers, by the number of its rows. -/
inductive RangeRects where
  | oneRow (row : Rect)
  | twoRows (top bottom : Rect)
  | manyRows (top middle bottom : Rect)
  deriving Repr, Inhabited

namespace RangeRects

def toList : RangeRects → List Rect
  | oneRow row => [row]
  | twoRows top bottom => [top, bottom]
  | manyRows top middle bottom => [top, middle, bottom]

/-- The lines around the rectangles, drawn along the top, down the right side and back
up the left side.  Two rows that stand `apart` are surrounded one by one. -/
def subpaths (apart : Bool) : RangeRects → List (List Point)
  | oneRow t =>
    [Outline.closedLine [t.leftTop, t.rightTop, t.rightBottom, ⟨t.leftBottom.x, t.rightBottom.y⟩]]
  | twoRows t b =>
    if apart then
      [Outline.closedLine [t.leftTop, t.rightTop, t.rightBottom, t.leftBottom],
        Outline.closedLine [b.leftTop, ⟨b.rightTop.x, b.leftTop.y⟩, b.rightBottom, b.leftBottom,
          b.leftTop]]
    else
      [Outline.closedLine [t.leftTop, t.rightTop, t.rightBottom, ⟨b.rightTop.x, t.rightBottom.y⟩,
        b.rightBottom, b.leftBottom, b.leftTop, ⟨t.leftBottom.x, b.leftTop.y⟩]]
  | manyRows t m b =>
    [Outline.closedLine [t.leftTop, t.rightTop, t.rightBottom, m.rightBottom,
      ⟨b.rightTop.x, m.rightBottom.y⟩, b.rightBottom, b.leftBottom, b.leftTop, m.leftTop,
      ⟨t.leftBottom.x, m.leftTop.y⟩]]

end RangeRects

/-- A block of consecutive rows and consecutive columns. -/
structure CellBlock where
  firstRow : Nat
  rows : Nat
  firstCol : Nat
  lastCol : Nat
  deriving DecidableEq, Repr, Inhabited

namespace Sheet

/-- The rectangle of a block of slots of a pane, before it is shrunk. -/
def blockRect (s : Sheet) (pane : Pane) (b : CellBlock) : Rect :=
  let half := s.layout.slotSpace pane / 2
  let y := (s.rowCorner b.firstRow).y
  let height :=
    if b.rows = 1 then s.layout.rowHeight else s.layout.rowHeight * rowPixels b.rows
  ⟨⟨s.layout.edge pane b.firstCol - half, y⟩,
    ⟨s.layout.edge pane b.lastCol + s.layout.slotWidth pane + half, y + height⟩⟩

/-- The outline of the addresses from `low` to `high` in a pane, with every rectangle
shrunk by `shrink`. -/
def outline (s : Sheet) (low high : Nat) (pane : Pane) (shrink : Float32) : Outline :=
  if high < low ∨ s.rowCount = 0 then {}
  else
    let (firstRow, firstCol) := s.rowCol low
    let (lastRow, lastCol) := s.rowCol high
    let rows := lastRow - firstRow + 1
    let rightmost := bytesPerRow - 1
    let rect (b : CellBlock) : Rect := (s.blockRect pane b).shrink shrink
    let rects : RangeRects :=
      if rows = 1 then .oneRow (rect ⟨firstRow, 1, firstCol, lastCol⟩)
      else
        let top := rect ⟨firstRow, 1, firstCol, rightmost⟩
        let bottom := rect ⟨lastRow, 1, 0, lastCol⟩
        if rows = 2 then .twoRows top bottom
        else .manyRows top (rect ⟨firstRow + 1, rows - 2, 0, rightmost⟩) bottom
    { subpaths := rects.subpaths (lastCol < firstCol), rects := rects.toList }

end Sheet

end HexEditor
