import HexEditor.Plane.Shape

/-!
# The layout of a row

A row shows an address, sixteen bytes as pairs of hexadecimal digits with a wider gap
after the eighth, and the same sixteen bytes as characters.  All widths are multiples
of the size of one glyph of the font.
-/

namespace HexEditor

def bytesPerRow : Nat := 16

structure CellMetrics where
  charWidth : Float32 := 7
  charHeight : Float32 := 14
  deriving BEq, Repr, Inhabited

/-- The two panes that show the bytes of a row. -/
inductive Pane where
  /-- The bytes as pairs of hexadecimal digits. -/
  | bytes
  /-- The bytes as characters. -/
  | ascii
  deriving DecidableEq, Repr, Inhabited

/-- The widths and the heights that make up a row. -/
structure Layout where
  charWidth : Float32
  rowPadding : Float32
  rowHeight : Float32
  sectionSpace : Float32
  addrOffset : Float32
  addrWidth : Float32
  byteWidth : Float32
  byteSpace : Float32
  byteGroupSpace : Float32
  asciiWidth : Float32
  asciiSpace : Float32
  deriving BEq, Repr, Inhabited

namespace Layout

/-- The layout for a glyph size. -/
def ofMetrics (m : CellMetrics) : Layout :=
  let rowPadding := (m.charHeight * 0.25).floor
  { charWidth := m.charWidth
    rowPadding
    rowHeight := m.charHeight + rowPadding
    sectionSpace := m.charWidth * 4
    addrOffset := m.charWidth
    addrWidth := m.charWidth * 8
    byteWidth := m.charWidth * 2
    byteSpace := m.charWidth
    byteGroupSpace := m.charWidth * 2
    asciiWidth := m.charWidth
    asciiSpace := 0 }

/-- The left edge of a byte slot.  Edge sixteen is where a further slot would start. -/
def byteEdge (l : Layout) : Nat → Float32
  | 0 => l.addrOffset + l.addrWidth + l.sectionSpace
  | i + 1 =>
    l.byteEdge i + l.byteWidth + (if i + 1 = 8 then l.byteGroupSpace else l.byteSpace)

/-- The left edge of a character slot.  Edge sixteen ends the row. -/
def asciiEdge (l : Layout) : Nat → Float32
  | 0 => l.byteEdge bytesPerRow + l.sectionSpace
  | i + 1 => l.asciiEdge i + l.asciiWidth + l.asciiSpace

def edge (l : Layout) : Pane → Nat → Float32
  | .bytes => l.byteEdge
  | .ascii => l.asciiEdge

def slotWidth (l : Layout) : Pane → Float32
  | .bytes => l.byteWidth
  | .ascii => l.asciiWidth

/-- The space between two slots. -/
def slotSpace (l : Layout) : Pane → Float32
  | .bytes => l.byteSpace
  | .ascii => l.asciiSpace

/-- All edges of a pane, the one after its last slot included. -/
def edges (l : Layout) (pane : Pane) : List Float32 :=
  (List.range (bytesPerRow + 1)).map (l.edge pane)

def maxX (l : Layout) : Float32 := l.asciiEdge bytesPerRow

/-- The first slot between two neighbouring edges that holds `x`. -/
def slotAt? (x : Float32) : List Float32 → Option Nat
  | left :: right :: rest =>
    if left ≤ x ∧ x < right then some 0 else (slotAt? x (right :: rest)).map (· + 1)
  | _ => none

end Layout

end HexEditor
