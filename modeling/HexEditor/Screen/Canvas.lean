import HexEditor.Plane.Sheet

/-!
# The canvas

The part of the screen that shows the rows of a sheet from some top row on.  It maps
points of the sheet to points of the screen and back.
-/

namespace HexEditor

/-- Where the left top corner of the sheet lies on the screen. -/
structure Canvas where
  origin : Point
  deriving Repr, Inhabited

namespace Canvas

/-- The canvas in a rectangle of the screen that shows the sheet from a row on. -/
def create (frame : Rect) (topRow : Nat) (rowHeight : Float32) : Canvas :=
  { origin := ⟨frame.min.x - 0, frame.min.y - Sheet.rowPixels topRow * rowHeight⟩ }

def toScreen (c : Canvas) (p : Point) : Point := ⟨c.origin.x + p.x, c.origin.y + p.y⟩

def toSheet (c : Canvas) (p : Point) : Point := ⟨p.x - c.origin.x, p.y - c.origin.y⟩

def rectToScreen (c : Canvas) (r : Rect) : Rect := ⟨c.toScreen r.min, c.toScreen r.max⟩

end Canvas

end HexEditor
