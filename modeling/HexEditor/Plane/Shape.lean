/-!
# Points and rectangles

Positions on the screen, in pixels.  Coordinates are binary32 numbers, and every
formula is evaluated in the order in which it is written.
-/

namespace HexEditor

/-- A position; `y` grows downwards. -/
structure Point where
  x : Float32 := 0
  y : Float32 := 0
  deriving BEq, Repr, Inhabited

/-- A rectangle between its left top and its right bottom corner. -/
structure Rect where
  min : Point
  max : Point
  deriving BEq, Repr, Inhabited

/-- The smaller of two numbers; the first of two equal ones, and a number rather than
what is not a number. -/
def lesser (a b : Float32) : Float32 := if a.isNaN then b else if b < a then b else a

/-- The greater of two numbers; the first of two equal ones, and a number rather than
what is not a number. -/
def greater (a b : Float32) : Float32 := if a.isNaN then b else if a < b then b else a

namespace Rect

/-- The rectangle of the given size whose left top corner is `corner`. -/
def ofSize (corner : Point) (width height : Float32) : Rect :=
  ⟨corner, ⟨corner.x + width, corner.y + height⟩⟩

def width (r : Rect) : Float32 := r.max.x - r.min.x

def height (r : Rect) : Float32 := r.max.y - r.min.y

def leftTop (r : Rect) : Point := r.min

def rightTop (r : Rect) : Point := ⟨r.max.x, r.min.y⟩

def leftBottom (r : Rect) : Point := ⟨r.min.x, r.max.y⟩

def rightBottom (r : Rect) : Point := r.max

/-- The rectangle with every side moved inwards by `amount`. -/
def shrink (r : Rect) (amount : Float32) : Rect :=
  ⟨⟨r.min.x + amount, r.min.y + amount⟩, ⟨r.max.x - amount, r.max.y - amount⟩⟩

def translate (r : Rect) (dx dy : Float32) : Rect :=
  ⟨⟨r.min.x + dx, r.min.y + dy⟩, ⟨r.max.x + dx, r.max.y + dy⟩⟩

/-- Whether a point lies inside; the right and the bottom side are outside. -/
def contains (r : Rect) (p : Point) : Bool :=
  r.min.x ≤ p.x && p.x < r.max.x && r.min.y ≤ p.y && p.y < r.max.y

/-- Whether a point lies inside or on a side. -/
def covers (r : Rect) (p : Point) : Bool :=
  r.min.x ≤ p.x && p.x ≤ r.max.x && r.min.y ≤ p.y && p.y ≤ r.max.y

def union (r s : Rect) : Rect :=
  ⟨⟨lesser r.min.x s.min.x, lesser r.min.y s.min.y⟩,
    ⟨greater r.max.x s.max.x, greater r.max.y s.max.y⟩⟩

def hull? : List Rect → Option Rect
  | [] => none
  | r :: rest => some (rest.foldl union r)

end Rect

end HexEditor
