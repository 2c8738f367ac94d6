import HexEditor.Address
import HexEditor.OrderedMap
import HexEditor.Plane.Sheet
import HexEditor.Screen.Input

/-!
# Scrolling by rows

A scroll area shows a range of rows that begins at its top row.  The wheel moves the
top row by whole steps, a row that is followed is brought into sight, and the scroll bar
puts the top row where its handle is dragged, which is seen in the next frame.  One
empty row may stand below the last one.

Every area has a number under which its top row is remembered.
-/

namespace HexEditor

/-- What a scroll area is asked to show. -/
structure ScrollRequest where
  area : Nat
  total : Nat
  rowHeight : Float32
  /-- A row that has to come into sight. -/
  follow : Option Nat := none
  deriving Repr, Inhabited

namespace Scroll

/-- The number of rows by which the wheel scrolls. -/
def wheelStep : Nat := 3

/-- The least turn of the wheel that scrolls. -/
def wheelThreshold : Float32 := 0.4

/-- The top row after a turn of the wheel. -/
def turn (top : Nat) (delta : Float32) : Nat :=
  if wheelThreshold < delta.abs then
    if 0 < delta then top - wheelStep else clampedAdd top wheelStep
  else top

/-- The number of rows that fit in a height; at least one. -/
def visibleRows (height rowHeight : Float32) : Nat :=
  max (height / rowHeight).toUInt64.toNat 1

/-- The top row nearest to `top` with which a row is fully in sight. -/
def reveal (top visible row : Nat) : Checked Nat := do
  if row < top then return row
  else if (← checkedAdd top visible) ≤ row then return (← checkedAdd row 1) - visible
  else return top

def follow (top visible : Nat) : Option Nat → Checked Nat
  | some row => reveal top visible row
  | none => return top

/-- The greatest top row, which leaves one row empty at the bottom. -/
def maxTop (total visible : Nat) : Nat := total - (visible - 1)

/-- The rows in sight from a top row on: the first, and the one after the last. -/
def range (top visible total : Nat) : Checked (Nat × Nat) :=
  return (top, min (← checkedAdd (← checkedAdd top visible) 1) total)

/-! ## The scroll bar -/

/-- The distance of the scroll bar from the upper and the lower edge. -/
def barMargin : Float32 := 4

/-- The left and the right edge of the strip in which the scroll bar lies, from the right
edge of the area. -/
def barStrip : Float32 × Float32 := (14, 2)

/-- The width of the scroll bar, which is wider while the pointer is on its strip. -/
def barWidth (hovered : Bool) : Float32 := if hovered then 10 else 4

/-- How far from the scroll bar a press may be that still takes it. -/
def barReach : Float32 := 5

/-- The least height of the handle. -/
def minHandle : Float32 := 20

/-- The row for which the handle stands at a height. -/
def rowAtHandle (height : Float32) (visible total : Nat) (y : Float32) : Nat :=
  let bar := (height - barMargin) - barMargin
  let handle := greater (Sheet.rowPixels visible / Sheet.rowPixels total * bar) minHandle
  let offset := y - barMargin - handle / 2
  let position := offset / (bar - handle)
  let clamped := if position < 0 then 0 else if 1 < position then 1 else position
  (clamped * Sheet.rowPixels (total - visible)).round.toUInt64.toNat

end Scroll

/-- A scroll bar that was shown: the area that it belongs to, and where it was. -/
structure ShownBar where
  area : Nat
  place : Rect
  deriving Repr, Inhabited

/-- The hold of the pointer on scroll bars, each of which is named by its area. -/
structure BarGrip where
  /-- The bar that will be clicked when the button goes up. -/
  click : Option Nat := none
  /-- The bar that will be dragged when the pointer moves. -/
  drag : Option Nat := none
  /-- The bar that is being dragged. -/
  dragged : Option Nat := none
  deriving Repr, Inhabited

/-- The scroll areas of a panel, of which one is shown at a time, and what the pointer
does to their scroll bars. -/
structure ScrollPanel where
  width : Float32
  height : Float32
  tops : OrderedMap Nat := ∅
  pointer : Pointer := {}
  /-- The scroll bar that was shown in the last frame. -/
  shownBar : Option ShownBar := none
  grip : BarGrip := {}

namespace ScrollPanel

def top (p : ScrollPanel) (area : Nat) : Nat := (p.tops.get? area).getD 0

/-- Whether a point lies on the panel. -/
def contains (p : ScrollPanel) (q : Point) : Bool :=
  0 ≤ q.x && q.x ≤ p.width && 0 ≤ q.y && q.y ≤ p.height

/-! ## The hold on a scroll bar

A bar is taken, clicked and dragged where it was shown in the last frame.  When it was
not shown there, it can no longer be clicked, but dragging waits until it is shown
again. -/

def strip (p : ScrollPanel) : Rect :=
  ⟨⟨p.width - Scroll.barStrip.1, Scroll.barMargin⟩,
    ⟨p.width - Scroll.barStrip.2, p.height - Scroll.barMargin⟩⟩

/-- Where the scroll bar is while the pointer is at a point. -/
def barPlace (p : ScrollPanel) (pointer : Option Point) : Rect :=
  let strip := p.strip
  let hovered := pointer.any strip.covers
  { strip with min := ⟨strip.max.x - Scroll.barWidth hovered, strip.min.y⟩ }

/-- Whether an area's scroll bar was shown in the last frame. -/
def hadBar (p : ScrollPanel) (area : Nat) : Bool := p.shownBar.any (·.area == area)

/-- The scroll bar that a press takes while the pointer is at a point. -/
def barAt? (p : ScrollPanel) (q : Point) : Option Nat := do
  let bar ← p.shownBar
  let dx := greater (greater (bar.place.min.x - q.x) (q.x - bar.place.max.x)) 0
  let dy := greater (greater (bar.place.min.y - q.y) (q.y - bar.place.max.y)) 0
  if dx * dx + dy * dy ≤ Scroll.barReach * Scroll.barReach then some bar.area else none

/-- The pointer, the hold, and the bar that was clicked, after an event of a frame in
which a press takes the bar `target`. -/
def gripStep (target : Option Nat) (s : Pointer × BarGrip × Option Nat) (event : InputEvent) :
    Pointer × BarGrip × Option Nat :=
  let (pointer, grip, clicked) := s
  let clicks := pointer.anyDown && !pointer.strayed
  match event with
  | .button _ _ true =>
    (pointer.after event,
      { grip with click := grip.click.or target, drag := grip.drag.or target }, clicked)
  | .button _ _ false =>
    (pointer.after event, {}, if clicks then grip.click.or clicked else clicked)
  | event => (pointer.after event, grip, clicked)

/-- A press becomes a drag in a later frame, once the pointer has moved too far for a
click. -/
def beginDrag (p : ScrollPanel) (pointer : Pointer) (events : List InputEvent)
    (grip : BarGrip) : BarGrip :=
  if pointer.anyDown && pointer.strayed && !events.any (· matches .button _ _ true) then
    { grip with dragged := grip.dragged.or (grip.drag.filter p.hadBar) }
  else grip

/-- What is left of a hold after a frame. -/
def settle (pointer : Pointer) (grip : BarGrip) : BarGrip :=
  if !pointer.anyDown || pointer.position.isNone then { dragged := grip.dragged }
  else if pointer.strayed then { grip with click := none }
  else grip

/-- The hold in a frame in which the pointer is at a point in the end, and the bar that
is clicked in it. -/
def gripIn (p : ScrollPanel) (resting : Option Point) (events : List InputEvent) :
    BarGrip × Option Nat :=
  let start := { p.grip with click := p.grip.click.filter p.hadBar }
  let (pointer, grip, clicked) :=
    events.foldl (gripStep (resting.bind p.barAt?)) (p.pointer, start, none)
  (settle pointer (p.beginDrag pointer events grip), clicked)

/-! ## Frames -/

/-- The turn of the wheel in a frame. -/
def wheelDelta (events : List InputEvent) : Float32 :=
  events.foldl (fun turned event =>
    match event with
    | .wheel delta => turned + delta
    | _ => turned) 0

/-- The rows that fit in the panel. -/
def visibleRows (p : ScrollPanel) (request : ScrollRequest) : Nat :=
  Scroll.visibleRows p.height request.rowHeight

/-- The top row after the turn of the wheel, which counts while the pointer is on the panel. -/
def turned (p : ScrollPanel) (request : ScrollRequest) (pointer : Option Point)
    (delta : Float32) : Nat :=
  let top := p.top request.area
  if pointer.any p.contains then Scroll.turn top delta else top

/-- The top row of a frame: the wheel turns it, the followed row is brought into sight,
and the bottom bounds it. -/
def topRow (p : ScrollPanel) (request : ScrollRequest) (pointer : Option Point)
    (delta : Float32) : Checked Nat := do
  let visible := p.visibleRows request
  let top ← Scroll.follow (p.turned request pointer delta) visible request.follow
  return min top (Scroll.maxTop request.total visible)

/-- Remembers the top row of an area. -/
def setTop (p : ScrollPanel) (area top : Nat) : ScrollPanel :=
  { p with tops := p.tops.insert area top }

/-- Whether an area has a scroll bar, which is shown when not all rows fit in the panel. -/
def hasBar (p : ScrollPanel) (request : ScrollRequest) : Bool :=
  p.visibleRows request < request.total

/-- Whether the scroll bar is clicked or dragged in a frame in which the pointer is at a
point in the end. -/
def movesBar (p : ScrollPanel) (request : ScrollRequest) (resting : Option Point)
    (events : List InputEvent) : Bool :=
  let (grip, clicked) := p.gripIn resting events
  p.hasBar request && (clicked = some request.area || grip.dragged = some request.area)

/-- Shows the scroll bar while the pointer is at a point.  When it is moved, the top row
becomes the one for which the handle stands at the pointer. -/
def showBar (p : ScrollPanel) (request : ScrollRequest) (resting : Option Point)
    (pointer : Pointer) (events : List InputEvent) : ScrollPanel :=
  let (grip, _) := p.gripIn resting events
  let shownBar : Option ShownBar :=
    if p.hasBar request then some ⟨request.area, p.barPlace resting⟩ else none
  let moved := match pointer.position with
    | some q =>
      if p.movesBar request resting events then
        let row := Scroll.rowAtHandle p.height (p.visibleRows request) request.total q.y
        p.setTop request.area row
      else p
    | none => p
  { moved with pointer, shownBar, grip }

/-- Shows a frame.  Answers the rows in sight: the first, and the one after the last.  The
scroll bar is shown last, so that moving it is seen in the next frame. -/
def frame (p : ScrollPanel) (request : ScrollRequest) (events : List InputEvent) :
    Checked ((Nat × Nat) × ScrollPanel) := do
  let (input, pointer) := FrameInput.gather p.pointer {} events
  let top ← p.topRow request input.pointer (wheelDelta events)
  let range ← Scroll.range top (p.visibleRows request) request.total
  return (range, (p.setTop request.area top).showBar request input.pointer pointer events)

end ScrollPanel

end HexEditor
