import HexEditor.Proofs.OrderedMap
import HexEditor.Screen.Scroll
import Mathlib

/-!
# A followed row comes into sight

Three things move the top row of a frame, one after the other: the wheel turns it, the row that is
followed draws it near, and the bottom bounds it.  What comes last might undo what the second has
done.  It does not, since at the bottom one row is left empty: from the greatest top row on there
is room for one row more than there are (`min_maxTop_in_sight`).

Nothing is asked of the top row that was remembered, so that it does not matter what has happened
to the area before, nor whether the panel or the number of rows has changed since.  The scroll bar
is shown when the top row of the frame is settled, and where it puts the top row is bounded by the
next frame.
-/

namespace HexEditor

/-- The rows from `first` up to `stop` are there, `first` leaves at most one row empty at the bottom
when `visible` rows fit in, and the row that is followed is one of these. -/
structure ScrollRequest.Shown (request : ScrollRequest) (visible first stop : Nat) : Prop where
  first_le_stop : first ≤ stop
  stop_le : stop ≤ request.total
  bounded : first ≤ request.total - (visible - 1)
  follows : ∀ row ∈ request.follow, row < request.total →
    first ≤ row ∧ row < stop ∧ row < first + visible

namespace Scroll

variable {top visible total row : Nat}

end Scroll

namespace ScrollPanel

variable {p : ScrollPanel} {request : ScrollRequest} {resting : Option Point}
  {events : List InputEvent}

/-- Where the pointer is at the end of a frame. -/
def pointerAfter (p : ScrollPanel) (events : List InputEvent) : Option Point :=
  (FrameInput.gather p.pointer {} events).1.pointer

/-- The row after the last one in sight is an address, before the followed row is brought into
sight and when it is the last one that fits in. -/
structure Fits (p : ScrollPanel) (request : ScrollRequest) (events : List InputEvent) : Prop where
  turned : p.turned request (p.pointerAfter events) (wheelDelta events) +
    p.visibleRows request + 1 ≤ maxAddress
  followed : ∀ row ∈ request.follow, row + 2 ≤ maxAddress

end ScrollPanel

end HexEditor
