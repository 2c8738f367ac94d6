import HexEditor.Cursor.Nibble
import HexEditor.Plane.Layout

/-!
# The cursor

The position in a region, the half of the byte that is typed next, the pane that takes
the typing, and the anchor from which a selection reaches to the cursor.  While a move
is under way, no other move is taken up.
-/

namespace HexEditor

structure Cursor where
  start : Nat := 0
  stop : Nat := 0
  addr : Nat := 0
  nibble : Option Nibble := none
  anchor : Option Nat := none
  pane : Pane := .bytes
  /-- Whether a move is under way. -/
  moving : Bool := false
  deriving DecidableEq, Repr, Inhabited

namespace Cursor

/-- Puts the cursor at the start of the region from `start` up to, not including,
`stop`, without a selection.  Answers whether that changed anything. -/
def setBounds (c : Cursor) (start stop : Nat) : Bool × Cursor :=
  (c.start ≠ start || c.stop ≠ stop || c.addr ≠ start || c.anchor.isSome || c.nibble.isSome,
    { c with start, stop, addr := start, nibble := none, anchor := none })

def inBounds (c : Cursor) (addr : Nat) : Bool := c.start ≤ addr && addr < c.stop

def isSelecting (c : Cursor) : Bool := c.anchor.isSome

def beginSelection (c : Cursor) : Cursor := { c with anchor := some c.addr }

def clearSelection (c : Cursor) : Cursor := { c with anchor := none }

def selection? (c : Cursor) : Option Span := c.anchor.map (Span.hull · c.addr)

/-- The selected addresses, or the cursor alone. -/
def span (c : Cursor) : Span := c.selection?.getD (.single c.addr)

def selectedCount (c : Cursor) : Nat := (c.selection?.map Span.count).getD 0

/-- The cursor after a move.  The pane stays as it is unless one is given. -/
def place (c : Cursor) (addr : Nat) (pane : Option Pane) (nibble : Option Nibble) : Cursor :=
  { c with addr, nibble, pane := pane.getD c.pane }

end Cursor

end HexEditor
