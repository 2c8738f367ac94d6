import HexEditor.Address
import HexEditor.Text.Hexadecimal

/-!
# Cells

How one byte, or an address without a byte, is shown in the two panes.
-/

namespace HexEditor

def isPrintable (b : UInt8) : Bool := 0x20 ≤ b && b ≤ 0x7E

inductive CellClass where
  | printable
  | unprintable
  | unknown
  deriving DecidableEq, Repr, Inhabited

/-- The class of what is at an address. -/
def CellClass.of : Option UInt8 → CellClass
  | some b => if isPrintable b then .printable else .unprintable
  | none => .unknown

structure Cell where
  col : Nat
  addr : Nat
  hexText : String
  ascii : Char
  cellClass : CellClass
  deriving DecidableEq, Repr, Inhabited

/-- The cell of what is at an address: two digits and a character, or question marks. -/
def Cell.of (col addr : Nat) (value : Option UInt8) : Cell :=
  { col, addr
    hexText := match value with
      | some b => Hexadecimal.lowerPadded 2 b.toNat
      | none => "??"
    ascii := match value with
      | some b => if isPrintable b then Char.ofNat b.toNat else '.'
      | none => '?'
    cellClass := .of value }

/-- A row of a grid.  The cells outside the region are missing. -/
structure Row where
  row : Nat
  addr : Nat
  addrText : String
  /-- Every other row is set off by its background. -/
  alternate : Bool
  cells : List Cell
  deriving DecidableEq, Repr, Inhabited

end HexEditor
