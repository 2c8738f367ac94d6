import HexEditor.Address
import HexEditor.Text.Blank
import HexEditor.Text.Hexadecimal

/-!
# Typed addresses

An address is typed in hexadecimal digits of either case, with blanks around it, with
or without `0x` in front.
-/

namespace HexEditor.Text

/-- The text without the mark of a hexadecimal number in front of it. -/
def dropHexMark : List Char → List Char
  | '0' :: 'x' :: rest => rest
  | '0' :: 'X' :: rest => rest
  | text => text

/-- The text without one plus sign in front of it. -/
def dropPlus : List Char → List Char
  | '+' :: rest => rest
  | text => text

/-- The value of digits, of which there is at least one, if it is an address.  A plus
sign may stand in front. -/
def numeral? (text : List Char) : Option Nat :=
  match dropPlus text with
  | [] => none
  | digits => (Hexadecimal.valueFrom? 0 digits).filter (· ≤ maxAddress)

def address? (text : String) : Option Nat := numeral? (dropHexMark (trim text.toList))

end HexEditor.Text
