import HexEditor.Address

/-!
# Nibbles

The two halves of a byte, which are typed one after the other.
-/

namespace HexEditor

/-- One half of a byte. -/
inductive Nibble where
  | low
  | high
  deriving DecidableEq, Repr, Inhabited

namespace Nibble

/-- The position of the half in the byte, in bits. -/
def shift : Nibble → Nat
  | low => 0
  | high => 4

def other : Nibble → Nibble
  | low => high
  | high => low

/-- The byte with this half replaced by the low half of `value`. -/
def apply (n : Nibble) (byte value : UInt8) : UInt8 :=
  match n with
  | low => (byte &&& (0xF0 : UInt8)) ||| (value &&& (0x0F : UInt8))
  | high => (byte &&& (0x0F : UInt8)) ||| ((value &&& (0x0F : UInt8)) <<< (4 : UInt8))

end Nibble

end HexEditor
