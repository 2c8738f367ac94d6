import HexEditor.Text.Hexadecimal

/-!
# Previews of bytes

The first bytes of a sequence in hexadecimal, and dots when there are more.
-/

namespace HexEditor.Text

/-- At most `limit` bytes in hexadecimal, separated by blanks. -/
def preview (bytes : List UInt8) (limit : Nat) : String :=
  let shown := (bytes.take limit).map fun b => Hexadecimal.lowerPadded 2 b.toNat
  String.intercalate " " shown ++ (if limit < bytes.length then " ..." else "")

end HexEditor.Text
