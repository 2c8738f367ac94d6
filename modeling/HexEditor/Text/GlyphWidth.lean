/-!
# The widths of characters

In the text of a field every character begins at a full pixel.  A click takes the place
in front of the first character whose middle lies to the right of the pointer.

Widths are counted in ten thousandths of a pixel.
-/

namespace HexEditor.Text

/-- The widths of the printable characters, in thousandths of the size of the font. -/
def glyphWidths : List Nat :=
  [227, 247, 391, 665, 564, 830, 651, 221, 312, 312, 465, 564, 220, 299, 220, 372,
    564, 564, 564, 564, 564, 564, 564, 564, 564, 564, 220, 220, 564, 564, 564, 387,
    944, 640, 626, 609, 700, 553, 522, 660, 704, 253, 494, 604, 504, 844, 730, 765,
    601, 765, 613, 525, 547, 679, 627, 885, 583, 572, 545, 312, 372, 312, 564, 496,
    372, 508, 573, 457, 573, 545, 375, 567, 556, 234, 234, 486, 254, 848, 556, 573,
    573, 573, 363, 421, 380, 553, 463, 729, 470, 464, 443, 316, 252, 316, 564]

/-- The size of the font in tenths of a pixel. -/
def fieldFontSize : Nat := 125

/-- The length of a pixel. -/
def pixel : Nat := 10000

/-- The width of a character; one that is not listed is as wide as a digit. -/
def glyphWidth (c : Char) : Nat :=
  (if c.toNat < 0x20 then 564 else glyphWidths[c.toNat - 0x20]?.getD 564) * fieldFontSize

/-- The width that a character takes up, which is rounded to full pixels. -/
def slotWidth (c : Char) : Nat := (glyphWidth c + pixel / 2) / pixel * pixel

def lineWidth : List Char → Nat
  | [] => 0
  | [c] => glyphWidth c
  | c :: rest => slotWidth c + lineWidth rest

/-- The place that a click takes at twice the distance `doubled` from the left end. -/
def placeAt (doubled : Nat) : List Char → Nat
  | [] => 0
  | c :: rest =>
    if doubled < glyphWidth c then 0 else placeAt (doubled - 2 * slotWidth c) rest + 1

/-- The place that a click in the middle of a text takes. -/
def middlePlace (text : List Char) : Nat := placeAt (lineWidth text) text

end HexEditor.Text
