import HexEditor.Highlight.Region
import HexEditor.Settings.Config

/-!
# Colors

Colors with an opacity, in which the red, the green and the blue part are already
multiplied by the opacity; and the palette in which regions and the selection are
painted.
-/

namespace HexEditor

/-- A color whose parts are multiplied by its opacity. -/
structure Color where
  red : UInt8
  green : UInt8
  blue : UInt8
  alpha : UInt8 := 255
  deriving DecidableEq, Repr, Inhabited

namespace Color

def solid (c : Rgb) : Color := ⟨c.red, c.green, c.blue, 255⟩

def gray (level : UInt8) : Color := ⟨level, level, level, 255⟩

/-- A part of a color multiplied by a factor and rounded. -/
def scalePart (factor : Float32) (part : UInt8) : UInt8 :=
  (part.toFloat32 * factor + 0.5).toUInt8

/-- The color with an opacity, from parts that are not yet multiplied by it. -/
def withAlpha (c : Color) (alpha : UInt8) : Color :=
  if alpha = 0 then ⟨0, 0, 0, 0⟩
  else if alpha = 255 then ⟨c.red, c.green, c.blue, 255⟩
  else
    let scale := scalePart (alpha.toFloat32 / 255)
    ⟨scale c.red, scale c.green, scale c.blue, alpha⟩

def fade (c : Color) (factor : Float32) : Color :=
  let scale := scalePart factor
  ⟨scale c.red, scale c.green, scale c.blue, scale c.alpha⟩

/-- The background of every other row. -/
def alternateRow : Color := ⟨40, 40, 40, 40⟩

def address : Color := gray 140

def ofClass : CellClass → Color
  | .printable => gray 220
  | .unprintable => gray 120
  | .unknown => gray 80

end Color

/-- The colors of the regions and the selection. -/
structure Palette where
  region : Category → Color
  selection : Color
  selectionAlt : Color

def Palette.ofColors (c : ColorConfig) : Palette :=
  { region := fun
      | .string => .solid c.string
      | .data => .solid c.data
      | .instruction => .solid c.instruction
      | .patch => .solid c.patch
      | .synchronized => .solid c.sync
    selection := .solid c.selection
    selectionAlt := .solid c.selectionAlt }

end HexEditor
