import HexEditor.Settings.Toml.Document
import HexEditor.View.Basic

/-!
# The configuration

What the user can set in a TOML file: the size of the font, the blink interval, whether
the item around the cursor is highlighted, and the colors.  What a file does not set
keeps its default, and keys that mean nothing are ignored.

A section is a table of settings, or an array of their values in the order in which the
settings are listed here.
-/

namespace HexEditor

structure Rgb where
  red : UInt8
  green : UInt8
  blue : UInt8
  deriving DecidableEq, Repr, Inhabited

structure ColorConfig where
  string : Rgb := ⟨0x00, 0xa0, 0xe8⟩
  data : Rgb := ⟨0xe8, 0xa0, 0x00⟩
  instruction : Rgb := ⟨0xe8, 0x60, 0x60⟩
  patch : Rgb := ⟨0xa0, 0xa0, 0xa0⟩
  sync : Rgb := ⟨0x60, 0xc0, 0x60⟩
  selection : Rgb := ⟨0x33, 0x99, 0xff⟩
  selectionAlt : Rgb := ⟨0x80, 0x80, 0x80⟩
  deriving DecidableEq, Repr, Inhabited

structure Config where
  fontSize : Float32 := 13
  /-- The blink interval in milliseconds; zero stops the blinking. -/
  blinkIntervalMs : Nat := 750
  smart : Bool := true
  colors : ColorConfig := {}
  deriving BEq, Repr, Inhabited

namespace Config

open Toml (Value Entries)

/-- How a view is set up by the configuration. -/
def viewOptions (c : Config) (metrics : CellMetrics) : ViewOptions :=
  { metrics, smart := c.smart, blinkInterval := c.blinkIntervalMs * 1000000 }

/-! ## Reading values -/

mutual

/-- Whether a value can be passed over: no number in it is too large to be read. -/
def canIgnore : Value → Bool
  | .tooLarge => false
  | .array vs => canIgnoreAll vs
  | .tables vs => canIgnoreAll vs
  | .table _ es => canIgnoreEntries es
  | .string _ | .integer _ | .real _ | .boolean _ | .datetime => true

/-- Whether all of some values can be passed over. -/
def canIgnoreAll : List Value → Bool
  | [] => true
  | v :: vs => canIgnore v && canIgnoreAll vs

/-- Whether the values of all entries can be passed over. -/
def canIgnoreEntries : List (String × Value) → Bool
  | [] => true
  | (_, v) :: es => canIgnore v && canIgnoreEntries es

end

/-- A whole number as a binary32 number. -/
def ofInt (n : Int) : Float32 :=
  let x := n.natAbs.toUInt64.toFloat32
  if n < 0 then -x else x

/-- A number of pixels. -/
def readPixels? : Value → Option Float32
  | .real x => some x.toFloat32
  | .integer n => if Int64.minValue.toInt ≤ n ∧ n < UInt64.size then some (ofInt n) else none
  | _ => none

/-- A count of at most 64 bits. -/
def readCount? : Value → Option Nat
  | .integer n => if 0 ≤ n ∧ n < UInt64.size then some n.toNat else none
  | _ => none

def readFlag? : Value → Option Bool
  | .boolean b => some b
  | _ => none

/-- One part of a color. -/
def readPart? : Value → Option UInt8
  | .integer n => if 0 ≤ n ∧ n < 256 then some (UInt8.ofNat n.toNat) else none
  | _ => none

/-- The elements of an array of either kind. -/
def elements? : Value → Option (List Value)
  | .array vs | .tables vs => some vs
  | _ => none

/-- A color: the first three elements of an array. -/
def readColor? (v : Value) : Option Rgb := do
  match ← elements? v with
  | red :: green :: blue :: _ => return ⟨← readPart? red, ← readPart? green, ← readPart? blue⟩
  | _ => none

/-! ## Reading sections -/

/-- A setting of a section: its key, and what its value does to what is set. -/
structure Setting (α : Type) where
  key : String
  set : α → Value → Option α

/-- Applies the entries of a table; entries that are no settings are passed over. -/
def applyEntries {α : Type} (settings : List (Setting α)) (start : α) (es : Entries) : Option α :=
  es.foldlM (fun acc e =>
    match settings.find? (·.key == e.1) with
    | some setting => setting.set acc e.2
    | none => if canIgnore e.2 then some acc else none) start

/-- Applies the values of an array to the settings in their order. -/
def applyElements {α : Type} : List (Setting α) → α → List Value → Option α
  | setting :: settings, acc, v :: vs => do applyElements settings (← setting.set acc v) vs
  | _, acc, _ => some acc

/-- Applies a section.  A date has no settings. -/
def applySection {α : Type} (settings : List (Setting α)) (start : α) : Value → Option α
  | .table _ es => applyEntries settings start es
  | .array vs | .tables vs => applyElements settings start vs
  | .datetime => some start
  | _ => none

/-- A setting whose value is read by `read?` and stored by `store`. -/
def setting {α β : Type} (key : String) (read? : Value → Option β) (store : α → β → α) :
    Setting α :=
  { key, set := fun acc v => (read? v).map (store acc) }

/-- A section of the configuration. -/
def ofSection (key : String) (settings : List (Setting Config)) : Setting Config :=
  { key, set := applySection settings }

/-- A setting of a color. -/
def color (key : String) (store : ColorConfig → Rgb → ColorConfig) : Setting Config :=
  setting key readColor? fun c rgb => { c with colors := store c.colors rgb }

/-- All sections with their settings. -/
def sections : List (Setting Config) :=
  [ofSection "layout" [setting "font_size" readPixels? fun c x => { c with fontSize := x }],
    ofSection "cursor"
      [setting "blink_interval_ms" readCount? fun c n => { c with blinkIntervalMs := n }],
    ofSection "highlight" [setting "smart" readFlag? fun c b => { c with smart := b }],
    ofSection "colors"
      [color "string" fun c rgb => { c with string := rgb },
        color "data" fun c rgb => { c with data := rgb },
        color "instruction" fun c rgb => { c with instruction := rgb },
        color "patch" fun c rgb => { c with patch := rgb },
        color "sync" fun c rgb => { c with sync := rgb },
        color "selection" fun c rgb => { c with selection := rgb },
        color "selection_alt" fun c rgb => { c with selectionAlt := rgb }]]

/-- The configuration of a text; none when it is malformed or a setting does not fit. -/
def parse? (text : String) : Option Config := do
  applyEntries sections {} (← Toml.parse? text)

/-! ## Files -/

/-- The contents of the file that is used: the one in the working directory, if there is
one, else the one in the user's directory. -/
def discover (inWorkingDir inUserDir : Option ByteArray) : Option ByteArray :=
  inWorkingDir.or inUserDir

/-- The configuration of a file.  A file that is missing, or is no configuration, leaves
the defaults. -/
def ofFile (contents : Option ByteArray) : Config :=
  ((contents.bind String.fromUTF8?).bind parse?).getD {}

end Config

end HexEditor
