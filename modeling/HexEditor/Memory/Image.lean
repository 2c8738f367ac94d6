import HexEditor.Address
import HexEditor.OrderedMap

/-!
# Memory images

What was loaded: runs of bytes, each at a base address.  The byte at an address comes
from the segment with the greatest base at or below it.
-/

namespace HexEditor

/-- The loaded segments by base address. -/
structure Image where
  segments : OrderedMap (List UInt8) := ∅

namespace Image

instance : Inhabited Image := ⟨{}⟩

def empty : Image := {}

/-- Loads `bytes` at `base`, instead of a segment that was loaded at the same address.
Loading nothing does nothing. -/
def addSegment (m : Image) (base : Nat) (bytes : List UInt8) : Image :=
  if bytes.isEmpty then m else { segments := m.segments.insert base bytes }

def ofBytes (base : Nat) (bytes : List UInt8) : Image := empty.addSegment base bytes

/-- The image of some segments, loaded one after another. -/
def ofSegments (segments : List (Nat × List UInt8)) : Image :=
  segments.foldl (fun m s => m.addSegment s.1 s.2) empty

def first? (m : Image) : Option Nat := m.segments.keys.head?

/-- The greatest last address of a segment. -/
def last? (m : Image) : Checked (Option Nat) :=
  return (← m.segments.entries.mapM fun s => checkedAdd s.1 (s.2.length - 1)).max?

/-- The range from the least to the greatest loaded address. -/
def bounds? (m : Image) : Checked (Option Span) := do
  match m.first?, ← m.last? with
  | some first, some last => return some ⟨first, last⟩
  | _, _ => return none

def size (m : Image) : Nat := m.segments.values.flatten.length

def isEmpty (m : Image) : Bool := m.segments.isEmpty

def get? (m : Image) (addr : Nat) : Option UInt8 :=
  match m.segments.floor? addr with
  | some (base, bytes) => bytes[addr - base]?
  | none => none

/-- Changes the loaded byte at `addr`; none when there is none. -/
def set? (m : Image) (addr : Nat) (value : UInt8) : Option Image :=
  match m.segments.floor? addr with
  | some (base, bytes) =>
    if addr - base < bytes.length then
      some { segments := m.segments.insert base (bytes.set (addr - base) value) }
    else none
  | none => none

end Image

end HexEditor
