import HexEditor.Grid.Cell
import HexEditor.Memory.Image
import HexEditor.Memory.Item

/-!
# Strings in an image

A string is a run of printable bytes that cannot be made longer within its segment.
Strings of a least length are the items that are known of a file when it is loaded.
-/

namespace HexEditor

/-- A run of printable bytes: the offset at which it starts, and its length. -/
structure PrintableRun where
  offset : Nat
  size : Nat
  deriving DecidableEq, Repr, Inhabited

/-- The runs of printable bytes in a list that begins at `offset`.  The last `before`
bytes before it were printable as well. -/
def printableRunsFrom (offset before : Nat) : List UInt8 → List PrintableRun
  | [] => if before = 0 then [] else [⟨offset - before, before⟩]
  | b :: rest =>
    if isPrintable b then printableRunsFrom (offset + 1) (before + 1) rest
    else if before = 0 then printableRunsFrom (offset + 1) 0 rest
    else ⟨offset - before, before⟩ :: printableRunsFrom (offset + 1) 0 rest

def printableRuns (bytes : List UInt8) : List PrintableRun := printableRunsFrom 0 0 bytes

namespace Image

/-- The length from which on a run counts as a string when a file is loaded. -/
def leastStringSize : Nat := 4

def segmentStrings (least base : Nat) (bytes : List UInt8) : Checked (List Item) :=
  ((printableRuns bytes).filter (least ≤ ·.size)).mapM fun run =>
    return .data (← checkedAdd base run.offset) run.size .string

/-- The strings of an image that have at least `least` bytes. -/
def strings (m : Image) (least : Nat) : Checked ItemMap := do
  let items ← m.segments.entries.mapM fun s => segmentStrings least s.1 s.2
  return .ofList items.flatten

end Image

end HexEditor
