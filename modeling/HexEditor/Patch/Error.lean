import HexEditor.Text.Hexadecimal

/-!
# Refusals of the patch store

Why a change of the patches is refused, and the text shown for it.
-/

namespace HexEditor

/-- Why a change of the patches is refused. -/
inductive PatchError where
  /-- The split point is not strictly inside the patch. -/
  | invalidSplit (addr cut : Nat)
  /-- The second patch does not start where the first one ends. -/
  | notAdjacent (addr other : Nat)
  /-- No patch starts at the address. -/
  | notFound (addr : Nat)
  /-- The written range does not fit the address space. -/
  | addressOverflow (addr size : Nat)
  /-- A patch meets the written range in a way that no set without overlaps allows. -/
  | overlapInvariant (patchAddr patchLast addr last : Nat)
  deriving DecidableEq, Repr

namespace PatchError

open Hexadecimal (upper)

def message : PatchError → String
  | invalidSplit addr cut =>
    "Cannot split patch at 0x" ++ upper addr ++ ": 0x" ++ upper cut
      ++ " is not an interior address"
  | notAdjacent addr other =>
    "Patch at 0x" ++ upper other ++ " is not directly adjacent to patch at 0x" ++ upper addr
  | notFound addr => "No patch found at address: 0x" ++ upper addr
  | addressOverflow addr size =>
    "Write of " ++ toString size ++ " bytes at 0x" ++ upper addr
      ++ " overflows the address space"
  | overlapInvariant patchAddr patchLast addr last =>
    "Patch 0x" ++ upper patchAddr ++ "..=0x" ++ upper patchLast ++ " intersects write 0x"
      ++ upper addr ++ "..=0x" ++ upper last ++ " in an unsupported way"

end PatchError

end HexEditor
