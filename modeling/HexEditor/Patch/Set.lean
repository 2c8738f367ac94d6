import HexEditor.OrderedMap
import HexEditor.Patch.Basic

/-!
# Patch sets

The patches of a project, each kept under its start address.  `overlapping` finds the
patches that meet a range by walking down from the end of the range and stopping at
the first patch that ends at or before its start: patches that do not overlap end in
the order in which they start.
-/

namespace HexEditor

abbrev PatchSet := OrderedMap Patch

namespace PatchSet

/-- Puts a patch under its start address; a patch that started there is replaced. -/
def add (s : PatchSet) (p : Patch) : PatchSet := s.insert p.addr p

/-- The set that holds the given patches, of which later ones replace earlier ones. -/
def ofList (ps : List Patch) : PatchSet := ps.foldl add ∅

/-- The entries that the walk down from `last` passes before it stops, ascending. -/
def scan (s : PatchSet) (addr last : Nat) : List (Nat × Patch) :=
  ((s.upTo last).reverse.takeWhile (fun e => addr < e.2.stop)).reverse

/-- The entries whose patches meet the `size` addresses from `addr` on, ascending.
The walk has to form the end of every patch it passes. -/
def overlappingEntries (s : PatchSet) (addr size : Nat) : Checked (List (Nat × Patch)) :=
  if size = 0 then .ok []
  else
    let found := s.scan addr (clampedAdd addr (size - 1))
    if found.all (fun e => e.2.stop ≤ maxAddress) then .ok found else .error .overflow

/-- The start addresses of the patches that meet the `size` addresses from `addr` on. -/
def overlapping (s : PatchSet) (addr size : Nat) : Checked (List Nat) :=
  return (← s.overlappingEntries addr size).map (·.1)

end PatchSet

end HexEditor
