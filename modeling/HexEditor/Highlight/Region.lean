import HexEditor.Address
import HexEditor.Text.Hexadecimal

/-!
# Highlight regions

A region is a range of addresses painted in the color of its category.  Regions that
stand for a patch offer actions on it; all others are only shown.
-/

namespace HexEditor

/-- What a region shows, which decides its color. -/
inductive Category where
  | string
  | data
  | instruction
  | patch
  | synchronized
  deriving DecidableEq, Repr, Inhabited

/-- Whether a region stands for a patch that starts at its address. -/
inductive RegionKind where
  | plain
  | patch
  deriving DecidableEq, Repr, Inhabited

/-- A painted range of addresses, which is not empty and fits the address space. -/
structure Region where
  category : Category
  addr : Nat
  size : Nat
  /-- Whether the range meets the cursor or the selection. -/
  active : Bool := false
  kind : RegionKind := .plain
  size_pos : 0 < size
  last_le : addr + (size - 1) ≤ maxAddress
  deriving DecidableEq, Repr

/-- An action that the menu of a patch region offers. -/
inductive RegionAction where
  | split
  | setComment
  | revert
  deriving DecidableEq, Repr

def RegionAction.label : RegionAction → String
  | split => "Split"
  | setComment => "Set Comment..."
  | revert => "Revert"

/-- The menu of a patch region: each action, and whether it can be chosen. -/
structure RegionMenu where
  title : String
  patchAddr : Nat
  items : List (RegionAction × Bool)
  deriving DecidableEq, Repr

namespace Region

/-- The plain region of `size` addresses from `addr` on, if there is such a range. -/
def plain? (category : Category) (addr size : Nat) : Option Region :=
  if h : 0 < size ∧ addr + (size - 1) ≤ maxAddress then
    some { category, addr, size, size_pos := h.1, last_le := h.2 }
  else none

/-- The region of the patch of `size` bytes at `addr`, if there is such a range. -/
def patch? (addr size : Nat) : Option Region :=
  (plain? .patch addr size).map fun r => { r with kind := .patch }

def last (r : Region) : Nat := r.addr + (r.size - 1)

/-- The first address after the region, or the greatest address. -/
def stop (r : Region) : Nat := clampedAdd r.addr r.size

def contains (r : Region) (addr : Nat) : Bool := r.addr ≤ addr && addr ≤ r.last

/-- Whether the region shares an address with the range from `low` to `high`. -/
def overlaps (r : Region) (low high : Nat) : Bool := r.addr ≤ high && low ≤ r.last

def isMutable (r : Region) : Bool := r.kind == .patch

def patchAddr? (r : Region) : Option Nat := if r.isMutable then some r.addr else none

/-- Whether `cursor` lies strictly inside the patch. -/
def canSplit (r : Region) (cursor : Nat) : Bool :=
  r.isMutable && r.addr < cursor && cursor < r.stop

/-- Whether both regions stand for patches and the second starts where the first ends. -/
def canMergeWith (r other : Region) : Bool :=
  r.isMutable && other.isMutable && other.addr == r.stop

/-- The menu of a patch region for a cursor position. -/
def menu? (r : Region) (cursor : Nat) : Option RegionMenu :=
  if r.isMutable then
    some { title := "Patch 0x" ++ Hexadecimal.lower r.addr ++ " (" ++ toString r.size ++ " bytes)"
           patchAddr := r.addr
           items := [(.split, r.canSplit cursor), (.setComment, true), (.revert, true)] }
  else none

/-- The region marked as active exactly when it meets `span`. -/
def mark (span : Span) (r : Region) : Region :=
  { r with active := r.overlaps span.first span.last }

end Region

end HexEditor
