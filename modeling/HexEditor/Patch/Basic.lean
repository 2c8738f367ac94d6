import HexEditor.Address

/-!
# Patches

A patch is a run of bytes that replaces what was loaded from its address on, with an
optional comment.
-/

namespace HexEditor

/-- A pending overwrite of consecutive bytes. -/
structure Patch where
  addr : Nat
  bytes : List UInt8
  comment : Option String := none
  deriving DecidableEq, Repr, Inhabited

namespace Patch

def size (p : Patch) : Nat := p.bytes.length

def isEmpty (p : Patch) : Bool := p.bytes.isEmpty

/-- The first number after the patch, which need not be an address. -/
def stop (p : Patch) : Nat := p.addr + p.size

def stop? (p : Patch) : Checked Nat := checkedAdd p.addr p.size

/-- The last overwritten address; it has no meaning for an empty patch. -/
def last? (p : Patch) : Checked Nat := return (← p.stop?) - 1

/-- Whether `addr` is overwritten. -/
def contains (p : Patch) (addr : Nat) : Checked Bool :=
  if p.addr ≤ addr then return addr < (← p.stop?) else return false

/-- The byte that the patch puts at `addr`. -/
def byteAt? (p : Patch) (addr : Nat) : Option UInt8 :=
  if p.addr ≤ addr then p.bytes[addr - p.addr]? else none

def append (p : Patch) (bytes : List UInt8) : Patch := { p with bytes := p.bytes ++ bytes }

/-- The patch with its bytes from `addr` on replaced by as many of `bytes`. -/
def splice (p : Patch) (addr : Nat) (bytes : List UInt8) : Checked Patch := do
  let before ← checkedSub addr p.addr
  let (kept, after) ← checkedSplit p.bytes (← checkedAdd before bytes.length)
  return { p with bytes := kept.take before ++ bytes ++ after }

/-- What the patch overwrites below `addr`, which is all of it when it ends before. -/
def keepBelow (p : Patch) (addr : Nat) : Checked Patch :=
  return { p with bytes := p.bytes.take (← checkedSub addr p.addr) }

/-- What the patch overwrites from `addr` on. -/
def keepFrom (p : Patch) (addr : Nat) : Checked Patch :=
  return { p with addr := addr, bytes := (← checkedSplit p.bytes (← checkedSub addr p.addr)).2 }

end Patch

end HexEditor
