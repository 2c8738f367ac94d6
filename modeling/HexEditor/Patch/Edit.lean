import HexEditor.Patch.Store

/-!
# Splitting, merging and reverting patches

The requests that name patches by their start addresses.  Each is refused without a
change when a named patch does not exist.
-/

namespace HexEditor.PatchStore

/-- Whether `cut` lies strictly inside the patch that starts at `addr`. -/
def canSplit (s : PatchStore) (addr cut : Nat) : Checked Bool :=
  match s.set.get? addr with
  | none => return false
  | some p => if p.addr < cut then return cut < (← p.stop?) else return false

/-- Splits the patch at `addr` in two at `cut`; both halves carry its comment. -/
def split (s : PatchStore) (addr cut : Nat) : Checked (Reply Unit) := do
  match s.set.get? addr with
  | none => return s.refuse (.notFound addr)
  | some p =>
    if ← s.canSplit addr cut then
      let (left, right) ← checkedSplit p.bytes (← checkedSub cut addr)
      let set := s.set.modify addr fun p => { p with bytes := left }
      return ⟨.ok (), s.changedTo (PatchSet.add set { p with addr := cut, bytes := right })⟩
    else
      return s.refuse (.invalidSplit addr cut)

/-- Whether both patches exist and the second starts where the first one ends. -/
def canMerge (s : PatchStore) (addr other : Nat) : Checked Bool := do
  match s.set.get? addr with
  | none => return false
  | some p => return (← p.stop?) = other ∧ s.set.contains other

/-- The first of some start addresses at which no patch starts. -/
def firstMissing? (s : PatchStore) (addrs : List Nat) : Option Nat :=
  addrs.find? (fun a => !s.set.contains a)

/-- The first two neighbours of a list that cannot be merged. -/
def firstApart? (s : PatchStore) : List Nat → Checked (Option (Nat × Nat))
  | a :: b :: rest => do
    if ← s.canMerge a b then s.firstApart? (b :: rest) else return some (a, b)
  | _ => return none

/-- Takes the patches at `rest` out of the set and appends each to the patch at `head`.
A start address that comes twice is missing the second time. -/
def absorb (head : Nat) : List Nat → PatchSet → Except PatchError Unit × PatchSet
  | [], s => (.ok (), s)
  | other :: rest, s =>
    match s.get? other with
    | none => (.error (.notFound other), s)
    | some tail =>
      let s := s.erase other
      if s.contains head then absorb head rest (s.modify head (·.append tail.bytes))
      else (.error (.notFound head), s)

/-- Merges patches, of which each starts where the one before ends, into the first. -/
def mergeRun (s : PatchStore) (addrs : List Nat) : Checked (Reply Unit) := do
  match s.firstMissing? addrs with
  | some addr => return s.refuse (.notFound addr)
  | none =>
    match ← s.firstApart? addrs with
    | some (addr, other) => return s.refuse (.notAdjacent addr other)
    | none =>
      match addrs with
      | head :: second :: rest =>
        match absorb head (second :: rest) s.set with
        | (.ok (), set) => return ⟨.ok (), s.changedTo set⟩
        | (.error e, set) => return ⟨.error e, { s with set }⟩
      | _ => return ⟨.ok (), s⟩

/-- Merges the patch at `other` into the patch at `addr`, which ends where it starts. -/
def merge (s : PatchStore) (addr other : Nat) : Checked (Reply Unit) := s.mergeRun [addr, other]

/-- Removes the patch at `addr` and answers it. -/
def revert (s : PatchStore) (addr : Nat) : Reply Patch :=
  match s.set.get? addr with
  | none => s.refuse (.notFound addr)
  | some p => ⟨.ok p, s.changedTo (s.set.erase addr)⟩

/-- Removes the patches at all the given start addresses. -/
def revertAll (s : PatchStore) (addrs : List Nat) : Reply Unit :=
  match s.firstMissing? addrs with
  | some addr => s.refuse (.notFound addr)
  | none =>
    if addrs.isEmpty then ⟨.ok (), s⟩
    else ⟨.ok (), s.changedTo (addrs.foldl OrderedMap.erase s.set)⟩

/-- Sets the comment of the patch at `addr`; an empty comment is no comment. -/
def setComment (s : PatchStore) (addr : Nat) (comment : Option String) : Reply Unit :=
  if s.set.contains addr then
    let comment := comment.filter (· ≠ "")
    ⟨.ok (), s.changedTo (s.set.modify addr fun p => { p with comment })⟩
  else
    s.refuse (.notFound addr)

end HexEditor.PatchStore
