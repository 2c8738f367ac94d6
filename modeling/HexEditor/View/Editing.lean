import HexEditor.View.Basic

/-!
# Editing in a view

The clipboard, the patches that meet the selection, the context menu, and the actions
that it offers.  Whatever may have changed a patch is followed by pumping the view, so
that it shows the patches as they are.
-/

namespace HexEditor.Desk

/-! ## The clipboard -/

/-- Copies the bytes of the selection; an address without a byte counts as zero.
Answers how many were copied. -/
def copySelection (d : Desk) : Checked (Nat × Desk) := do
  match d.view.grid.cursor.selection? with
  | none => return (0, { d with view := { d.view with clipboard := none } })
  | some span =>
    let bytes ← span.toList.mapM fun addr => return (← d.scene.value addr).getD 0
    return (bytes.length, { d with view := { d.view with clipboard := some bytes } })

/-- The desk after the store has answered, pumped, with the answer. -/
def afterReply {α : Type} (d : Desk) (reply : PatchStore.Reply α) :
    Checked (Except PatchError α × Desk) := do
  let d := { d with project := { d.project with patches := reply.store } }
  let (_, d) ← d.pump
  return (reply.answer, d)

/-- Writes the copied bytes at the cursor. -/
def paste (d : Desk) : Checked (Except PatchError Unit × Desk) := do
  match d.view.clipboard with
  | none => return (.ok (), d)
  | some bytes => d.afterReply (← d.project.patches.write d.view.grid.cursor.addr bytes)

/-! ## Selected patches -/

/-- The start addresses of the patches that meet the selection or the cursor, ascending. -/
def selectedPatches (d : Desk) : List Nat :=
  ((d.view.grid.overlay.active.filterMap Region.patchAddr?).mergeSort (· ≤ ·)).eraseReps

/-- Cuts a list of start addresses into runs of patches of which each ends where the
next one starts. -/
def runs (store : PatchStore) : List Nat → Checked (List (List Nat))
  | [] => return []
  | addr :: rest => do
    match ← runs store rest with
    | (next :: run) :: more =>
      if ← store.canMerge addr next then return (addr :: next :: run) :: more
      else return [addr] :: (next :: run) :: more
    | more => return [addr] :: more

/-- The runs of at least two selected patches that can be merged. -/
def mergeableRuns (d : Desk) : Checked (List (List Nat)) :=
  return (← runs d.project.patches d.selectedPatches).filter (1 < ·.length)

def canMergeSelected (d : Desk) : Checked Bool := return !(← d.mergeableRuns).isEmpty

/-- Merges runs of patches one after another, up to the first one that is refused. -/
def mergeRuns (store : PatchStore) : List (List Nat) → Checked (PatchStore.Reply Unit)
  | [] => return ⟨.ok (), store⟩
  | run :: rest => do
    let reply ← store.mergeRun run
    match reply.answer with
    | .ok () => mergeRuns reply.store rest
    | .error _ => return reply

/-- Merges the selected patches that touch.  Answers whether there were any. -/
def mergeSelected (d : Desk) : Checked (Except PatchError Bool × Desk) := do
  let runs ← d.mergeableRuns
  let (answer, d) ← d.afterReply (← mergeRuns d.project.patches runs)
  return (answer.map fun _ => !runs.isEmpty, d)

/-- Reverts the selected patches.  Answers how many there were. -/
def revertSelected (d : Desk) : Checked (Except PatchError Nat × Desk) := do
  let addrs := d.selectedPatches
  let (answer, d) ← d.afterReply (d.project.patches.revertAll addrs)
  return (answer.map fun _ => addrs.length, d)

/-- The patches under the cursor, nearest start first. -/
def patchesUnderCursor (d : Desk) : List Patch :=
  (d.view.grid.regionsUnder.filterMap Region.patchAddr?).filterMap d.project.patches.set.get?

def patchComment? (d : Desk) (addr : Nat) : Option String :=
  (d.project.patches.set.get? addr).bind (·.comment)

/-! ## The context menu -/

def clipboardSection (d : Desk) : List MenuEntry :=
  let selected := d.view.grid.cursor.selectedCount
  let copy : List MenuEntry :=
    if 0 < selected then [.item { label := "Copy " ++ byteCount selected, action := .copy }]
    else []
  let paste : List MenuEntry := match d.view.clipboard with
    | some bytes => [.item { label := "Paste " ++ byteCount bytes.length, action := .paste }]
    | none => []
  copy ++ paste

def patchSection (d : Desk) : List MenuEntry :=
  let cursor := d.view.grid.cursor.addr
  d.view.grid.regionsUnder.filterMap fun r => (r.menu? cursor).map (·.toEntry cursor)

def selectionSection (d : Desk) : Checked (List MenuEntry) := do
  if d.selectedPatches.isEmpty then return []
  else
    return [
      .item { label := "Merge selected patches", action := .mergeSelected,
              enabled := ← d.canMergeSelected },
      .item { label := "Revert selected patches", action := .revertSelected }]

def contextMenu (d : Desk) : Checked ContextMenu :=
  return .ofSections [d.clipboardSection, d.patchSection, ← d.selectionSection]

/-- Carries out an action.  Asking for a comment only asks, and does nothing here. -/
def activate (d : Desk) (action : ViewAction) : Checked (Except PatchError Unit × Desk) := do
  let store := d.project.patches
  match action with
  | .copy =>
    let (_, d) ← d.copySelection
    let (_, d) ← d.pump
    return (.ok (), d)
  | .paste => d.paste
  | .split addr cut => d.afterReply (← store.split addr cut)
  | .editComment _ => d.afterReply ⟨.ok (), store⟩
  | .setComment addr comment => d.afterReply (store.setComment addr comment)
  | .revert addr =>
    let (answer, d) ← d.afterReply (store.revert addr)
    return (answer.map fun _ => (), d)
  | .mergeSelected =>
    let (answer, d) ← d.mergeSelected
    return (answer.map fun _ => (), d)
  | .revertSelected =>
    let (answer, d) ← d.revertSelected
    return (answer.map fun _ => (), d)

end HexEditor.Desk
