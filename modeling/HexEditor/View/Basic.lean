import HexEditor.Grid.Dispatch
import HexEditor.View.Action

/-!
# Views

A view is a grid that shows a project and takes part in a synchronization group.  It
hears of changes through two mailboxes, one at the patch store and one at the group.
Pumping a view empties them, renews what they make stale, follows the cursor of another
member, and publishes the view's own selection if that has changed.

A desk is a view together with the project and the group that it shares with others;
the operations of a view are operations of its desk.
-/

namespace HexEditor

/-- How a view is set up. -/
structure ViewOptions where
  metrics : CellMetrics := {}
  /-- Whether the item around the cursor is highlighted. -/
  smart : Bool := true
  blinkInterval : Nat := defaultBlinkInterval
  /-- Whether the cursor goes along when another member moves its own. -/
  follow : Bool := true

/-- A grid that shows a project in a group. -/
structure View where
  member : MemberId
  grid : Grid
  smart : Bool
  follow : Bool
  patchInbox : SubscriberId
  syncInbox : SubscriberId
  clipboard : Option (List UInt8) := none
  /-- The selection that was published last. -/
  published : Option Span := none

instance : Inhabited View := ⟨⟨0, default, true, true, 0, 0, none, none⟩⟩

/-- A view with what it shares. -/
structure Desk where
  view : View
  project : Project
  group : SyncGroup
  now : Nat := 0
  /-- What the scripts of all grids have recorded. -/
  log : List ListenerCall := []

namespace Desk

/-- The view's grid in its surroundings. -/
def scene (d : Desk) : Scene :=
  { grid := d.view.grid
    around :=
      { project := d.project, group := d.group, member := d.view.member,
        smart := d.view.smart, now := d.now, log := d.log } }

/-- The desk after something has happened to its scene. -/
def withScene (d : Desk) (s : Scene) : Desk :=
  { d with
    view := { d.view with grid := s.grid }
    project := s.around.project
    group := s.around.group
    log := s.around.log }

/-- Does something to the grid. -/
def onGrid {α : Type} (d : Desk) (op : Scene → Checked (α × Scene)) : Checked (α × Desk) := do
  let (answer, s) ← op d.scene
  return (answer, d.withScene s)

def mapGrid (d : Desk) (f : Grid → Grid) : Desk :=
  { d with view := { d.view with grid := f d.view.grid } }

/-! ## What a view keeps in step -/

/-- Highlights the item around the cursor, if that is asked for. -/
def refreshHighlights (d : Desk) : Desk := d.withScene d.scene.refreshHighlights

def refreshPatchRegions (d : Desk) : Desk := d.mapGrid (·.setPatches d.project.patchRegions)

/-- Shows what the other members have selected. -/
def refreshSyncRegions (d : Desk) : Desk :=
  d.mapGrid (·.setSynchronized <|
    (d.group.rangesExcept d.view.member).filterMap fun r =>
      Region.plain? .synchronized r.addr r.size)

/-- Draws the cursor also without the focus when there are other members. -/
def refreshAlwaysShow (d : Desk) : Desk :=
  d.mapGrid (·.setAlwaysShow (1 < d.group.memberCount))

/-- The ranges that a selection is published as. -/
def publishedRanges (selection : Option Span) : List AddrRange :=
  selection.toList.map fun s => ⟨s.first, s.count⟩

/-- Publishes the selection, unless it is the one published last. -/
def publishSelection (d : Desk) : Desk :=
  let selection := d.view.grid.cursor.selection?
  if selection = d.view.published then d
  else
    { d with
      group := d.group.publish d.view.member (publishedRanges selection)
      view := { d.view with published := selection } }

/-! ## Opening and closing -/

/-- The desk of a new view with the given grid: it joins the group, subscribes to the group
and to the store, and shows everything as it is. -/
def settle (project : Project) (group : SyncGroup) (options : ViewOptions) (now : Nat)
    (grid : Grid) : Desk :=
  let (member, group) := group.join
  let (syncInbox, group) := group.subscribe
  let (patchInbox, patches) := project.patches.subscribe
  let view : View :=
    { member, grid := grid.listen .viewUpkeep, smart := options.smart, follow := options.follow,
      patchInbox, syncInbox }
  let desk : Desk := { view, project := { project with patches }, group, now }
  desk.refreshAlwaysShow.refreshHighlights.refreshPatchRegions.refreshSyncRegions

/-- Opens a view of a project in a group. -/
def openView (project : Project) (group : SyncGroup) (options : ViewOptions) (now : Nat) :
    Checked Desk := do
  let (start, size) ← project.region
  let grid := (Grid.create options.metrics).setBlinkInterval options.blinkInterval
  return settle project group options now (← grid.setRegion .project start size)

/-- Closes the view.  What is left are the project and the group. -/
def close (d : Desk) : Project × SyncGroup :=
  let group := d.group.leave d.view.member
  let patches := { d.project.patches with
    changes := d.project.patches.changes.unsubscribe d.view.patchInbox }
  ({ d.project with patches }, { group with events := group.events.unsubscribe d.view.syncInbox })

/-! ## Pumping -/

/-- Whether another member has published other ranges. -/
def regionsChanged (me : MemberId) (events : List SyncEvent) : Bool :=
  events.any fun
    | .regionsChanged owner => owner ≠ me
    | _ => false

/-- The last cursor that another member has published. -/
def followTarget? (me : MemberId) (events : List SyncEvent) : Option Nat :=
  (events.filterMap fun
    | .cursorMoved owner addr => if owner = me then none else some addr
    | _ => none).getLast?

/-- Empties both mailboxes. -/
def emptyInboxes (d : Desk) : Desk :=
  let (_, changes) := d.project.patches.changes.collect d.view.patchInbox
  let (_, events) := d.group.events.collect d.view.syncInbox
  { d with
    project := { d.project with patches := { d.project.patches with changes } }
    group := { d.group with events } }

/-- Renews what has become stale. -/
def renew (d : Desk) (patchesChanged membersChanged regionsChanged : Bool) : Desk :=
  let d := if patchesChanged then d.refreshPatchRegions else d
  let d := if membersChanged then d.refreshAlwaysShow else d
  if regionsChanged then d.refreshSyncRegions else d

/-- Goes to where another member has moved its cursor. -/
def followTo (d : Desk) (addr : Nat) : Checked Desk := do
  if !d.view.follow || addr = d.view.grid.cursor.addr then return d
  let (_, d) ← (d.mapGrid (·.clearSelection)).onGrid (·.setCursor addr none none)
  return d

/-- Empties both mailboxes and renews what their events make stale.  Answers whether
anything may have changed. -/
def pump (d : Desk) : Checked (Bool × Desk) := do
  let changes := d.project.patches.changes.waiting d.view.patchInbox
  let events := d.group.events.waiting d.view.syncInbox
  let patchesChanged := !changes.isEmpty
  let membersChanged := events.contains .membersChanged
  let regionsChanged := regionsChanged d.view.member events
  let target := followTarget? d.view.member events
  let d := d.emptyInboxes.renew patchesChanged membersChanged regionsChanged
  let d ← match target with
    | some addr => d.followTo addr
    | none => pure d
  return (patchesChanged || membersChanged || regionsChanged || target.isSome,
    d.publishSelection)

/-- Does something to the grid and pumps the view. -/
def onGridThenPump {α : Type} (d : Desk) (op : Scene → Checked (α × Scene)) :
    Checked (α × Desk) := do
  let (answer, d) ← d.onGrid op
  let (_, d) ← d.pump
  return (answer, d)

/-! ## Input -/

def key (d : Desk) (k : Key) (modifiers : Modifiers) : Checked (Bool × Desk) :=
  d.onGridThenPump (·.key k modifiers)

def typeText (d : Desk) : List Char → Checked (List Bool × Desk)
  | [] => return ([], d)
  | c :: rest => do
    let (used, d) ← d.key (.text c) {}
    let (more, d) ← d.typeText rest
    return (used :: more, d)

def press (d : Desk) (p : Point) (extend : Bool) : Checked (Bool × Desk) :=
  d.onGridThenPump (·.press p extend)

def drag (d : Desk) (p : Point) : Checked (Bool × Desk) := d.onGridThenPump (·.drag p)

def release (d : Desk) : Desk := d.mapGrid (·.release)

def doubleClick (d : Desk) : Checked (Bool × Desk) := d.onGridThenPump (·.doubleClick)

def focusIn (d : Desk) (now : Nat) : Desk := d.mapGrid (·.focusIn now)

def focusOut (d : Desk) : Desk := d.mapGrid (·.focusOut)

def tick (d : Desk) (now : Nat) : Bool × Desk :=
  let (toggled, grid) := d.view.grid.tick now
  (toggled, { d with view := { d.view with grid } })

/-- Switches the highlighting of the item around the cursor. -/
def setSmart (d : Desk) (on : Bool) : Desk :=
  { d with view := { d.view with smart := on } }.refreshHighlights

/-- Ends the selection and moves the cursor.  Answers whether the address is shown. -/
def jumpTo (d : Desk) (addr : Nat) : Checked (Bool × Desk) :=
  (d.mapGrid (·.clearSelection)).onGridThenPump (·.setCursor addr none none)

def statusText (d : Desk) : String :=
  let address (a : Nat) := Hexadecimal.lowerPadded 8 a
  match d.view.grid.cursor.selection? with
  | some s =>
    "Address: [" ++ address s.first ++ ", " ++ address s.last ++ "], " ++ byteCount s.count
      ++ " selected"
  | none => "Address: " ++ address d.view.grid.cursor.addr

end Desk

end HexEditor
