import HexEditor.View.Editing

/-!
# Workspaces

The projects, the synchronization groups and the views that are open at the same time.
Views of one project share its patches; views in one group hear of each other.
-/

namespace HexEditor

/-- A view, the project that it shows, and the group in which it takes part. -/
structure Seat where
  view : View
  project : Nat
  group : Nat

structure Workspace where
  projects : List Project := []
  /-- The groups that have been used; all others are empty. -/
  groups : OrderedMap SyncGroup := ∅
  /-- The views in the order in which they were opened; none is left of a closed one. -/
  seats : List (Option Seat) := []
  now : Nat := 0
  log : List ListenerCall := []

namespace Workspace

instance : Inhabited Workspace := ⟨{}⟩

/-- A project by number; a project that does not exist is empty. -/
def project (w : Workspace) (i : Nat) : Project := w.projects[i]?.getD {}

def group (w : Workspace) (i : Nat) : SyncGroup := (w.groups.get? i).getD {}

def setProject (w : Workspace) (i : Nat) (p : Project) : Workspace :=
  { w with projects := w.projects.set i p }

def setGroup (w : Workspace) (i : Nat) (g : SyncGroup) : Workspace :=
  { w with groups := w.groups.insert i g }

def seat? (w : Workspace) (v : Nat) : Option Seat := (w.seats[v]?).join

def addProject (w : Workspace) (p : Project) : Nat × Workspace :=
  (w.projects.length, { w with projects := w.projects ++ [p] })

def desk (w : Workspace) (s : Seat) : Desk :=
  { view := s.view, project := w.project s.project, group := w.group s.group, now := w.now
    log := w.log }

/-- Puts a view, its project and its group back after something has happened to them. -/
def putBack (w : Workspace) (v : Nat) (s : Seat) (d : Desk) : Workspace :=
  let w := (w.setProject s.project d.project).setGroup s.group d.group
  { w with seats := w.seats.set v (some { s with view := d.view }), log := d.log }

/-- Opens a view of a project in a group.  Answers its number. -/
def openView (w : Workspace) (project group : Nat) (options : ViewOptions) :
    Checked (Nat × Workspace) := do
  let d ← Desk.openView (w.project project) (w.group group) options w.now
  let v := w.seats.length
  let w := { w with seats := w.seats ++ [none] }
  return (v, w.putBack v { view := d.view, project, group } { d with log := w.log })

def closeView (w : Workspace) (v : Nat) : Workspace :=
  match w.seat? v with
  | none => w
  | some s =>
    let (project, group) := (w.desk s).close
    let w := (w.setProject s.project project).setGroup s.group group
    { w with seats := w.seats.set v none }

/-- Does something to an open view; none when it is not open. -/
def onView? {α : Type} (w : Workspace) (v : Nat) (op : Desk → Checked (α × Desk)) :
    Checked (Option (α × Workspace)) := do
  match w.seat? v with
  | none => return none
  | some s =>
    let (answer, d) ← op (w.desk s)
    return some (answer, w.putBack v s d)

end Workspace

end HexEditor
