import HexEditor.Patch.Request
import HexEditor.View.Workspace

/-!
# Requests to views and workspaces

Everything that can be done with an open view, and everything that can happen in a
workspace, as data.  Beside the views, the patches of a project can be changed and the
members of a group can speak directly; a `Workspace.run` is any interleaving of it all.
-/

namespace HexEditor

inductive ViewRequest where
  | key (k : Key) (modifiers : Modifiers)
  | press (p : Point) (extend : Bool)
  | drag (p : Point)
  | release
  | doubleClick
  | jumpTo (addr : Nat)
  | focusIn (now : Nat)
  | focusOut
  | tick (now : Nat)
  | setSmart (on : Bool)
  | copy
  | paste
  | mergeSelected
  | revertSelected
  | activate (action : ViewAction)
  | pump

/-- The desk after a request to its view. -/
def Desk.perform (d : Desk) : ViewRequest → Checked Desk
  | .key k modifiers => return (← d.key k modifiers).2
  | .press p extend => return (← d.press p extend).2
  | .drag p => return (← d.drag p).2
  | .release => return d.release
  | .doubleClick => return (← d.doubleClick).2
  | .jumpTo addr => return (← d.jumpTo addr).2
  | .focusIn now => return d.focusIn now
  | .focusOut => return d.focusOut
  | .tick now => return (d.tick now).2
  | .setSmart on => return d.setSmart on
  | .copy => return (← d.copySelection).2
  | .paste => return (← d.paste).2
  | .mergeSelected => return (← d.mergeSelected).2
  | .revertSelected => return (← d.revertSelected).2
  | .activate action => return (← d.activate action).2
  | .pump => return (← d.pump).2

/-- Whether the request ends with pumping the view.  Pasting nothing does nothing at all. -/
def ViewRequest.pumps (v : View) : ViewRequest → Bool
  | .release | .focusIn _ | .focusOut | .tick _ | .setSmart _ | .copy => false
  | .paste | .activate .paste => v.clipboard.isSome
  | _ => true

inductive WorkspaceRequest where
  | openView (project group : Nat) (options : ViewOptions)
  | closeView (v : Nat)
  | view (v : Nat) (r : ViewRequest)
  | patches (project : Nat) (r : PatchRequest)
  | patchMail (project : Nat) (r : MailRequest)
  | group (group : Nat) (r : GroupRequest)
  | groupMail (group : Nat) (r : MailRequest)
  | clock (now : Nat)

namespace Workspace

/-- The workspace after a request.  A request to a view that is not open does nothing. -/
def perform (w : Workspace) : WorkspaceRequest → Checked Workspace
  | .openView project group options => return (← w.openView project group options).2
  | .closeView v => return w.closeView v
  | .view v r => do
    match w.seat? v with
    | none => return w
    | some s => return w.putBack v s (← (w.desk s).perform r)
  | .patches i r => do
    let p := w.project i
    return w.setProject i { p with patches := (← p.patches.perform r).store }
  | .patchMail i r =>
    let p := w.project i
    return w.setProject i
      { p with patches := { p.patches with changes := p.patches.changes.serve r } }
  | .group i r => return w.setGroup i ((w.group i).perform r)
  | .groupMail i r =>
    let g := w.group i
    return w.setGroup i { g with events := g.events.serve r }
  | .clock now => return { w with now }

/-- The workspace after some requests, one after the other. -/
def run (w : Workspace) (requests : List WorkspaceRequest) : Checked Workspace :=
  requests.foldlM perform w

end Workspace

end HexEditor
