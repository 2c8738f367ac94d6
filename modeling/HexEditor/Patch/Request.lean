import HexEditor.Patch.Edit

/-!
# Requests to the patch store

Everything that changes patches, as data, and the store that carries out one request or
several in turn.  A refused request does not stop those behind it.
-/

namespace HexEditor

inductive PatchRequest where
  | write (addr : Nat) (bytes : List UInt8)
  | split (addr cut : Nat)
  | merge (addr other : Nat)
  | mergeRun (addrs : List Nat)
  | revert (addr : Nat)
  | revertAll (addrs : List Nat)
  | setComment (addr : Nat) (comment : Option String)
  deriving DecidableEq, Repr

namespace PatchStore

def Reply.map {α β : Type} (f : α → β) (r : Reply α) : Reply β := ⟨r.answer.map f, r.store⟩

/-- Carries out a request.  The answer to a revert is the patch that has been removed. -/
def perform (s : PatchStore) : PatchRequest → Checked (Reply (Option Patch))
  | .write addr bytes => return (← s.write addr bytes).map fun _ => none
  | .split addr cut => return (← s.split addr cut).map fun _ => none
  | .merge addr other => return (← s.merge addr other).map fun _ => none
  | .mergeRun addrs => return (← s.mergeRun addrs).map fun _ => none
  | .revert addr => return (s.revert addr).map some
  | .revertAll addrs => return (s.revertAll addrs).map fun _ => none
  | .setComment addr comment => return (s.setComment addr comment).map fun _ => none

/-- The store after some requests, carried out one after the other. -/
def performAll (s : PatchStore) (requests : List PatchRequest) : Checked PatchStore :=
  requests.foldlM (fun s r => return (← s.perform r).store) s

end PatchStore

end HexEditor
