import HexEditor.Memory.Image
import HexEditor.Memory.Item
import HexEditor.Patch.Edit

/-!
# Projects

A project is what was loaded, what is known about it, and the patches made to it.  Its
memory is read through the patches and written into them; what was loaded never changes.
-/

namespace HexEditor

/-- Loaded bytes, their patches and their meaning. -/
structure Project where
  image : Image := {}
  patches : PatchStore := {}
  items : ItemMap := ∅

namespace Project

instance : Inhabited Project := ⟨{}⟩

def bounds? (p : Project) : Checked (Option Span) := p.image.bounds?

/-- The first loaded address, and the number of addresses up to the last one. -/
def region (p : Project) : Checked (Nat × Nat) := do
  match ← p.bounds? with
  | some span => return (span.first, ← checkedAdd (span.last - span.first) 1)
  | none => return (0, 0)

/-- The byte at an address: the patched one, else the loaded one. -/
def read (p : Project) (addr : Nat) : Checked (Option UInt8) :=
  return (← p.patches.read addr).or (p.image.get? addr)

/-- Writes one byte.  Answers whether the patch store took it. -/
def write (p : Project) (addr : Nat) (value : UInt8) : Checked (Bool × Project) := do
  let reply ← p.patches.write addr [value]
  return (reply.answer matches .ok _, { p with patches := reply.store })

def patchRegions (p : Project) : List Region :=
  p.patches.set.values.filterMap fun patch => Region.patch? patch.addr patch.size

end Project

end HexEditor
