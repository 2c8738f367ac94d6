import HexEditor.Highlight.Region
import HexEditor.OrderedMap

/-!
# Known items

What is known about the meaning of the bytes: strings, other data, and blocks of
instructions.  The item around the cursor is highlighted, a block as one region for
each of its instructions.
-/

namespace HexEditor

inductive DataSort where
  | string
  | data
  deriving DecidableEq, Repr, Inhabited

structure Instruction where
  addr : Nat
  size : Nat
  deriving DecidableEq, Repr, Inhabited

/-- A range of bytes whose meaning is known. -/
inductive Item where
  | data (addr size : Nat) (sort : DataSort)
  | block (addr size : Nat) (instructions : List Instruction)
  deriving DecidableEq, Repr

namespace Item

def addr : Item → Nat
  | data addr _ _ => addr
  | block addr _ _ => addr

def size : Item → Nat
  | data _ size _ => size
  | block _ size _ => size

end Item

def DataSort.category : DataSort → Category
  | string => .string
  | data => .data

abbrev ItemMap := OrderedMap Item

namespace ItemMap

/-- Adds an item, instead of one that starts at the same address. -/
def add (m : ItemMap) (item : Item) : ItemMap := m.insert item.addr item

/-- The given items, of which later ones replace earlier ones. -/
def ofList (items : List Item) : ItemMap := items.foldl add ∅

/-- The regions of the item around `cursor`. -/
def highlights (m : ItemMap) (cursor : Nat) : List Region :=
  match m.floor? cursor with
  | none => []
  | some (addr, item) =>
    if clampedAdd addr item.size ≤ cursor then []
    else
      match item with
      | .data _ size sort => (Region.plain? sort.category addr size).toList
      | .block _ _ instructions =>
        instructions.filterMap fun i => Region.plain? .instruction i.addr i.size

end ItemMap

end HexEditor
