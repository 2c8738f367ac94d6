/-!
# Maps ordered by address

A finite map from natural numbers to values, kept as a list of entries in strictly
ascending key order.  The order is part of the type, so that the least key, the
greatest key at or below a number, and a walk in ascending order need no search.
-/

namespace HexEditor

/-- A finite map whose entries stand in strictly ascending key order. -/
structure OrderedMap (β : Type) where
  entries : List (Nat × β)
  ascending : entries.Pairwise (fun e f => e.1 < f.1) := by simp

namespace OrderedMap

variable {β : Type}

def empty : OrderedMap β := ⟨[], .nil⟩

instance : EmptyCollection (OrderedMap β) := ⟨empty⟩
instance : Inhabited (OrderedMap β) := ⟨empty⟩

/-- The entries with `value` at `key`, which replaces an entry of that key. -/
def insertEntry (key : Nat) (value : β) : List (Nat × β) → List (Nat × β)
  | [] => [(key, value)]
  | e :: rest =>
    if key < e.1 then (key, value) :: e :: rest
    else if key = e.1 then (key, value) :: rest
    else e :: insertEntry key value rest

theorem mem_insertEntry {key : Nat} {value : β} {f : Nat × β} {es : List (Nat × β)}
    (h : f ∈ insertEntry key value es) : f = (key, value) ∨ f ∈ es := by
  induction es with
  | nil => simpa [insertEntry] using h
  | cons e rest ih =>
    unfold insertEntry at h
    split at h
    · simpa using h
    · split at h
      · rcases List.mem_cons.1 h with rfl | h
        · exact .inl rfl
        · exact .inr (List.mem_cons_of_mem _ h)
      · rcases List.mem_cons.1 h with rfl | h
        · exact .inr List.mem_cons_self
        · exact (ih h).imp_right (List.mem_cons_of_mem _)

theorem insertEntry_ascending (key : Nat) (value : β) {es : List (Nat × β)}
    (h : es.Pairwise (fun e f => e.1 < f.1)) :
    (insertEntry key value es).Pairwise (fun e f => e.1 < f.1) := by
  induction es with
  | nil => simp [insertEntry]
  | cons e rest ih =>
    have hall := List.pairwise_cons.1 h
    unfold insertEntry
    split
    · rename_i hlt
      refine List.pairwise_cons.2 ⟨fun f hf => ?_, h⟩
      rcases List.mem_cons.1 hf with rfl | hf
      · exact hlt
      · exact Nat.lt_trans hlt (hall.1 f hf)
    · split
      · rename_i _ heq
        exact List.pairwise_cons.2 ⟨fun f hf => heq ▸ hall.1 f hf, hall.2⟩
      · rename_i hge hne
        refine List.pairwise_cons.2 ⟨fun f hf => ?_, ih hall.2⟩
        rcases mem_insertEntry hf with rfl | hf
        · show e.1 < key
          omega
        · exact hall.1 f hf

/-- Puts `value` at `key`; an entry of that key is replaced. -/
def insert (m : OrderedMap β) (key : Nat) (value : β) : OrderedMap β :=
  ⟨insertEntry key value m.entries, insertEntry_ascending key value m.ascending⟩

def get? (m : OrderedMap β) (key : Nat) : Option β :=
  (m.entries.find? (fun e => e.1 == key)).map (·.2)

def erase (m : OrderedMap β) (key : Nat) : OrderedMap β :=
  ⟨m.entries.filter (fun e => e.1 != key), m.ascending.filter _⟩

/-- Changes the value at `key`, if there is one. -/
def modify (m : OrderedMap β) (key : Nat) (f : β → β) : OrderedMap β :=
  ⟨m.entries.map (fun e => if e.1 = key then (e.1, f e.2) else e), by
    refine List.pairwise_map.2 (m.ascending.imp ?_)
    intro a b h
    split <;> split <;> exact h⟩

def contains (m : OrderedMap β) (key : Nat) : Bool := (m.get? key).isSome

/-- The entries with a key of at most `bound`, ascending. -/
def upTo (m : OrderedMap β) (bound : Nat) : List (Nat × β) :=
  m.entries.takeWhile (fun e => e.1 ≤ bound)

def floor? (m : OrderedMap β) (bound : Nat) : Option (Nat × β) := (m.upTo bound).getLast?

def keys (m : OrderedMap β) : List Nat := m.entries.map (·.1)

def values (m : OrderedMap β) : List β := m.entries.map (·.2)

def size (m : OrderedMap β) : Nat := m.entries.length

def isEmpty (m : OrderedMap β) : Bool := m.entries.isEmpty

end OrderedMap

end HexEditor
