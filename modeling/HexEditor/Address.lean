/-!
# Addresses

Addresses, offsets and byte counts are natural numbers of at most 64 bits.  A sum
that has to fit is formed by `checkedAdd`, which stops the whole computation with
`Fault.overflow` when it does not, and so does a difference formed by `checkedSub`; a
sum that only bounds a range is formed by `clampedAdd`, which stays at the greatest
address.  A list is cut by `checkedSplit`, which stops with `Fault.outOfRange` when the
list ends before the cut.
-/

namespace HexEditor

def maxAddress : Nat := UInt64.size - 1

/-- What stops a computation before it has an answer. -/
inductive Fault where
  /-- An address or a count left the 64-bit range. -/
  | overflow
  /-- A list was cut behind its end. -/
  | outOfRange
  deriving DecidableEq, Repr, Inhabited

/-- A computation that stops when an address leaves the 64-bit range, or when a list is
cut behind its end. -/
abbrev Checked (α : Type) := Except Fault α

namespace Checked

variable {α β : Type}

@[simp] theorem pure_eq_ok (a : α) : (pure a : Checked α) = .ok a := rfl

@[simp] theorem ok_bind (a : α) (f : α → Checked β) : (Except.ok a >>= f) = f a := rfl

@[simp] theorem error_bind (e : Fault) (f : α → Checked β) :
    ((Except.error e : Checked α) >>= f) = .error e := rfl

/-- A computation in two steps has an answer when both steps have one. -/
theorem bind_eq_ok_iff {x : Checked α} {f : α → Checked β} {b : β} :
    (x >>= f) = .ok b ↔ ∃ a, x = .ok a ∧ f a = .ok b := by
  cases x <;> simp

theorem exists_of_return_snd {x : Checked (α × β)} {b : β}
    (h : (do return (← x).2) = Except.ok b) : ∃ a, x = .ok (a, b) := by
  obtain ⟨⟨a, b'⟩, hx, hb⟩ := bind_eq_ok_iff.1 h
  cases hb
  exact ⟨a, hx⟩

theorem exists_of_return_map_fst {γ : Type} {x : Checked (α × β)} {f : α → γ} {b : β} {c : γ}
    (h : (do let (a, b) ← x; return (f a, b)) = Except.ok (c, b)) : ∃ a, x = .ok (a, b) := by
  obtain ⟨⟨a, b'⟩, hx, hb⟩ := bind_eq_ok_iff.1 h
  cases hb
  exact ⟨a, hx⟩

/-- A list of computations has answers when each of them has one. -/
theorem exists_mapM_iff {f : α → Checked β} {l : List α} :
    (∃ bs, l.mapM f = .ok bs) ↔ ∀ a ∈ l, ∃ b, f a = .ok b := by
  induction l with
  | nil => exact iff_of_true ⟨[], rfl⟩ fun _ h => absurd h List.not_mem_nil
  | cons a rest ih =>
      rw [List.forall_mem_cons, ← ih, List.mapM_cons]
      simp only [bind_eq_ok_iff, pure_eq_ok, Except.ok.injEq]
      exact ⟨fun ⟨_, b, hb, bs, hbs, _⟩ => ⟨⟨b, hb⟩, bs, hbs⟩,
        fun ⟨⟨b, hb⟩, bs, hbs⟩ => ⟨b :: bs, b, hb, bs, hbs, rfl⟩⟩

/-- What is said of every answer is said of the answers in order. -/
theorem map_of_mapM {γ : Type} {f : α → Checked β} {g : β → γ} {k : α → γ}
    {l : List α} {bs : List β} (h : l.mapM f = .ok bs) (hk : ∀ a b, f a = .ok b → g b = k a) :
    bs.map g = l.map k := by
  induction l generalizing bs with
  | nil =>
      obtain rfl := Except.ok.inj h
      rfl
  | cons a rest ih =>
      rw [List.mapM_cons] at h
      obtain ⟨b, hb, h⟩ := bind_eq_ok_iff.1 h
      obtain ⟨cs, hcs, h⟩ := bind_eq_ok_iff.1 h
      obtain rfl := Except.ok.inj h
      rw [List.map_cons, List.map_cons, hk a b hb, ih hcs]

theorem mapM_congr {f g : α → Checked β} {l : List α}
    (h : ∀ a ∈ l, f a = g a) : l.mapM f = l.mapM g := by
  induction l with
  | nil => rfl
  | cons a rest ih =>
      rw [List.mapM_cons, List.mapM_cons, h a List.mem_cons_self,
        ih fun b hb => h b (List.mem_cons_of_mem a hb)]

/-- Computations that all have answers have the list of them. -/
theorem mapM_eq_ok {f : α → Checked β} {g : α → β} {l : List α}
    (h : ∀ a ∈ l, f a = .ok (g a)) : l.mapM f = .ok (l.map g) := by
  rw [mapM_congr h]
  exact List.mapM_pure

/-- Leaving elements out before or after a computation is the same. -/
theorem mapM_filter (f : α → Checked β) (p : α → Bool) (l : List α) :
    (do return (← l.mapM fun a => if p a then do return some (← f a) else return none).filterMap id)
      = (l.filter p).mapM f := by
  induction l with
  | nil => rfl
  | cons a rest ih =>
      rw [List.mapM_cons]
      cases hp : p a with
      | false =>
          rw [List.filter_cons_of_neg (by simp [hp]), ← ih]
          simp
      | true =>
          rw [List.filter_cons_of_pos hp, List.mapM_cons, ← ih]
          simp

end Checked

/-- The sum of two numbers, which has to be an address. -/
def checkedAdd (a b : Nat) : Checked Nat :=
  if a + b ≤ maxAddress then .ok (a + b) else .error .overflow

/-- The difference of two numbers, of which the second must not be the greater. -/
def checkedSub (a b : Nat) : Checked Nat :=
  if b ≤ a then .ok (a - b) else .error .overflow

/-- A list cut in two behind its first `n` elements. -/
def checkedSplit {α : Type} (l : List α) (n : Nat) : Checked (List α × List α) :=
  if n ≤ l.length then .ok (l.take n, l.drop n) else .error .outOfRange

/-- The sum of two numbers, or the greatest address when it lies beyond. -/
def clampedAdd (a b : Nat) : Nat := min (a + b) maxAddress

theorem checkedAdd_of_le {a b : Nat} (h : a + b ≤ maxAddress) :
    checkedAdd a b = .ok (a + b) := by
  simp [checkedAdd, h]

theorem checkedSub_of_le {a b : Nat} (h : b ≤ a) : checkedSub a b = .ok (a - b) := by
  simp [checkedSub, h]

theorem checkedSplit_of_le {α : Type} {l : List α} {n : Nat} (h : n ≤ l.length) :
    checkedSplit l n = .ok (l.take n, l.drop n) := by
  simp [checkedSplit, h]

theorem clampedAdd_le (a b : Nat) : clampedAdd a b ≤ maxAddress := Nat.min_le_right ..

/-- An inclusive range of addresses. -/
structure Span where
  first : Nat
  last : Nat
  deriving DecidableEq, Repr, Inhabited

namespace Span

/-- The range between two addresses, whichever of them is the greater. -/
def hull (a b : Nat) : Span := ⟨min a b, max a b⟩

def single (a : Nat) : Span := ⟨a, a⟩

def meet? (s t : Span) : Option Span :=
  let first := max s.first t.first
  let last := min s.last t.last
  if first ≤ last then some ⟨first, last⟩ else none

/-- The number of addresses of a range whose first address is not after its last. -/
def count (s : Span) : Nat := s.last - s.first + 1

def toList (s : Span) : List Nat := List.range' s.first (s.last + 1 - s.first)

instance : Membership Nat Span := ⟨fun s a => s.first ≤ a ∧ a ≤ s.last⟩

instance (s : Span) (a : Nat) : Decidable (a ∈ s) :=
  inferInstanceAs (Decidable (_ ∧ _))

theorem mem_iff {s : Span} {a : Nat} : a ∈ s ↔ s.first ≤ a ∧ a ≤ s.last := Iff.rfl

@[simp] theorem mem_toList {s : Span} {a : Nat} : a ∈ s.toList ↔ a ∈ s := by
  simp only [toList, List.mem_range'_1, mem_iff]
  omega

end Span

end HexEditor
