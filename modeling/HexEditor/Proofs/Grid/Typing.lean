import HexEditor.Proofs.Grid.Upkeep
import HexEditor.Proofs.Patch.Typing

/-!
# Typing a digit

A hexadecimal digit that is typed into a project changes one half of the byte at the cursor: the
byte that is there, be it patched or loaded, is read, and written back with the digit in place of
this half.  The cursor waits for the other half of the byte after the first digit, and goes on to
the next byte after the second, unless the region ends there (`exists_key_digit`).  Once both
halves have been typed nothing is left of what was there before (`Nibble.low_apply_high`).
-/

namespace HexEditor

/-! ## Digits -/

theorem Hexadecimal.value?_lt {c : Char} {digit : Nat} (h : value? c = some digit) :
    digit < 16 := by
  have hzero : '0'.toNat = 48 := rfl
  have hsmall : 'a'.toNat = 97 := rfl
  have hgreat : 'A'.toNat = 65 := rfl
  unfold value? at h
  split at h
  · next hc =>
      have hle : c.toNat ≤ 57 := hc.2
      obtain rfl := Option.some.inj h
      omega
  · split at h
    · next hc =>
        have hle : c.toNat ≤ 102 := hc.2
        obtain rfl := Option.some.inj h
        omega
    · split at h
      · next hc =>
          have hle : c.toNat ≤ 70 := hc.2
          obtain rfl := Option.some.inj h
          omega
      · cases h

/-- Of a byte of which both halves have been typed nothing else is left. -/
theorem Nibble.low_apply_high (byte : UInt8) {high low : Nat} (hhigh : high < 16)
    (hlow : low < 16) : Nibble.low.apply (Nibble.high.apply byte (.ofNat high)) (.ofNat low) =
      .ofNat (16 * high + low) := by
  have hforget : ∀ v : UInt8, ((byte &&& 0x0F) ||| v) &&& 0xF0 = v &&& 0xF0 := by
    intro v
    have hdistrib : ((byte &&& 0x0F) ||| v) &&& 0xF0 =
        (byte &&& 0x0F &&& 0xF0) ||| (v &&& 0xF0) :=
      UInt8.eq_of_toBitVec_eq BitVec.and_or_distrib_right
    have hapart : (0x0F : UInt8) &&& 0xF0 = 0 := by decide
    rw [hdistrib, UInt8.and_assoc, hapart, UInt8.and_zero, UInt8.zero_or]
  have hhalves : ∀ high low : Fin 16,
      (((UInt8.ofNat high &&& 0x0F) <<< 4) &&& 0xF0) ||| (UInt8.ofNat low &&& 0x0F) =
        UInt8.ofNat (16 * high + low) := by decide
  have hpair := hhalves ⟨high, hhigh⟩ ⟨low, hlow⟩
  unfold Nibble.apply
  dsimp only
  rw [hforget]
  exact hpair

/-! ## Reading and writing one byte of a project -/

namespace Project

variable {p : Project} {addr : Nat}

/-- The byte that is read at an address. -/
def byte? (p : Project) (addr : Nat) : Option UInt8 :=
  (byteIn p.patches.set.values addr).or (p.image.get? addr)

theorem read_eq (h : p.patches.set.WellFormed) (addr : Nat) : p.read addr = .ok (p.byte? addr) := by
  obtain ⟨hholds, hlaid⟩ := PatchSet.wellFormed_iff.1 h
  unfold read
  rw [PatchStore.read_eq hholds hlaid]
  rfl

/-- A byte of the address space can be written, whether it was there or not. -/
theorem exists_write (h : p.patches.set.WellFormed) (hfits : addr < maxAddress) (value : UInt8) :
    ∃ q, p.write addr value = .ok (true, q) ∧
      Written addr [value] p.patches.set.values q.patches.set.values := by
  obtain ⟨hholds, hlaid⟩ := PatchSet.wellFormed_iff.1 h
  obtain ⟨t, qs, hwrite, ht, hwritten⟩ :=
    PatchStore.write_eq hholds hlaid (List.cons_ne_nil value []) hfits
  refine ⟨{ p with patches := p.patches.changedTo t }, ?_, ?_⟩
  · unfold write
    rw [hwrite]
    rfl
  · have hvalues : (p.patches.changedTo t).set.values = qs := ht.values_eq
    rw [hvalues]
    exact hwritten

end Project

/-! ## One digit -/

namespace Cursor

/-- The half of the byte that is typed next. -/
def half (c : Cursor) : Nibble := c.nibble.getD .high

/-- Where the half that follows is typed. -/
def next (c : Cursor) : Nat :=
  match c.half with
  | .high => c.addr
  | .low => c.addr + 1

/-- The cursor after a digit: it waits for the half that follows, unless the region ends before
that. -/
def typed (c : Cursor) : Cursor :=
  if c.inBounds c.next then c.place c.next none (some c.half.other) else c

variable {c : Cursor}

theorem typed_pane (c : Cursor) : c.typed.pane = c.pane := by
  unfold typed
  split <;> rfl

theorem typed_region (c : Cursor) : c.typed.start = c.start ∧ c.typed.stop = c.stop := by
  unfold typed
  split <;> exact ⟨rfl, rfl⟩

theorem half_of_ne_low (h : c.nibble ≠ some .low) : c.half = .high := by
  unfold half
  match hnibble : c.nibble with
  | none => rfl
  | some .high => rfl
  | some .low => exact absurd hnibble h

/-- After the first digit the cursor waits at the same byte. -/
theorem typed_of_high (h : c.half = .high) (hin : c.inBounds c.addr = true) :
    c.typed = c.place c.addr none (some .low) := by
  have hnext : c.next = c.addr := by rw [next, h]
  rw [typed, hnext, if_pos hin, h]
  rfl

/-- All bytes before `x` have been typed: the cursor waits at `x`, or at the last byte if the region
ends at `x`. -/
def Behind (x : Nat) (c : Cursor) : Prop :=
  if x = c.stop then c.addr + 1 = x ∧ c.nibble = some .low
  else c.addr = x ∧ c.nibble = some .high

theorem Behind.of_ne {x : Nat} (h : c.Behind x) (hne : x ≠ c.stop) :
    c.addr = x ∧ c.nibble = some .high := by
  unfold Behind at h
  rwa [if_neg hne] at h

/-- After the second digit the cursor waits behind the byte. -/
theorem behind_typed (h : c.nibble = some .low) (hin : c.inBounds c.addr = true) :
    c.typed.Behind (c.addr + 1) := by
  have hhalf : c.half = .low := by rw [half, h]; rfl
  have hnext : c.next = c.addr + 1 := by rw [next, hhalf]
  have hbounds : c.start ≤ c.addr ∧ c.addr < c.stop := by simpa [inBounds] using hin
  rw [typed, hnext, hhalf]
  by_cases hend : c.addr + 1 = c.stop
  · have hout : c.inBounds (c.addr + 1) = false := by simp [inBounds, hend]
    rw [hout, if_neg Bool.false_ne_true]
    unfold Behind
    rw [if_pos hend]
    exact ⟨rfl, h⟩
  · have hin' : c.inBounds (c.addr + 1) = true := by
      simp [inBounds]
      omega
    rw [if_pos hin']
    unfold Behind
    rw [if_neg (show c.addr + 1 ≠ (c.place (c.addr + 1) none _).stop from hend)]
    exact ⟨rfl, rfl⟩

end Cursor

namespace Scene

variable {s : Scene}

/-- In a view of a project every byte can be written. -/
theorem exists_write (h : s.grid.OfView) (hs : s.around.project.patches.set.WellFormed)
    {addr : Nat} (hfits : addr < maxAddress) (byte : UInt8) :
    ∃ t, s.write addr byte = .ok (true, t) ∧ t.grid = s.grid ∧
      Written addr [byte] s.around.project.patches.set.values
        t.around.project.patches.set.values := by
  obtain ⟨q, hwrite, hwritten⟩ := Project.exists_write hs hfits byte
  refine ⟨{ s with around := { s.around with project := q } }, ?_, rfl, hwritten⟩
  unfold write
  rw [h.source]
  dsimp only
  rw [hwrite]
  rfl

/-- A digit is written to the byte at the cursor, and then the cursor moves. -/
theorem key_digit_eq {c : Char} {digit : Nat} {byte? : Option UInt8} {u : Scene}
    (hpane : s.grid.cursor.pane = .bytes) (hc : Hexadecimal.value? c = some digit)
    (hread : s.value s.grid.cursor.addr = .ok byte?)
    (hwrite : s.write s.grid.cursor.addr
      (s.grid.cursor.half.apply (byte?.getD 0) (.ofNat digit)) = .ok (true, u))
    (hnext : s.grid.cursor.next ≤ maxAddress) :
    s.key (.text c) {} = u.setCursor s.grid.cursor.next none (some s.grid.cursor.half.other) >>=
      fun r => .ok (true, r.2) := by
  unfold Cursor.next at hnext ⊢
  unfold Cursor.half at hwrite hnext ⊢
  unfold key keyWith typeCharWith setNibbleWith
  simp only [Bool.false_eq_true, if_false, hpane, hc, hread, Checked.ok_bind, hwrite, Bool.not_true]
  cases hhalf : s.grid.cursor.nibble.getD .high with
  | high =>
      rw [hhalf] at hnext
      dsimp only at hnext ⊢
      rw [if_pos hnext]
      unfold setCursor
      cases u.setCursorWith dispatch s.grid.cursor.addr none (some Nibble.high.other) <;> rfl
  | low =>
      rw [hhalf] at hnext
      dsimp only at hnext ⊢
      rw [if_pos hnext]
      unfold setCursor
      cases u.setCursorWith dispatch (s.grid.cursor.addr + 1) none (some Nibble.low.other) <;> rfl

/-- A digit is taken by every view of a project that has its cursor among the bytes. -/
theorem exists_key_digit {c : Char} {digit : Nat} (h : s.grid.OfView)
    (hs : s.around.project.patches.set.WellFormed) (hpane : s.grid.cursor.pane = .bytes)
    (hfits : s.grid.cursor.addr < maxAddress) (hc : Hexadecimal.value? c = some digit) :
    ∃ t, s.key (.text c) {} = .ok (true, t) ∧ t.grid.cursor = s.grid.cursor.typed ∧
      Written s.grid.cursor.addr
        [s.grid.cursor.half.apply ((s.around.project.byte? s.grid.cursor.addr).getD 0)
          (.ofNat digit)]
        s.around.project.patches.set.values t.around.project.patches.set.values := by
  have hread : s.value s.grid.cursor.addr = .ok (s.around.project.byte? s.grid.cursor.addr) := by
    unfold value
    rw [h.source]
    exact Project.read_eq hs _
  obtain ⟨u, hwrite, hgrid, hwritten⟩ := exists_write h hs hfits
    (s.grid.cursor.half.apply ((s.around.project.byte? s.grid.cursor.addr).getD 0) (.ofNat digit))
  have hnext : s.grid.cursor.next ≤ maxAddress := by
    unfold Cursor.next
    split <;> omega
  have hupkept : u.grid.Upkept := hgrid ▸ h.upkept
  rw [key_digit_eq hpane hc hread hwrite hnext, setCursor_eq hupkept, Checked.ok_bind, hgrid]
  unfold Cursor.typed
  cases s.grid.cursor.inBounds s.grid.cursor.next with
  | true =>
      refine ⟨_, rfl, ?_, ?_⟩
      · rw [if_pos rfl, if_pos rfl, moved_cursor, hgrid]
      · rw [if_pos rfl, moved_project]
        exact hwritten
  | false => exact ⟨u, rfl, by rw [hgrid]; rfl, hwritten⟩

end Scene

end HexEditor
