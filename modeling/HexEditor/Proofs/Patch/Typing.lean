import HexEditor.Proofs.Patch.Write

/-!
# Typing into the store

Typed bytes reach the store one at a time, each right behind the one before, and each of them
twice: with its high half alone, and then with both.  The first time the store takes it as a new
byte (`Typed.append`), the second time in place of it (`Typed.replace`).

To a reader of the store only the bytes matter.  Where no patch is in the way, and none ends where
the typing begins, the layout of the patches is known as well: the typed bytes are one patch,
which grows at its end while the others stay as they are.
-/

namespace HexEditor

variable {ps qs rs lows highs : List Patch} {p : Patch} {a addr : Nat} {bytes : List UInt8}
  {b c : UInt8}

/-! ## Writes that meet nothing, or one patch only -/

/-- A write into a gap goes to the patch that ends at the range, or becomes a patch. -/
theorem Written.eq_of_gap (h : Written addr bytes (lows ++ highs) qs)
    (hlaid : Laid (lows ++ highs)) (hbytes : bytes ≠ []) (hlow : ∀ p ∈ lows, p.stop ≤ addr)
    (hhigh : ∀ p ∈ highs, addr + bytes.length ≤ p.addr) :
    (∃ before p, lows = before ++ [p] ∧ p.stop = addr ∧
        qs = before ++ p.append bytes :: highs) ∨
      (∀ p ∈ lows, p.stop ≠ addr) ∧ qs = lows ++ { addr, bytes } :: highs := by
  have hlength := List.length_pos_of_ne_nil hbytes
  have hnone : Laid (lows ++ ([] ++ highs)) := hlaid
  have hrange : addr < addr + bytes.length := by omega
  obtain ⟨hbelow, hbeyond⟩ := hnone.below_beyond_eq hrange hlow hhigh
  rw [List.filterMap_nil, List.append_nil, List.nil_append] at hbelow
  rw [List.filterMap_nil, List.nil_append] at hbeyond
  cases h with
  | @inPlace before after p hps hin =>
      have hmem : p ∈ lows ++ highs := by simp [hps]
      obtain ⟨hfirst, hlimit⟩ := hin
      rcases List.mem_append.1 hmem with hp | hp
      · have := hlow p hp
        omega
      · have := hhigh p hp
        omega
  | @extended before p hout hbefore htouch =>
      rw [hbelow] at hbefore
      rw [hbeyond]
      exact .inl ⟨before, p, hbefore, htouch, rfl⟩
  | created hout hfree =>
      rw [hbelow] at hfree ⊢
      rw [hbeyond]
      exact .inr ⟨hfree, rfl⟩

/-- A patch has one place among laid out patches. -/
theorem Laid.eq_around {before after : List Patch} (h : Laid (before ++ p :: after))
    (heq : before ++ p :: after = lows ++ p :: highs) : before = lows ∧ after = highs := by
  obtain ⟨-, hrest, hbetween⟩ := laid_append.1 h
  obtain ⟨hp, hahead, -⟩ := laid_cons.1 hrest
  have hstart := hp.addr_lt_stop
  have hbefore : p ∉ before := fun hmem =>
    absurd (hbetween p hmem p List.mem_cons_self) hstart.not_ge
  have hafter : p ∉ after := fun hmem => absurd (hahead p hmem) hstart.not_ge
  obtain ⟨hlows, -, hhighs⟩ := (List.append_cons_inj_of_notMem hbefore hafter).1 heq
  exact ⟨hlows, hhighs⟩

/-- A write into a patch changes this patch only. -/
theorem Written.eq_of_encloses (h : Written addr bytes (lows ++ p :: highs) qs)
    (hlaid : Laid (lows ++ p :: highs)) (hbytes : bytes ≠ [])
    (hin : p.Encloses addr (addr + bytes.length)) :
    qs = lows ++ p.overwrite addr bytes :: highs := by
  have hlength := List.length_pos_of_ne_nil hbytes
  have hp : p ∈ lows ++ p :: highs := by simp
  cases h with
  | @inPlace before after q hps hq =>
      have hmem : ∀ {r : Patch}, r.Encloses addr (addr + bytes.length) → addr ∈ r := by
        intro r hr
        obtain ⟨hfirst, hlimit⟩ := hr
        exact ⟨hfirst, by omega⟩
      obtain rfl : q = p := hlaid.eq_of_mem (by simp [hps]) hp (hmem hq) (hmem hin)
      obtain ⟨rfl, rfl⟩ := (hps ▸ hlaid).eq_around hps.symm
      rfl
  | extended hout => exact absurd hin (hout p hp)
  | created hout => exact absurd hin (hout p hp)

/-- Where no address around a range is patched, the patches leave a gap. -/
theorem Laid.exists_gap (h : Laid ps) (a n : Nat)
    (hfree : ∀ x, a ≤ x + 1 → x < a + n → byteIn ps x = none) :
    ∃ lows highs, ps = lows ++ highs ∧ (∀ p ∈ lows, p.stop < a) ∧ ∀ p ∈ highs, a + n ≤ p.addr := by
  obtain ⟨lows, meeting, highs, rfl, hlow, hmeets, hhigh⟩ := h.exists_meeting (a - 1) (a + n)
  -- a patch that meets the range has an address in it
  have hnil : meeting = [] := by
    apply List.eq_nil_iff_forall_not_mem.2
    intro p hp
    have hmem : p ∈ lows ++ (meeting ++ highs) := by simp [hp]
    have hstart := (h.proper p hmem).addr_lt_stop
    obtain ⟨hfirst, hlast⟩ := hmeets p hp
    have hnone := hfree (max p.addr (a - 1)) (by omega) (by omega)
    exact byteIn_eq_none_iff.1 hnone p hmem ⟨by omega, by omega⟩
  subst hnil
  refine ⟨lows, highs, rfl, ?_, hhigh⟩
  intro p hp
  have hstart := (h.proper p (by simp [hp])).addr_lt_stop
  have hstop := hlow p hp
  omega

/-! ## Typing -/

/-- The patch of the typed bytes, if there are any. -/
def typedPatch (a : Nat) (bytes : List UInt8) : List Patch :=
  if bytes = [] then [] else [{ addr := a, bytes }]

theorem stop_of_mem_typedPatch (h : p ∈ typedPatch a bytes) : p.stop = a + bytes.length := by
  unfold typedPatch at h
  split at h
  · exact absurd h List.not_mem_nil
  · rw [List.mem_singleton.1 h]
    rfl

/-- The patches `qs` are what is left of `ps` when `bytes` have been typed from `a` on. -/
structure Typed (a : Nat) (bytes : List UInt8) (ps qs : List Patch) : Prop where
  laid : Laid qs
  byteIn_eq : ∀ x, byteIn qs x =
    if a ≤ x ∧ x < a + bytes.length then bytes[x - a]? else byteIn ps x
  layout : ∀ lows highs, ps = lows ++ highs → (∀ p ∈ lows, p.stop < a) →
    (∀ p ∈ highs, a + bytes.length ≤ p.addr) → qs = lows ++ (typedPatch a bytes ++ highs)

namespace Typed

theorem nil (h : Laid ps) : Typed a [] ps ps where
  laid := h
  byteIn_eq x := by
    rw [if_neg]
    simp only [List.length_nil]
    omega
  layout := by
    rintro lows highs rfl - -
    rfl

/-- A byte that is typed behind the others. -/
theorem append (h : Typed a bytes ps qs) (hwritten : Written (a + bytes.length) [b] qs rs)
    (hfits : a + bytes.length < maxAddress) : Typed a (bytes ++ [b]) ps rs where
  laid := hwritten.laid h.laid (List.cons_ne_nil _ _) hfits
  byteIn_eq x := by
    rw [hwritten.byteIn_eq h.laid, h.byteIn_eq]
    simp only [List.length_append, List.length_singleton, List.getElem?_append]
    by_cases hx : x = a + bytes.length
    · subst hx
      simp
    · split_ifs <;> first | rfl | omega
  layout lows highs hps hlow hhigh := by
    rw [List.length_append, List.length_singleton, ← Nat.add_assoc] at hhigh
    have hqs := h.layout lows highs hps hlow fun p hp => (Nat.le_succ _).trans (hhigh p hp)
    have hlaid := h.laid
    rw [hqs, ← List.append_assoc] at hwritten hlaid
    have hends : ∀ p ∈ lows ++ typedPatch a bytes, p.stop ≤ a + bytes.length := by
      intro p hp
      rcases List.mem_append.1 hp with hp | hp
      · exact (hlow p hp).le.trans (Nat.le_add_right _ _)
      · exact (stop_of_mem_typedPatch hp).le
    rcases hwritten.eq_of_gap hlaid (List.cons_ne_nil _ _) hends hhigh with
      ⟨before, p, heq, htouch, rfl⟩ | ⟨hfree, rfl⟩
    · -- only the typed patch itself ends where the next byte goes
      by_cases hbytes : bytes = []
      · subst hbytes
        have hp : p ∈ lows ++ typedPatch a [] := by simp [heq]
        have hp' : p ∈ lows := by simpa [typedPatch] using hp
        exact absurd htouch (hlow p hp').ne
      · rw [typedPatch, if_neg hbytes] at heq
        obtain ⟨rfl, hlast⟩ := List.append_inj' heq rfl
        obtain rfl := List.singleton_inj.1 hlast
        simp [typedPatch, Patch.append]
    · by_cases hbytes : bytes = []
      · subst hbytes
        simp [typedPatch]
      · have hmem : { addr := a, bytes } ∈ lows ++ typedPatch a bytes := by
          simp [typedPatch, hbytes]
        exact absurd rfl (hfree _ hmem)

/-- The byte that was typed last is read back. -/
theorem byteIn_last (h : Typed a (bytes ++ [b]) ps qs) :
    byteIn qs (a + bytes.length) = some b := by
  rw [h.byteIn_eq, if_pos (by simp), Nat.add_sub_cancel_left, List.getElem?_concat_length]

/-- The last byte is typed again. -/
theorem replace (h : Typed a (bytes ++ [b]) ps qs)
    (hwritten : Written (a + bytes.length) [c] qs rs) (hfits : a + bytes.length < maxAddress) :
    Typed a (bytes ++ [c]) ps rs where
  laid := hwritten.laid h.laid (List.cons_ne_nil _ _) hfits
  byteIn_eq x := by
    rw [hwritten.byteIn_eq h.laid, h.byteIn_eq]
    simp only [List.length_append, List.length_singleton, List.getElem?_append]
    by_cases hx : x = a + bytes.length
    · subst hx
      simp
    · split_ifs <;> first | rfl | omega
  layout lows highs hps hlow hhigh := by
    have hqs := h.layout lows highs hps hlow (by simpa using hhigh)
    have hlaid := h.laid
    have hpatch : ∀ x : UInt8, typedPatch a (bytes ++ [x]) ++ highs =
        { addr := a, bytes := bytes ++ [x] } :: highs := fun x => by simp [typedPatch]
    rw [hqs, hpatch] at hwritten hlaid
    have hin : Patch.Encloses { addr := a, bytes := bytes ++ [b] } (a + bytes.length)
        (a + bytes.length + [c].length) := by
      simp [Patch.Encloses, Patch.stop, Patch.size, Nat.add_assoc]
    rw [hwritten.eq_of_encloses hlaid (List.cons_ne_nil _ _) hin, hpatch]
    simp [Patch.overwrite]

end Typed

end HexEditor
