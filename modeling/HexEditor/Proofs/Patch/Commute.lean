import HexEditor.Proofs.Patch.Boundary

/-!
# Independent writes

Laid out patches are determined by what can be told address by address: the byte there, and the
patch, by its comment, in which the address and the one after it lie (`Alike`, `Laid.eq_of_alike`).

What a write leaves at an address depends on what was there from the address before the range to
its last one (`LaidWrite.alike_near`), and elsewhere it leaves what was there
(`LaidWrite.alike_far`).  Two ranges with a free address between them are elsewhere for each other.
The free address is needed: the write of a range that begins where another one ends depends on
whether that one has been written.
-/

namespace HexEditor

/-- At the address the two lists have the same byte, and in the same way they have the address
together with the next one, and by itself. -/
structure Alike (ps qs : List Patch) (a : Nat) : Prop where
  byte : byteIn ps a = byteIn qs a
  together : ∀ b comment, b = a ∨ b = a + 1 →
    (Together ps a b comment ↔ Together qs a b comment)

variable {ps qs rs ss : List Patch} {p q r : Patch} {a b addr addr' : Nat}
  {bytes bytes' : List UInt8} {comment : Option String}

namespace Alike

theorem symm (h : Alike ps qs a) : Alike qs ps a :=
  ⟨h.byte.symm, fun b c hb => (h.together b c hb).symm⟩

theorem trans (h : Alike ps qs a) (h' : Alike qs rs a) : Alike ps rs a :=
  ⟨h.byte.trans h'.byte, fun b c hb => (h.together b c hb).trans (h'.together b c hb)⟩

theorem exists_mem_iff (h : Alike ps qs a) : (∃ p ∈ ps, a ∈ p) ↔ ∃ q ∈ qs, a ∈ q := by
  rw [← exists_together_self_iff, ← exists_together_self_iff]
  exact exists_congr fun c => h.together a c (.inl rfl)

end Alike

/-! ## Patches are determined address by address -/

/-- If an address is in a patch of either list, then the next one is in both of them or in none. -/
theorem Alike.succ_mem_iff (h : Alike ps qs a) (hps : Laid ps) (hqs : Laid qs) (hp : p ∈ ps)
    (hq : q ∈ qs) (hap : a ∈ p) (haq : a ∈ q) : a + 1 ∈ p ↔ a + 1 ∈ q := by
  have hself := h.together a p.comment (.inl rfl)
  rw [hps.together_iff_of_mem hp hap, hqs.together_iff_of_mem hq haq] at hself
  have hcomment := (hself.1 ⟨rfl, hap⟩).1
  have hnext := h.together (a + 1) p.comment (.inr rfl)
  rw [hps.together_iff_of_mem hp hap, hqs.together_iff_of_mem hq haq] at hnext
  simpa [hcomment] using hnext

/-- If the next address is in a patch of either list, then the address is in both or in none. -/
theorem Alike.mem_iff_of_succ (h : Alike ps qs a) (hps : Laid ps) (hqs : Laid qs) (hp : p ∈ ps)
    (hq : q ∈ qs) (hap : a + 1 ∈ p) (haq : a + 1 ∈ q) : a ∈ p ↔ a ∈ q := by
  constructor
  · intro ha
    have hboth := (h.together (a + 1) p.comment (.inr rfl)).1 ⟨p, hp, rfl, ha, hap⟩
    exact ((hqs.together_iff_of_mem hq haq).1 hboth.symm).2
  · intro ha
    have hboth := (h.together (a + 1) q.comment (.inr rfl)).2 ⟨q, hq, rfl, ha, haq⟩
    exact ((hps.together_iff_of_mem hp hap).1 hboth.symm).2

/-- A patch that has the first address of a patch of the other list begins there. -/
theorem Laid.addr_eq_of_alike (hps : Laid ps) (hqs : Laid qs) (h : ∀ a, Alike ps qs a) (hp : p ∈ ps)
    (hq : q ∈ qs) (hmem : p.addr ∈ q) : q.addr = p.addr := by
  have hstart := (hps.proper p hp).addr_lt_stop
  obtain ⟨hle, hlt⟩ := hmem
  by_contra hne
  -- the address before it would be in both patches
  have hnext : p.addr - 1 + 1 = p.addr := by omega
  have hiff := (h (p.addr - 1)).mem_iff_of_succ hps hqs hp hq (hnext.symm ▸ ⟨le_rfl, hstart⟩)
    (hnext.symm ▸ ⟨hle, hlt⟩)
  have hge := (hiff.2 ⟨by omega, by omega⟩).1
  omega

/-- Patches that begin together end together. -/
theorem Laid.stop_eq_of_alike (hps : Laid ps) (hqs : Laid qs) (h : ∀ a, Alike ps qs a) (hp : p ∈ ps)
    (hq : q ∈ qs) (haddr : q.addr = p.addr) : q.stop = p.stop := by
  have hstart := (hps.proper p hp).addr_lt_stop
  have hstart' := (hqs.proper q hq).addr_lt_stop
  by_contra hne
  -- the address behind the shorter one would be in both patches
  have hnext : min p.stop q.stop - 1 + 1 = min p.stop q.stop := by omega
  have hiff := (h (min p.stop q.stop - 1)).succ_mem_iff hps hqs hp hq ⟨by omega, by omega⟩
    ⟨by omega, by omega⟩
  rw [hnext] at hiff
  simp only [Patch.mem_iff] at hiff
  omega

/-- Patches in the same place have the same bytes. -/
theorem Laid.bytes_eq_of_alike (hps : Laid ps) (hqs : Laid qs) (h : ∀ a, Alike ps qs a)
    (hp : p ∈ ps) (hq : q ∈ qs) (haddr : q.addr = p.addr) (hstop : q.stop = p.stop) :
    q.bytes = p.bytes := by
  have hsize : q.bytes.length = p.bytes.length := by
    unfold Patch.stop Patch.size at hstop
    omega
  apply List.ext_getElem?
  intro i
  by_cases hi : i < p.bytes.length
  · have hap : p.addr + i ∈ p := ⟨by omega, by unfold Patch.stop Patch.size; omega⟩
    have haq : p.addr + i ∈ q := ⟨by omega, by unfold Patch.stop Patch.size; omega⟩
    have hbyte := (h (p.addr + i)).byte
    rw [hps.byteIn_eq hp hap, hqs.byteIn_eq hq haq, Patch.byteAt?, Patch.byteAt?,
      if_pos hap.1, if_pos haq.1, haddr, Nat.add_sub_cancel_left] at hbyte
    exact hbyte.symm
  · rw [List.getElem?_eq_none (by omega), List.getElem?_eq_none (by omega)]

/-- A patch of one list is a patch of the other one. -/
theorem Laid.mem_of_alike (hps : Laid ps) (hqs : Laid qs) (h : ∀ a, Alike ps qs a) (hp : p ∈ ps) :
    p ∈ qs := by
  have hmem : p.addr ∈ p := ⟨le_rfl, (hps.proper p hp).addr_lt_stop⟩
  obtain ⟨q, hq, hcomment, hpq, -⟩ :=
    ((h p.addr).together p.addr p.comment (.inl rfl)).1 ⟨p, hp, rfl, hmem, hmem⟩
  have haddr := hps.addr_eq_of_alike hqs h hp hq hpq
  have hstop := hps.stop_eq_of_alike hqs h hp hq haddr
  have hbytes := hps.bytes_eq_of_alike hqs h hp hq haddr hstop
  have heq : q = p := by
    cases p
    cases q
    simp_all
  exact heq ▸ hq

theorem Laid.eq_of_alike (hps : Laid ps) (hqs : Laid qs) (h : ∀ a, Alike ps qs a) : ps = qs := by
  have : Std.Antisymm fun p q : Patch => p.addr < q.addr :=
    ⟨fun _ _ hpq hqp => absurd hpq hqp.asymm⟩
  have : Std.Irrefl fun p q : Patch => p.addr < q.addr := ⟨fun p => lt_irrefl p.addr⟩
  apply hps.addr_lt.eq_of_mem_iff hqs.addr_lt
  intro p
  exact ⟨fun hp => hps.mem_of_alike hqs h hp,
    fun hp => hqs.mem_of_alike hps (fun a => (h a).symm) hp⟩

/-! ## One write -/

namespace LaidWrite

/-- Away from the range and the address before it everything is as before. -/
theorem alike_far (h : LaidWrite addr bytes ps qs)
    (hfar : ¬ (addr ≤ a + 1 ∧ a < addr + bytes.length)) : Alike ps qs a := by
  constructor
  · rw [h.byteIn_eq, if_neg (by omega)]
  · intro b c hb
    exact (h.rebounded.outside a b c (by omega) (by omega)).symm

/-- A write whose range is elsewhere does not decide whether a patch encloses a range. -/
theorem exists_encloses_iff_of_far (h : LaidWrite addr bytes ps qs) (hbytes : bytes' ≠ [])
    (hgap : addr + bytes.length < addr' ∨ addr' + bytes'.length < addr) :
    (∃ p ∈ ps, p.Encloses addr' (addr' + bytes'.length)) ↔
      ∃ q ∈ qs, q.Encloses addr' (addr' + bytes'.length) := by
  have hlength := List.length_pos_of_ne_nil hbytes
  rw [exists_encloses_iff (by omega), exists_encloses_iff (by omega)]
  refine exists_congr fun c => (h.rebounded.outside _ _ c ?_ ?_).symm
  all_goals omega

/-- Which addresses the patch of a write has depends on the address before the range only. -/
theorem ends_mem_iff (hbytes : bytes ≠ [])
    (hnear : ∀ x, addr ≤ x + 1 → x < addr + bytes.length → Alike ps rs x)
    (hqend : EndsWrite addr (addr + bytes.length) ps q)
    (hrend : EndsWrite addr (addr + bytes.length) rs r) (ha : addr ≤ a + 1) :
    a ∈ q ↔ a ∈ r := by
  have hlength := List.length_pos_of_ne_nil hbytes
  by_cases hbefore : a + 1 = addr
  · rw [hqend.mem_before a hbefore, hrend.mem_before a hbefore]
    exact (hnear a ha (by omega)).exists_mem_iff
  · have hqle := hqend.addr_le
    have hqstop := hqend.stop_eq
    have hrle := hrend.addr_le
    have hrstop := hrend.stop_eq
    simp only [Patch.mem_iff]
    omega

/-- So does its comment. -/
theorem ends_comment_eq (h : LaidWrite addr bytes ps qs) (h' : LaidWrite addr bytes rs ss)
    (hnear : ∀ x, addr ≤ x + 1 → x < addr + bytes.length → Alike ps rs x) (hq : q ∈ qs)
    (hr : r ∈ ss) (hqend : EndsWrite addr (addr + bytes.length) ps q)
    (hrend : EndsWrite addr (addr + bytes.length) rs r) : q.comment = r.comment := by
  have hlength := List.length_pos_of_ne_nil h.bytes_ne
  have hqle := hqend.addr_le
  have hqstop := hqend.stop_eq
  have hmem := ends_mem_iff (a := addr - 1) h.bytes_ne hnear hqend hrend (by omega)
  by_cases hstart : q.addr = addr
  · -- the address before the range is not patched, so that both patches are new
    have hstart' : r.addr = addr := by
      have hrle := hrend.addr_le
      have hrstop := hrend.stop_eq
      by_contra hne
      have hge := (hmem.2 ⟨by omega, by omega⟩).1
      omega
    rw [hqend.comment hstart, hrend.comment hstart']
  · -- both patches have the comment that the address before the range has
    have hq' : addr - 1 ∈ q := ⟨by omega, by omega⟩
    have hcomment : Together qs (addr - 1) (addr - 1) q.comment := ⟨q, hq, rfl, hq', hq'⟩
    rw [h.rebounded.outside _ _ _ (by omega) (by omega),
      (hnear (addr - 1) (by omega) (by omega)).together _ _ (.inl rfl),
      ← h'.rebounded.outside _ _ _ (by omega) (by omega),
      h'.laid_after.together_iff_of_mem hr (hmem.1 hq')] at hcomment
    exact hcomment.1.symm

/-- Where no patch encloses the range, the patches of the two writes have the same together. -/
theorem together_ends_iff (h : LaidWrite addr bytes ps qs) (h' : LaidWrite addr bytes rs ss)
    (hnear : ∀ x, addr ≤ x + 1 → x < addr + bytes.length → Alike ps rs x) (hq : q ∈ qs)
    (hr : r ∈ ss) (hqend : EndsWrite addr (addr + bytes.length) ps q)
    (hrend : EndsWrite addr (addr + bytes.length) rs r) (ha : addr ≤ a + 1)
    (hlt : a < addr + bytes.length) (hb : b = a ∨ b = a + 1) :
    Together qs a b comment ↔ Together ss a b comment := by
  have hlength := List.length_pos_of_ne_nil h.bytes_ne
  have hcomment := h.ends_comment_eq h' hnear hq hr hqend hrend
  have hmema := ends_mem_iff h.bytes_ne hnear hqend hrend ha
  have hmemb : b ∈ q ↔ b ∈ r := ends_mem_iff h.bytes_ne hnear hqend hrend (by omega)
  by_cases haq : a ∈ q
  · rw [h.laid_after.together_iff_of_mem hq haq,
      h'.laid_after.together_iff_of_mem hr (hmema.1 haq), hcomment, hmemb]
  · -- only the address before the range need not be in the patch of the write
    have hqle := hqend.addr_le
    have hqstop := hqend.stop_eq
    simp only [Patch.mem_iff] at haq
    rcases hb with rfl | rfl
    · rw [h.rebounded.outside b b comment (by omega) (by omega),
        h'.rebounded.outside b b comment (by omega) (by omega)]
      exact (hnear b ha hlt).together b comment (.inl rfl)
    · have hnext : a + 1 ∈ q := ⟨by omega, by omega⟩
      have hqa : ¬ Together qs (a + 1) a comment := by
        rw [h.laid_after.together_iff_of_mem hq hnext]
        exact fun hboth => haq hboth.2
      have hra : ¬ Together ss (a + 1) a comment := by
        rw [h'.laid_after.together_iff_of_mem hr (hmemb.1 hnext)]
        exact fun hboth => haq (hmema.2 hboth.2)
      exact iff_of_false (fun hboth => hqa hboth.symm) fun hboth => hra hboth.symm

/-- At the range and the address before it, a write leaves the same where the same was there. -/
theorem alike_near (h : LaidWrite addr bytes ps qs) (h' : LaidWrite addr bytes rs ss)
    (hnear : ∀ x, addr ≤ x + 1 → x < addr + bytes.length → Alike ps rs x)
    (hin : (∃ p ∈ ps, p.Encloses addr (addr + bytes.length)) ↔
      ∃ r ∈ rs, r.Encloses addr (addr + bytes.length))
    (ha : addr ≤ a + 1) (hlt : a < addr + bytes.length) : Alike qs ss a := by
  have hsame := hnear a ha hlt
  refine ⟨?_, fun b comment hb => ?_⟩
  · rw [h.byteIn_eq, h'.byteIn_eq, hsame.byte]
  · by_cases hps : ∃ p ∈ ps, p.Encloses addr (addr + bytes.length)
    · have hqs := h.rebounded.enclosed hps
      have hss := h'.rebounded.enclosed (hin.1 hps)
      rw [together_congr hqs, together_congr hss]
      exact hsame.together b comment hb
    · obtain ⟨q, hq, hqend⟩ := h.rebounded.apart hps
      obtain ⟨r, hr, hrend⟩ := h'.rebounded.apart (mt hin.2 hps)
      exact h.together_ends_iff h' hnear hq hr hqend hrend ha hlt hb

/-! ## Two writes -/

/-- Away from the second of two writes, it does not matter whether it was carried out before or
after the first. -/
theorem alike_swap {qs' rs' : List Patch} (h : LaidWrite addr bytes ps qs)
    (hthen : LaidWrite addr' bytes' qs rs) (h' : LaidWrite addr' bytes' ps qs')
    (hthen' : LaidWrite addr bytes qs' rs')
    (hgap : addr + bytes.length < addr' ∨ addr' + bytes'.length < addr)
    (haway : ¬ (addr' ≤ a + 1 ∧ a < addr' + bytes'.length)) : Alike rs rs' a := by
  have hleft : Alike rs qs a := (hthen.alike_far haway).symm
  by_cases hnear : addr ≤ a + 1 ∧ a < addr + bytes.length
  · have hright : Alike qs rs' a := by
      refine h.alike_near hthen' (fun x hx hlt => h'.alike_far ?_) ?_ hnear.1 hnear.2
      · have hlength := List.length_pos_of_ne_nil h'.bytes_ne
        omega
      · exact h'.exists_encloses_iff_of_far h.bytes_ne hgap.symm
    exact hleft.trans hright
  · have hright : Alike ps rs' a := (h'.alike_far haway).trans (hthen'.alike_far hnear)
    exact hleft.trans ((h.alike_far hnear).symm.trans hright)

/-- Two writes between whose ranges an address is free can be carried out in either order. -/
theorem comm {qs' rs' : List Patch} (h : LaidWrite addr bytes ps qs)
    (hthen : LaidWrite addr' bytes' qs rs) (h' : LaidWrite addr' bytes' ps qs')
    (hthen' : LaidWrite addr bytes qs' rs')
    (hgap : addr + bytes.length < addr' ∨ addr' + bytes'.length < addr) : rs = rs' := by
  apply hthen.laid_after.eq_of_alike hthen'.laid_after
  intro a
  by_cases haway : addr' ≤ a + 1 ∧ a < addr' + bytes'.length
  · exact (h'.alike_swap hthen' h hthen hgap.symm (by omega)).symm
  · exact h.alike_swap hthen h' hthen' hgap haway

end LaidWrite

namespace PatchStore

variable {s : PatchStore}

/-- Writes that leave an address free between them commute: either order ends with the same
patches, at the same addresses, with the same bytes and comments. -/
theorem writes_commute (h : s.set.WellFormed) (hbytes : bytes ≠ []) (hbytes' : bytes' ≠ [])
    (hfits : addr + bytes.length ≤ maxAddress) (hfits' : addr' + bytes'.length ≤ maxAddress)
    (hgap : addr + bytes.length < addr' ∨ addr' + bytes'.length < addr) :
    ∃ t u t' u', s.write addr bytes = .ok ⟨.ok (), t⟩ ∧ t.write addr' bytes' = .ok ⟨.ok (), u⟩ ∧
      s.write addr' bytes' = .ok ⟨.ok (), t'⟩ ∧ t'.write addr bytes = .ok ⟨.ok (), u'⟩ ∧
      u.set = u'.set := by
  obtain ⟨t, ht, hwell, hfirst⟩ := exists_laidWrite h hbytes hfits
  obtain ⟨u, hu, huwell, hthen⟩ := exists_laidWrite hwell hbytes' hfits'
  obtain ⟨t', ht', hwell', hfirst'⟩ := exists_laidWrite h hbytes' hfits'
  obtain ⟨u', hu', huwell', hthen'⟩ := exists_laidWrite hwell' hbytes hfits
  refine ⟨t, u, t', u', ht, hu, ht', hu', ?_⟩
  apply PatchSet.Holds.unique (PatchSet.wellFormed_iff.1 huwell).1
  rw [hfirst.comm hthen hfirst' hthen' hgap]
  exact (PatchSet.wellFormed_iff.1 huwell').1

/-- Both writes cut the same patch, from which only the two bytes between them are left. -/
theorem writes_commute_one_patch :
    ∃ t u t' u', (ofPatches [⟨16, [1, 2, 3, 4, 5, 6, 7, 8], some "a"⟩]).write 14 [9, 9, 9, 9] =
        .ok ⟨.ok (), t⟩ ∧ t.write 20 [0, 0, 0, 0, 0, 0] = .ok ⟨.ok (), u⟩ ∧
      (ofPatches [⟨16, [1, 2, 3, 4, 5, 6, 7, 8], some "a"⟩]).write 20 [0, 0, 0, 0, 0, 0] =
        .ok ⟨.ok (), t'⟩ ∧ t'.write 14 [9, 9, 9, 9] = .ok ⟨.ok (), u'⟩ ∧ u.set = u'.set :=
  writes_commute (PatchSet.wellFormed_ofList (by decide)) (by decide) (by decide) (by decide)
    (by decide) (by decide)

/-- The free address is needed: only the write behind another one extends what that one wrote. -/
example : (do return (← (← write {} 0 [1]).store.write 1 [2]).store.set.values : Checked _) ≠
    do return (← (← write {} 1 [2]).store.write 0 [1]).store.set.values := by
  decide

end PatchStore

end HexEditor
