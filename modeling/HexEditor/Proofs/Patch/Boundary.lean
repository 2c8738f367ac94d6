import HexEditor.Proofs.Patch.Write

/-!
# Where patches begin and end

A reader of the store is told the bytes, but not where one patch ends and the next one begins, nor
to which bytes a comment belongs.  This layout is said by one relation: two addresses lie in one
patch, which has a certain comment (`Together`).

A write leaves the layout alone wherever it can (`Rebounded`).  Into a patch that encloses the range
it goes without moving a boundary.  Otherwise the range is cut out of the patches and becomes the
end of one patch, to which at most what touched the range from below belongs as well.  That nothing
touches it from above any more, not even a patch that has lost its head to the write, is what makes
the result depend on the range and its lower neighbour only.
-/

namespace HexEditor

/-- The two addresses lie in one patch, which has the comment. -/
def Together (ps : List Patch) (a b : Nat) (comment : Option String) : Prop :=
  ∃ p ∈ ps, p.comment = comment ∧ a ∈ p ∧ b ∈ p

variable {ps qs : List Patch} {p q : Patch} {addr limit a b : Nat} {bytes : List UInt8}
  {comment : Option String}

namespace Together

theorem symm (h : Together ps a b comment) : Together ps b a comment := by
  obtain ⟨p, hp, hcomment, ha, hb⟩ := h
  exact ⟨p, hp, hcomment, hb, ha⟩

theorem append_iff :
    Together (ps ++ qs) a b comment ↔ Together ps a b comment ∨ Together qs a b comment := by
  simp only [Together, List.mem_append, or_and_right, exists_or]

theorem cons_iff :
    Together (p :: ps) a b comment ↔
      (p.comment = comment ∧ a ∈ p ∧ b ∈ p) ∨ Together ps a b comment := by
  simp only [Together, List.mem_cons, or_and_right, exists_or, exists_eq_left]

end Together

/-- An address is patched if it lies in one patch with itself. -/
theorem exists_together_self_iff : (∃ c, Together ps a a c) ↔ ∃ p ∈ ps, a ∈ p := by
  constructor
  · rintro ⟨c, p, hp, -, ha, -⟩
    exact ⟨p, hp, ha⟩
  · rintro ⟨p, hp, ha⟩
    exact ⟨p.comment, p, hp, rfl, ha, ha⟩

/-- What lies in one patch with an address lies in the patch that is known to have it. -/
theorem Laid.together_iff_of_mem (h : Laid ps) (hp : p ∈ ps) (ha : a ∈ p) :
    Together ps a b comment ↔ p.comment = comment ∧ b ∈ p := by
  constructor
  · rintro ⟨q, hq, hcomment, haq, hbq⟩
    obtain rfl := h.eq_of_mem hp hq ha haq
    exact ⟨hcomment, hbq⟩
  · rintro ⟨hcomment, hb⟩
    exact ⟨p, hp, hcomment, ha, hb⟩

/-- A range lies in a patch if its first and its last address do. -/
theorem exists_encloses_iff (hrange : addr < limit) :
    (∃ p ∈ ps, p.Encloses addr limit) ↔ ∃ c, Together ps addr (limit - 1) c := by
  constructor
  · rintro ⟨p, hp, hfirst, hlimit⟩
    exact ⟨p.comment, p, hp, rfl, ⟨hfirst, by omega⟩, by omega, by omega⟩
  · rintro ⟨c, p, hp, -, hfirst, hlast⟩
    have hstop := hlast.2
    exact ⟨p, hp, hfirst.1, by omega⟩

/-! ## Parts of patches -/

namespace Patch

theorem mem_of_below? (h : p.below? addr = some q) : a ∈ q ↔ a ∈ p ∧ a < addr := by
  have hstart := addr_of_below? h
  have hstop := stop_of_below? h
  simp only [mem_iff]
  omega

theorem mem_of_beyond? (h : p.beyond? limit = some q) : a ∈ q ↔ a ∈ p ∧ limit ≤ a := by
  have hstart := addr_of_beyond? h
  have hstop := stop_of_beyond? h
  simp only [mem_iff]
  omega

theorem comment_of_below? (h : p.below? addr = some q) : q.comment = p.comment := by
  unfold below? at h
  split at h
  · injection h with h
    rw [← h]
  · simp at h

theorem comment_of_beyond? (h : p.beyond? limit = some q) : q.comment = p.comment := by
  unfold beyond? at h
  split at h
  · injection h with h
    rw [← h]
  · simp at h

theorem exists_below? (ha : a ∈ p) (hlt : a < addr) : ∃ q, p.below? addr = some q :=
  ⟨_, if_pos (ha.1.trans_lt hlt)⟩

theorem exists_beyond? (ha : a ∈ p) (hle : limit ≤ a) : ∃ q, p.beyond? limit = some q :=
  ⟨_, if_pos (hle.trans_lt ha.2)⟩

end Patch

/-- Parts that keep of each patch the addresses of one kind, and the comment, have together what
was together and is of that kind. -/
theorem together_parts_iff {part : Patch → Option Patch} {kept : Nat → Prop}
    (hmem : ∀ {p q a}, part p = some q → (a ∈ q ↔ a ∈ p ∧ kept a))
    (hcomment : ∀ {p q}, part p = some q → q.comment = p.comment)
    (hsome : ∀ {p a}, a ∈ p → kept a → ∃ q, part p = some q) :
    Together (ps.filterMap part) a b comment ↔ kept a ∧ kept b ∧ Together ps a b comment := by
  constructor
  · rintro ⟨q, hq, rfl, ha, hb⟩
    obtain ⟨p, hp, hpq⟩ := List.mem_filterMap.1 hq
    obtain ⟨hap, hakept⟩ := (hmem hpq).1 ha
    obtain ⟨hbp, hbkept⟩ := (hmem hpq).1 hb
    exact ⟨hakept, hbkept, p, hp, (hcomment hpq).symm, hap, hbp⟩
  · rintro ⟨hakept, hbkept, p, hp, rfl, ha, hb⟩
    obtain ⟨q, hpq⟩ := hsome ha hakept
    exact ⟨q, List.mem_filterMap.2 ⟨p, hp, hpq⟩, hcomment hpq, (hmem hpq).2 ⟨ha, hakept⟩,
      (hmem hpq).2 ⟨hb, hbkept⟩⟩

theorem together_below_iff :
    Together (ps.filterMap (·.below? addr)) a b comment ↔
      a < addr ∧ b < addr ∧ Together ps a b comment :=
  together_parts_iff Patch.mem_of_below? Patch.comment_of_below? Patch.exists_below?

theorem together_beyond_iff :
    Together (ps.filterMap (·.beyond? limit)) a b comment ↔
      limit ≤ a ∧ limit ≤ b ∧ Together ps a b comment :=
  together_parts_iff Patch.mem_of_beyond? Patch.comment_of_beyond? Patch.exists_beyond?

/-! ## What a write does to the boundaries -/

/-- What can be seen of a patch beside its bytes. -/
def Patch.outline (p : Patch) : Nat × Nat × Option String := (p.addr, p.size, p.comment)

/-- The patch of a write that no patch enclosed.  It ends with the range, and has what the address
before the range belonged to, or else begins with the range and has no comment. -/
structure EndsWrite (addr limit : Nat) (ps : List Patch) (q : Patch) : Prop where
  addr_le : q.addr ≤ addr
  stop_eq : q.stop = limit
  mem_before : ∀ a, a + 1 = addr → (a ∈ q ↔ ∃ p ∈ ps, a ∈ p)
  comment : q.addr = addr → q.comment = none

/-- The patches `qs` are bounded as a write from `addr` up to, not including, `limit` may leave the
patches `ps`. -/
structure Rebounded (addr limit : Nat) (ps qs : List Patch) : Prop where
  /-- Outside the range, addresses lie together as before, under the same comments. -/
  outside : ∀ a b comment, a < addr ∨ limit ≤ a → b < addr ∨ limit ≤ b →
    (Together qs a b comment ↔ Together ps a b comment)
  /-- Into a patch that encloses the range, the write goes without moving a boundary. -/
  enclosed : (∃ p ∈ ps, p.Encloses addr limit) →
    qs.map Patch.outline = ps.map Patch.outline
  /-- Otherwise the range becomes the end of one patch. -/
  apart : (¬ ∃ p ∈ ps, p.Encloses addr limit) → ∃ q ∈ qs, EndsWrite addr limit ps q

/-- Patches that look the same have the same addresses together. -/
theorem together_congr (h : qs.map Patch.outline = ps.map Patch.outline) :
    Together qs a b comment ↔ Together ps a b comment := by
  have hiff : ∀ ps : List Patch, Together ps a b comment ↔ ∃ o ∈ ps.map Patch.outline,
      o.2.2 = comment ∧ (o.1 ≤ a ∧ a < o.1 + o.2.1) ∧ (o.1 ≤ b ∧ b < o.1 + o.2.1) := by
    intro ps
    simp only [List.mem_map, exists_exists_and_eq_and]
    rfl
  rw [hiff, hiff, h]

/-- The last of the patches below a range is the only one that can touch it. -/
theorem Laid.touches_iff {before : List Patch} (h : Laid (before ++ [p])) (htouch : p.stop = addr)
    (ha : a + 1 = addr) : a ∈ p ↔ ∃ q ∈ before ++ [p], a ∈ q := by
  have hstart := (h.proper p (by simp)).addr_lt_stop
  have hmem : a ∈ p := ⟨by omega, by omega⟩
  exact iff_of_true hmem ⟨p, by simp, hmem⟩

/-- An address below a range is patched when it is patched in what lies below the range. -/
theorem exists_mem_below_iff (hlt : a < addr) :
    (∃ q ∈ ps.filterMap (·.below? addr), a ∈ q) ↔ ∃ p ∈ ps, a ∈ p := by
  simp only [← exists_together_self_iff, together_below_iff, hlt, true_and]

/-- Where no patch encloses the range, addresses on both sides of it are not together. -/
theorem not_together_across (hout : ∀ p ∈ ps, ¬ p.Encloses addr limit) (ha : a < addr)
    (hb : limit ≤ b) : ¬ Together ps a b comment := by
  rintro ⟨p, hp, -, hap, hbp⟩
  have hfirst := hap.1
  have hlast := hbp.2
  exact hout p hp ⟨by omega, by omega⟩

/-- The parts below and beyond a range that no patch encloses have together what was together. -/
theorem together_cut_iff (hout : ∀ p ∈ ps, ¬ p.Encloses addr limit)
    (ha : a < addr ∨ limit ≤ a) (hb : b < addr ∨ limit ≤ b) :
    Together (ps.filterMap (·.below? addr)) a b comment ∨
        Together (ps.filterMap (·.beyond? limit)) a b comment ↔ Together ps a b comment := by
  rw [together_below_iff, together_beyond_iff]
  constructor
  · rintro (⟨-, -, h⟩ | ⟨-, -, h⟩) <;> exact h
  · intro h
    rcases ha with ha | ha <;> rcases hb with hb | hb
    · exact .inl ⟨ha, hb, h⟩
    · exact absurd h (not_together_across hout ha hb)
    · exact absurd h.symm (not_together_across hout hb ha)
    · exact .inr ⟨ha, hb, h⟩

/-- Behind a patch that touches the range, the bytes add nothing to it but the range. -/
theorem Patch.mem_append_iff (htouch : p.stop = addr)
    (ha : a < addr ∨ addr + bytes.length ≤ a) : a ∈ p.append bytes ↔ a ∈ p := by
  have haddr : (p.append bytes).addr = p.addr := rfl
  simp only [mem_iff, stop_append, haddr, htouch]
  omega

/-- The patch that takes the bytes behind it. -/
theorem endsWrite_append {before : List Patch}
    (hbelow : ps.filterMap (·.below? addr) = before ++ [p]) (hlow : Laid (before ++ [p])) (htouch : p.stop = addr) :
    EndsWrite addr (addr + bytes.length) ps (p.append bytes) := by
  have hstart : p.addr < addr := htouch ▸ (hlow.proper p (by simp)).addr_lt_stop
  have haddr : (p.append bytes).addr = p.addr := rfl
  constructor
  · exact hstart.le
  · rw [Patch.stop_append, htouch]
  · intro a ha
    rw [Patch.mem_append_iff htouch (by omega), ← exists_mem_below_iff (by omega : a < addr),
      hbelow]
    exact hlow.touches_iff htouch ha
  · intro heq
    omega

/-- The patch that the bytes become when nothing touches them. -/
theorem endsWrite_create (hfree : ∀ q ∈ ps.filterMap (·.below? addr), q.stop ≠ addr) :
    EndsWrite addr (addr + bytes.length) ps { addr, bytes } := by
  refine ⟨le_rfl, rfl, fun a ha => ?_, fun _ => rfl⟩
  rw [← exists_mem_below_iff (by omega : a < addr)]
  constructor
  · intro hmem
    have hle : addr ≤ a := hmem.1
    omega
  · rintro ⟨q, hq, hmem⟩
    have hstop := stop_le_of_mem_below hq
    have hlast := hmem.2
    exact absurd (by omega) (hfree q hq)

/-- The patch of a write goes between what is left below and beyond the range.  What is left below
is `low`, together with what of it the patch has taken over. -/
theorem EndsWrite.rebounded {low : List Patch} (h : EndsWrite addr limit ps q)
    (hout : ∀ p ∈ ps, ¬ p.Encloses addr limit)
    (hlow : ∀ a b comment, a < addr ∨ limit ≤ a → b < addr ∨ limit ≤ b →
      (Together low a b comment ∨ (q.comment = comment ∧ a ∈ q ∧ b ∈ q) ↔
        Together (ps.filterMap (·.below? addr)) a b comment)) :
    Rebounded addr limit ps (low ++ q :: ps.filterMap (·.beyond? limit)) := by
  refine ⟨fun a b comment ha hb => ?_, fun ⟨p, hp, hin⟩ => absurd hin (hout p hp),
    fun _ => ⟨q, by simp, h⟩⟩
  rw [Together.append_iff, Together.cons_iff, ← or_assoc, hlow a b comment ha hb,
    together_cut_iff hout ha hb]

/-- A write moves only the boundaries of the range. -/
theorem Written.rebounded (h : Written addr bytes ps qs) (hlaid : Laid ps) :
    Rebounded addr (addr + bytes.length) ps qs := by
  cases h with
  | @inPlace before after p hps hin =>
      subst hps
      have houtline : (p.overwrite addr bytes).outline = p.outline := by
        have hstop := hin.overwrite_stop
        simp only [Patch.outline, Patch.stop, Patch.overwrite, Prod.mk.injEq, and_true,
          true_and] at hstop ⊢
        omega
      have hsame : (before ++ p.overwrite addr bytes :: after).map Patch.outline =
          (before ++ p :: after).map Patch.outline := by
        simp only [List.map_append, List.map_cons, houtline]
      exact ⟨fun _ _ _ _ _ => together_congr hsame, fun _ => hsame,
        fun hnone => absurd ⟨p, by simp, hin⟩ hnone⟩
  | @extended before p hout hbelow htouch =>
      apply (endsWrite_append hbelow (hbelow ▸ hlaid.below addr) htouch).rebounded hout
      intro a b comment ha hb
      have hnone : ¬ Together [] a b comment := by simp [Together]
      rw [hbelow, Together.append_iff, Together.cons_iff, Patch.mem_append_iff htouch ha,
        Patch.mem_append_iff htouch hb]
      simp only [hnone, or_false]
      rfl
  | created hout hfree =>
      apply (endsWrite_create hfree).rebounded hout
      intro a b comment ha hb
      -- outside the range there is nothing in the new patch
      have hnot : a ∉ ({ addr, bytes } : Patch) := by
        simp only [Patch.mem_iff, Patch.stop, Patch.size]
        omega
      simp only [hnot, false_and, and_false, or_false]

/-- A write of something that fits the address space, from laid out patches. -/
structure LaidWrite (addr : Nat) (bytes : List UInt8) (ps qs : List Patch) : Prop where
  written : Written addr bytes ps qs
  laid : Laid ps
  bytes_ne : bytes ≠ []
  fits : addr + bytes.length ≤ maxAddress

namespace LaidWrite

theorem laid_after (h : LaidWrite addr bytes ps qs) : Laid qs :=
  h.written.laid h.laid h.bytes_ne h.fits

theorem rebounded (h : LaidWrite addr bytes ps qs) :
    Rebounded addr (addr + bytes.length) ps qs :=
  h.written.rebounded h.laid

theorem byteIn_eq (h : LaidWrite addr bytes ps qs) (a : Nat) :
    byteIn qs a =
      if addr ≤ a ∧ a < addr + bytes.length then bytes[a - addr]? else byteIn ps a :=
  h.written.byteIn_eq h.laid a

end LaidWrite

namespace PatchStore

variable {s : PatchStore}

/-- A write that fits the address space goes from laid out patches to laid out patches. -/
theorem exists_laidWrite (h : s.set.WellFormed) (hbytes : bytes ≠ [])
    (hfits : addr + bytes.length ≤ maxAddress) :
    ∃ t, s.write addr bytes = .ok ⟨.ok (), t⟩ ∧ t.set.WellFormed ∧
      LaidWrite addr bytes s.set.values t.set.values := by
  obtain ⟨hheld, hlaid⟩ := PatchSet.wellFormed_iff.1 h
  obtain ⟨t, qs, hwrite, hholds, hwritten⟩ := write_eq hheld hlaid hbytes hfits
  have hvalues : (s.changedTo t).set.values = qs := hholds.values_eq
  refine ⟨s.changedTo t, hwrite, ?_, ?_⟩
  · exact PatchSet.Holds.wellFormed hholds (hwritten.laid hlaid hbytes hfits)
  · rw [hvalues]
    exact ⟨hwritten, hlaid, hbytes, hfits⟩

/-- A write that fits the address space moves only the boundaries that it must. -/
theorem write_rebounds (h : s.set.WellFormed) (hbytes : bytes ≠ [])
    (hfits : addr + bytes.length ≤ maxAddress) :
    ∃ t, s.write addr bytes = .ok ⟨.ok (), t⟩ ∧
      Rebounded addr (addr + bytes.length) s.set.values t.set.values := by
  obtain ⟨t, hwrite, -, hlaid⟩ := exists_laidWrite h hbytes hfits
  exact ⟨t, hwrite, hlaid.rebounded⟩

/-- Both neighbours are cut, and the bytes become the end of the lower one. -/
theorem write_rebounds_both_neighbours :
    ∃ t, (ofPatches [⟨16, [1, 2, 3, 4], some "low"⟩, ⟨22, [5, 6, 7, 8], none⟩]).write 18
          [9, 9, 9, 9, 9, 9] = .ok ⟨.ok (), t⟩ ∧
      Rebounded 18 24 [⟨16, [1, 2, 3, 4], some "low"⟩, ⟨22, [5, 6, 7, 8], none⟩]
        t.set.values :=
  write_rebounds (PatchSet.wellFormed_ofList (by decide)) (by decide) (by decide)

end PatchStore

end HexEditor
