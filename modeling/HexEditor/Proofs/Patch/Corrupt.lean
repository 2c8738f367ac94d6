import HexEditor.Proofs.Patch.Write

/-!
# Writing into a corrupt set

A set that was not made by writes may hold patches that are empty or that overlap.  A write into it
is planned against the patches that the search finds, and refused at the first of them that is empty
or overlaps one before it (`planFrom_refused`).

The search itself relies on the order that is missing here: it walks down from the end of the range
and stops at the first patch that ends at or before its start.  What meets the range but starts
below such a patch is never seen, so that overlaps among the patches that meet the range are noticed
only as far as the walk gets (`reached`).  A write that sees nothing wrong goes through, whatever
the rest of the set looks like: the steps of its plan concern patches that are laid out, and patches
elsewhere are only looked up by the address before the range (`exists_clear`, `exists_place`).
-/

namespace HexEditor

/-- None of the patches is empty, and no two of them share an address. -/
def Tidy (ps : List Patch) : Prop :=
  ∀ p ∈ ps, p.bytes ≠ [] ∧ ∀ q ∈ ps, ∀ a, a ∈ p → a ∈ q → p = q

/-- The walk down from the end of the range finds the patch: every patch that starts between it and
the end of the range ends after the start of the range. -/
def Patch.Reached (ps : List Patch) (addr limit : Nat) (p : Patch) : Prop :=
  p.Meets addr limit ∧ ∀ q ∈ ps, p.addr < q.addr → q.addr < limit → addr < q.stop

instance (ps : List Patch) (addr limit : Nat) : DecidablePred (Patch.Reached ps addr limit) :=
  fun _ => inferInstanceAs (Decidable (_ ∧ _))

/-- The patches that a write of the range is planned against. -/
def reached (ps : List Patch) (addr limit : Nat) : List Patch :=
  ps.filter (Patch.Reached ps addr limit)

/-- Two patches that share an address with the range share one with each other. -/
def Clash (ps : List Patch) (addr limit : Nat) : Prop :=
  ∃ p ∈ ps, ∃ q ∈ ps, p ≠ q ∧ p.Meets addr limit ∧ q.Meets addr limit ∧ ∃ a, a ∈ p ∧ a ∈ q

variable {ps meeting : List Patch} {p : Patch} {addr limit : Nat} {bytes : List UInt8}

/-- Ascending patches in the address space are laid out if there is nothing wrong with them. -/
theorem laid_iff_tidy (hasc : ps.Pairwise fun p q => p.addr < q.addr)
    (hstop : ∀ p ∈ ps, p.stop ≤ maxAddress) : Laid ps ↔ Tidy ps := by
  constructor
  · exact fun h p hp =>
      ⟨(h.proper p hp).nonempty, fun q hq a hap haq => h.eq_of_mem hp hq hap haq⟩
  · intro h
    have hproper : ∀ p ∈ ps, p.Proper := fun p hp => ⟨(h p hp).1, hstop p hp⟩
    refine ⟨hproper, hasc.imp_of_mem fun {p q} hp hq hlt => not_lt.1 fun hcross => hlt.ne ?_⟩
    -- otherwise the second patch starts within the first one
    have hstart := (hproper q hq).addr_lt_stop
    exact congrArg Patch.addr ((h p hp).2 q hq q.addr ⟨hlt.le, hcross⟩ ⟨le_rfl, hstart⟩)

/-- If no patch that meets the range is hidden behind one that ends before it, an overlap among
those that meet it is seen. -/
theorem Clash.not_tidy (h : Clash ps addr limit)
    (hall : ∀ p ∈ ps, p.Meets addr limit → p ∈ reached ps addr limit) :
    ¬ Tidy (reached ps addr limit) := by
  obtain ⟨p, hp, q, hq, hne, hpmeet, hqmeet, a, hap, haq⟩ := h
  exact fun htidy => hne ((htidy p (hall p hp hpmeet)).2 q (hall q hq hqmeet) a hap haq)

namespace PatchSet

variable {s t : PatchSet}

/-! ## What the search finds -/

theorem overlappingEntries_eq_reached (h : s.Holds ps) (hstop : ∀ p ∈ ps, p.stop ≤ maxAddress)
    (hrange : addr < limit) (hlimit : limit ≤ maxAddress) :
    s.overlappingEntries addr (limit - addr) =
      .ok ((reached ps addr limit).map Patch.entry) := by
  have hlast : clampedAdd addr (limit - addr - 1) = limit - 1 := by
    unfold clampedAdd
    omega
  have hbelow : ∀ a, a ≤ limit - 1 ↔ a < limit := fun a => by omega
  have hfound : s.scan addr (limit - 1) = (reached ps addr limit).map Patch.entry := by
    rw [scan_eq h, reached]
    simp only [hbelow]
    rfl
  rw [overlappingEntries, if_neg (Nat.sub_pos_of_lt hrange).ne', hlast, hfound, if_pos]
  simp only [List.all_eq_true, decide_eq_true_eq, List.forall_mem_map]
  exact fun p hp => hstop p (List.mem_of_mem_filter hp)

/-! ## The plan -/

/-- The patches are laid out, and start where an earlier one ends or behind it. -/
def LaidBehind (done : Option Nat) (ps : List Patch) : Prop :=
  Laid ps ∧ ∀ stop ∈ done, ∀ p ∈ ps, stop ≤ p.addr

theorem laidBehind_none : LaidBehind none ps ↔ Laid ps := and_iff_left (by simp)

theorem laidBehind_cons {done : Option Nat} : LaidBehind done (p :: ps) ↔
    p.Proper ∧ (∀ stop ∈ done, stop ≤ p.addr) ∧ LaidBehind (some p.stop) ps := by
  unfold LaidBehind
  rw [laid_cons]
  constructor
  · rintro ⟨⟨hp, hahead, hlaid⟩, hdone⟩
    exact ⟨hp, fun stop hstop => hdone stop hstop p List.mem_cons_self, hlaid, by simpa using hahead⟩
  · rintro ⟨hp, hdone, hlaid, hahead⟩
    have hahead : ∀ q ∈ ps, p.stop ≤ q.addr := by simpa using hahead
    refine ⟨⟨hp, hahead, hlaid⟩, fun stop hstop => List.forall_mem_cons.2
      ⟨hdone stop hstop, fun q hq => ?_⟩⟩
    exact ((hdone stop hstop).trans hp.addr_lt_stop.le).trans (hahead q hq)

/-- The plan fails at the first patch that is empty or reaches back into one before it. -/
theorem planFrom_refused (hstop : ∀ p ∈ meeting, p.stop ≤ maxAddress)
    (hmeets : ∀ p ∈ meeting, p.Meets addr limit) {done : Option Nat}
    (h : ¬ LaidBehind done meeting) :
    ∃ before p after, meeting = before ++ p :: after ∧ LaidBehind done before ∧
      ¬ LaidBehind done (before ++ [p]) ∧
      planFrom addr limit done (meeting.map Patch.entry) =
        .error (.overlapInvariant p.addr (p.stop - 1) addr (limit - 1)) := by
  induction meeting generalizing done with
  | nil => exact absurd ⟨.nil, by simp⟩ h
  | cons p rest ih =>
      obtain ⟨hpstop, hstop⟩ := List.forall_mem_cons.1 hstop
      obtain ⟨hpmeet, hmeets⟩ := List.forall_mem_cons.1 hmeets
      have hdone : done.all (· ≤ p.addr) = true ↔ ∀ stop ∈ done, stop ≤ p.addr := by
        cases done <;> simp
      rw [List.map_cons, Patch.entry, planFrom]
      by_cases hgood : p.bytes ≠ [] ∧ ∀ stop ∈ done, stop ≤ p.addr
      · -- the patch is planned for, and what is wrong comes behind it
        have hp : p.Proper := ⟨hgood.1, hpstop⟩
        have hrest : ¬ LaidBehind (some p.stop) rest :=
          fun hrest => h (laidBehind_cons.2 ⟨hp, hgood.2, hrest⟩)
        obtain ⟨before, q, after, rfl, hbefore, hq, hplan⟩ := ih hstop hmeets hrest
        refine ⟨p :: before, q, after, rfl, laidBehind_cons.2 ⟨hp, hgood.2, hbefore⟩,
          fun hlaid => hq (laidBehind_cons.1 hlaid).2.2, ?_⟩
        simp only [hdone.2 hgood.2, if_true, Patch.ofMeeting_eq hp hpmeet, hplan]
        rfl
      · refine ⟨[], p, rest, rfl, ⟨.nil, by simp⟩, fun hlaid => ?_, ?_⟩
        · obtain ⟨hp, hbehind, -⟩ := laidBehind_cons.1 hlaid
          exact hgood ⟨hp.nonempty, hbehind⟩
        · have hnone : (if done.all (· ≤ p.addr) then
              Adjustment.ofMeeting p.addr p.stop addr limit else none) = none := by
            split_ifs with hbehind
            · have hempty : p.bytes = [] :=
                by_contra fun hbytes => hgood ⟨hbytes, hdone.1 hbehind⟩
              have hnowhere : ¬(p.addr < p.stop ∧ p.addr < limit ∧ addr < p.stop) := by
                simp [Patch.stop, Patch.size, hempty]
              exact if_neg hnowhere
            · rfl
          simp only [hnone]

/-! ## Carrying the plan out -/

/-- Every patch of the set ends in the address space. -/
def Bounded (s : PatchSet) : Prop := ∀ e ∈ s.entries, e.2.stop ≤ maxAddress

theorem Holds.bounded (h : s.Holds ps) (hstop : ∀ p ∈ ps, p.stop ≤ maxAddress) : s.Bounded := by
  intro e he
  obtain ⟨p, hp, rfl⟩ := h.mem_entries.1 he
  exact hstop p hp

theorem Bounded.erase (h : s.Bounded) (key : Nat) : Bounded (s.erase key) :=
  fun e he => h e (OrderedMap.mem_entries_erase.1 he).1

theorem Bounded.add (h : s.Bounded) (hp : p.stop ≤ maxAddress) : Bounded (s.add p) := by
  intro e he
  rcases OrderedMap.mem_entries_insert.1 he with rfl | ⟨he, -⟩
  · exact hp
  · exact h e he

/-- A search in a set of patches that end in the address space has an answer. -/
theorem Bounded.exists_overlapping (h : s.Bounded) (addr size : Nat) :
    ∃ keys, s.overlapping addr size = .ok keys := by
  have hscan : ∀ last, (s.scan addr last).all (fun e => e.2.stop ≤ maxAddress) = true := by
    intro last
    rw [List.all_eq_true]
    intro e he
    have hwalk := (List.takeWhile_sublist _).subset (List.mem_reverse.1 he)
    exact decide_eq_true (h e ((List.takeWhile_sublist _).subset (List.mem_reverse.1 hwalk)))
  unfold overlapping overlappingEntries
  by_cases hsize : size = 0
  · exact ⟨[], by rw [if_pos hsize]; rfl⟩
  · refine ⟨(s.scan addr (clampedAdd addr (size - 1))).map (·.1), ?_⟩
    rw [if_neg hsize, if_pos (hscan _)]
    rfl

/-- The bytes find their place. -/
theorem Bounded.exists_place (h : s.Bounded) (addr : Nat) (bytes : List UInt8) :
    ∃ t, s.place addr bytes = .ok t := by
  have howning : ∃ o, s.owning addr = .ok o := by
    unfold owning
    split_ifs
    · exact ⟨none, rfl⟩
    · obtain ⟨keys, hkeys⟩ := h.exists_overlapping (addr - 1) 1
      rw [hkeys]
      exact ⟨_, rfl⟩
  obtain ⟨o, ho⟩ := howning
  unfold place
  rw [ho]
  cases o <;> exact ⟨_, rfl⟩

/-- The plan for patches that are laid out can be carried out, and needs of the other patches of the
set only that they end in the address space. -/
theorem exists_clear (hlaid : Laid meeting)
    (hmeets : ∀ p ∈ meeting, p.Meets addr (addr + bytes.length))
    (hget : ∀ p ∈ meeting, s.get? p.addr = some p) (hbounded : s.Bounded) :
    ∃ c, clear addr bytes (meeting.map (Patch.step addr (addr + bytes.length))) s = .ok c ∧
      ∀ t, c = .room t → t.Bounded := by
  induction meeting generalizing s with
  | nil =>
      refine ⟨.room s, rfl, fun t ht => ?_⟩
      cases ht
      exact hbounded
  | cons p rest ih =>
      obtain ⟨hp, hahead, hrest⟩ := laid_cons.1 hlaid
      obtain ⟨⟨hlow, hhigh⟩, hmeets⟩ := List.forall_mem_cons.1 hmeets
      obtain ⟨hpget, hget⟩ := List.forall_mem_cons.1 hget
      -- what follows stands under other start addresses
      have hother : ∀ q ∈ rest, q.addr ≠ p.addr := fun q hq =>
        (hp.addr_lt_stop.trans_le (hahead q hq)).ne'
      have herased : ∀ q ∈ rest, OrderedMap.get? (s.erase p.addr) q.addr = some q :=
        fun q hq => (OrderedMap.get?_erase_of_ne (hother q hq)).trans (hget q hq)
      have hadded : ∀ r : Patch, (∀ q ∈ rest, q.addr ≠ r.addr) →
          ∀ q ∈ rest, OrderedMap.get? (add (s.erase p.addr) r) q.addr = some q :=
        fun r hr q hq => (OrderedMap.get?_insert_of_ne (hr q hq)).trans (herased q hq)
      rw [List.map_cons, clear, Patch.step]
      by_cases hin : p.Encloses addr (addr + bytes.length)
      · refine ⟨.spliced (OrderedMap.modify s p.addr fun _ => p.overwrite addr bytes), ?_,
          fun t ht => by cases ht⟩
        simp only [hin.adjustment_eq, hpget, Patch.splice_eq hp hin, Checked.ok_bind]
        rfl
      · by_cases hhead : p.addr < addr
        · obtain ⟨q, hkeep, hbelow⟩ := Patch.keepBelow_eq hhead
          have haddr := Patch.addr_of_below? hbelow
          have hadjustment : p.adjustment addr (addr + bytes.length) = .keepHead :=
            (if_neg hin).trans (if_pos hhead)
          simp only [hadjustment, hpget, hkeep, Checked.ok_bind]
          exact ih hrest hmeets (hadded q (haddr ▸ hother))
            ((hbounded.erase _).add (hp.below? hbelow).stop_le)
        · by_cases htail : addr + bytes.length < p.stop
          · obtain ⟨q, hkeep, hbeyond⟩ := Patch.keepFrom_eq hlow.le htail
            have haddr : q.addr = addr + bytes.length := by
              rw [Patch.addr_of_beyond? hbeyond, Nat.max_eq_right hlow.le]
            have hadjustment : p.adjustment addr (addr + bytes.length) = .keepTail :=
              (if_neg hin).trans ((if_neg hhead).trans (if_pos htail))
            simp only [hadjustment, hpget, hkeep, Checked.ok_bind]
            exact ih hrest hmeets (hadded q fun r hr => haddr ▸ (hmeets r hr).1.ne)
              ((hbounded.erase _).add (hp.beyond? hbeyond).stop_le)
          · have hadjustment : p.adjustment addr (addr + bytes.length) = .remove :=
              (if_neg hin).trans ((if_neg hhead).trans (if_neg htail))
            simp only [hadjustment]
            exact ih hrest hmeets herased (hbounded.erase _)

end PatchSet

/-! ## The write -/

theorem meets_of_mem_reached (hp : p ∈ reached ps addr limit) : p.Meets addr limit :=
  (of_decide_eq_true (List.mem_filter.1 hp).2).1

namespace PatchStore

variable {s : PatchStore}

section

variable (h : s.set.Holds ps) (hstop : ∀ p ∈ ps, p.stop ≤ maxAddress) (hbytes : bytes ≠ [])
  (hfits : addr + bytes.length ≤ maxAddress)

include h hstop in
theorem laid_reached_iff : Laid (reached ps addr limit) ↔ Tidy (reached ps addr limit) :=
  laid_iff_tidy (h.addr_lt.filter _) fun p hp => hstop p (List.mem_of_mem_filter hp)

include h hstop hbytes hfits

/-- A write carries out the plan for what it reaches, if there is one. -/
theorem write_eq_planFrom : s.write addr bytes =
    match PatchSet.planFrom addr (addr + bytes.length) none
      ((reached ps addr (addr + bytes.length)).map Patch.entry) with
    | .error e => .ok (s.refuse e)
    | .ok steps => PatchSet.clear addr bytes steps s.set >>= s.settle addr bytes := by
  have hlength := List.length_pos_of_ne_nil hbytes
  have hplan : s.set.plan addr (addr + bytes.length) =
      .ok (PatchSet.planFrom addr (addr + bytes.length) none
        ((reached ps addr (addr + bytes.length)).map Patch.entry)) := by
    rw [PatchSet.plan, PatchSet.overlappingEntries_eq_reached h hstop (by omega) hfits]
    rfl
  rw [write, if_neg (by simpa using hbytes), if_neg hfits.not_gt, hplan]
  rfl

theorem write_of_tidy (htidy : Tidy (reached ps addr (addr + bytes.length))) :
    ∃ reply, s.write addr bytes = .ok reply ∧ reply.answer = .ok () := by
  have hmeets : ∀ p ∈ reached ps addr (addr + bytes.length), p.Meets addr (addr + bytes.length) :=
    fun p hp => meets_of_mem_reached hp
  have hlaid := (laid_reached_iff h hstop).2 htidy
  have hget : ∀ p ∈ reached ps addr (addr + bytes.length), s.set.get? p.addr = some p :=
    fun p hp => h.get?_eq_some_iff.2 ⟨List.mem_of_mem_filter hp, rfl⟩
  obtain ⟨c, hclear, hroom⟩ := PatchSet.exists_clear hlaid hmeets hget (h.bounded hstop)
  rw [write_eq_planFrom h hstop hbytes hfits, PatchSet.planFrom_eq hlaid hmeets (by simp)]
  simp only [hclear, Checked.ok_bind]
  cases c with
  | spliced t => exact ⟨_, rfl, rfl⟩
  | room t =>
      obtain ⟨u, hplace⟩ := (hroom t rfl).exists_place addr bytes
      refine ⟨⟨.ok (), s.changedTo u⟩, ?_, rfl⟩
      rw [settle, hplace]
      rfl

theorem write_of_not_tidy (hnot : ¬ Tidy (reached ps addr (addr + bytes.length))) :
    ∃ before p after, reached ps addr (addr + bytes.length) = before ++ p :: after ∧
      Tidy before ∧ ¬ Tidy (before ++ [p]) ∧ s.write addr bytes = .ok (s.refuse
        (.overlapInvariant p.addr (p.stop - 1) addr (addr + bytes.length - 1))) := by
  have hreached : ∀ p ∈ reached ps addr (addr + bytes.length), p.stop ≤ maxAddress :=
    fun p hp => hstop p (List.mem_of_mem_filter hp)
  have hasc : (reached ps addr (addr + bytes.length)).Pairwise fun p q => p.addr < q.addr :=
    h.addr_lt.filter _
  obtain ⟨before, p, after, heq, hbefore, hp, hplan⟩ :=
    PatchSet.planFrom_refused hreached (fun p hp => meets_of_mem_reached hp)
      (PatchSet.laidBehind_none.not.2 ((laid_reached_iff h hstop).not.2 hnot))
  -- what holds of all patches that are reached holds of the first ones
  have hprefix : (before ++ [p]).Sublist (reached ps addr (addr + bytes.length)) := by
    rw [heq]
    exact (List.Sublist.refl before).append (List.singleton_sublist.2 List.mem_cons_self)
  have htidy : ∀ qs : List Patch, qs.Sublist (reached ps addr (addr + bytes.length)) →
      (Laid qs ↔ Tidy qs) := fun qs hqs =>
    laid_iff_tidy (hasc.sublist hqs) fun q hq => hreached q (hqs.subset hq)
  refine ⟨before, p, after, heq, ?_, ?_, ?_⟩
  · exact (htidy _ ((List.sublist_append_left ..).trans hprefix)).1
      (PatchSet.laidBehind_none.1 hbefore)
  · exact (htidy _ hprefix).not.1 (PatchSet.laidBehind_none.not.1 hp)
  · rw [write_eq_planFrom h hstop hbytes hfits, hplan]

end

/-- A write into any set is refused, with nothing changed, exactly if among the patches that the
search reaches one is empty or two share an address, and the refusal names the first patch with
which that is so.  Every overlap among the patches that meet the range is then noticed, unless the
search stops before one of them. -/
theorem write_refused_iff (h : s.set.Holds ps) (hstop : ∀ p ∈ ps, p.stop ≤ maxAddress)
    (hbytes : bytes ≠ []) (hfits : addr + bytes.length ≤ maxAddress) :
    let limit := addr + bytes.length
    ∃ reply, s.write addr bytes = .ok reply ∧
      (Tidy (reached ps addr limit) → reply.answer = .ok ()) ∧
      (¬ Tidy (reached ps addr limit) →
        ∃ before p after, reached ps addr limit = before ++ p :: after ∧ Tidy before ∧
          ¬ Tidy (before ++ [p]) ∧
          reply = s.refuse (.overlapInvariant p.addr (p.stop - 1) addr (limit - 1))) ∧
      (Clash ps addr limit → (∀ p ∈ ps, p.Meets addr limit → p ∈ reached ps addr limit) →
        ¬ Tidy (reached ps addr limit)) := by
  intro limit
  by_cases htidy : Tidy (reached ps addr limit)
  · obtain ⟨reply, hreply, hanswer⟩ := write_of_tidy h hstop hbytes hfits htidy
    exact ⟨reply, hreply, fun _ => hanswer, fun hnot => absurd htidy hnot, Clash.not_tidy⟩
  · obtain ⟨before, p, after, heq, hbefore, hp, hwrite⟩ :=
      write_of_not_tidy h hstop hbytes hfits htidy
    exact ⟨_, hwrite, fun hall => absurd hall htidy,
      fun _ => ⟨before, p, after, heq, hbefore, hp, rfl⟩, Clash.not_tidy⟩

/-- Two patches that overlap around the written range, with nothing between them and it. -/
theorem write_refused_iff_two :
    let s := ofPatches [⟨16, List.replicate 8 0, none⟩, ⟨20, List.replicate 8 0, none⟩]
    s.write 18 [1, 1, 1, 1] = .ok (s.refuse (.overlapInvariant 20 27 18 21)) := by
  intro s
  let first : Patch := ⟨16, List.replicate 8 0, none⟩
  let second : Patch := ⟨20, List.replicate 8 0, none⟩
  have hholds : s.set.Holds [first, second] := rfl
  have hfits : 18 + ([1, 1, 1, 1] : List UInt8).length ≤ maxAddress := by decide
  have hclash : Clash [first, second] 18 22 :=
    ⟨first, by simp, second, by simp, by decide, by decide, by decide, 20, by decide, by decide⟩
  obtain ⟨reply, hwrite, -, hrefused, hseen⟩ :=
    write_refused_iff hholds (by decide) (by decide) hfits
  obtain ⟨before, p, after, heq, -, hp, rfl⟩ := hrefused (hseen hclash (by decide))
  have hreached : reached [first, second] 18 22 = [first, second] := by decide
  rw [hwrite]
  match before, (hreached.symm.trans heq) with
  | [], heq =>
      obtain ⟨rfl, -⟩ := List.cons_eq_cons.1 heq
      exact absurd (by simp [Tidy, first]) hp
  | [_], heq =>
      obtain ⟨-, heq⟩ := List.cons_eq_cons.1 heq
      obtain ⟨rfl, -⟩ := List.cons_eq_cons.1 heq
      rfl
  | _ :: _ :: _, heq => simp at heq

/-- A short patch below the range hides from the search that two longer ones overlap in it. -/
theorem not_write_refused : ¬ ∀ (s : PatchStore) (ps : List Patch) (addr : Nat)
    (bytes : List UInt8), s.set.Holds ps → (∀ p ∈ ps, p.stop ≤ maxAddress) → bytes ≠ [] →
    addr + bytes.length ≤ maxAddress → Clash ps addr (addr + bytes.length) →
    ∃ p last, s.write addr bytes =
      .ok (s.refuse (.overlapInvariant p last addr (addr + bytes.length - 1))) := by
  intro h
  let ps : List Patch :=
    [⟨0, List.replicate 8 0, none⟩, ⟨1, List.replicate 7 0, none⟩, ⟨2, [0], none⟩]
  have hclash : Clash ps 4 5 :=
    ⟨ps[0], by decide, ps[1], by decide, by decide, by decide, by decide, 4, by decide, by decide⟩
  obtain ⟨p, last, hwrite⟩ := h (ofPatches ps) ps 4 [0xEE] rfl (by decide) (by decide) (by decide)
    hclash
  have hanswer : ((ofPatches ps).write 4 [0xEE]).map (·.answer) = .ok (.ok ()) := by rfl
  rw [hwrite] at hanswer
  cases hanswer

end PatchStore

end HexEditor
