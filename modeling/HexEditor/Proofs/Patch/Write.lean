import HexEditor.Proofs.Patch.Cut

/-!
# Writing into the store

The store plans a write against the patches that meet it, carries the plan out patch by
patch, and then places the bytes.  On laid out patches

* every patch that meets the range falls under one of the four adjustments
  (`planFrom_eq`), so that no write is refused for a corrupt set;
* carrying the plan out leaves of each patch what lies below the range and what lies
  beyond it (`clear_eq_room`), and puts what it keeps back in its place;
* the patch that owns the address before the range ends where the range starts
  (`place_eq`).

Together this is `write_eq`: a write succeeds, and the patches become as in `Written`.
-/

namespace HexEditor

namespace Patch

variable {p : Patch} {addr limit : Nat} {bytes : List UInt8}

/-! ## Adjusting a patch -/

/-- How a patch that meets the range is adjusted. -/
def adjustment (p : Patch) (addr limit : Nat) : Adjustment :=
  if p.addr ≤ addr ∧ limit ≤ p.stop then .splice
  else if p.addr < addr then .keepHead
  else if limit < p.stop then .keepTail
  else .remove

theorem ofMeeting_eq (hp : p.Proper) (h : p.Meets addr limit) :
    Adjustment.ofMeeting p.addr p.stop addr limit = some (p.adjustment addr limit) := by
  have hstart := hp.addr_lt_stop
  obtain ⟨hlow, hhigh⟩ := h
  unfold Adjustment.ofMeeting adjustment
  rw [if_pos ⟨hstart, hlow, hhigh⟩]
  split_ifs <;> first | rfl | omega

theorem Encloses.adjustment_eq (h : p.Encloses addr limit) :
    p.adjustment addr limit = .splice := if_pos h

theorem splice_eq (hp : p.Proper) (h : p.Encloses addr (addr + bytes.length)) :
    p.splice addr bytes = .ok (p.overwrite addr bytes) := by
  obtain ⟨hfirst, hlimit⟩ := h
  have hstop := hp.stop_le
  unfold stop size at hlimit hstop
  have hcut : addr - p.addr + bytes.length ≤ p.bytes.length := by omega
  unfold splice
  rw [checkedSub_of_le hfirst, Checked.ok_bind, checkedAdd_of_le (by omega), Checked.ok_bind,
    checkedSplit_of_le hcut, Checked.ok_bind]
  simp [overwrite, List.take_take]

theorem keepBelow_eq (h : p.addr < addr) :
    ∃ q, p.keepBelow addr = .ok q ∧ p.below? addr = some q :=
  ⟨_, by rw [keepBelow, checkedSub_of_le h.le]; rfl, if_pos h⟩

theorem keepFrom_eq (hfirst : p.addr ≤ limit) (hlimit : limit < p.stop) :
    ∃ q, p.keepFrom limit = .ok q ∧ p.beyond? limit = some q := by
  have hcut : limit - p.addr ≤ p.bytes.length := by
    unfold stop size at hlimit
    omega
  refine ⟨_, ?_, if_pos hlimit⟩
  rw [keepFrom, checkedSub_of_le hfirst, Checked.ok_bind, checkedSplit_of_le hcut,
    Checked.ok_bind, Nat.max_eq_right hfirst]
  rfl

/-- The planned step for a patch. -/
def step (addr limit : Nat) (p : Patch) : PlannedStep := ⟨p.addr, p.adjustment addr limit⟩

end Patch

variable {ps before meeting after lows highs : List Patch} {p : Patch} {addr limit : Nat}
  {bytes : List UInt8}

/-- Laid out patches end before the range, or meet it, or start behind it, in this order. -/
theorem Laid.exists_meeting (h : Laid ps) (addr limit : Nat) :
    ∃ before meeting after, ps = before ++ (meeting ++ after) ∧
      (∀ p ∈ before, p.stop ≤ addr) ∧ (∀ p ∈ meeting, p.Meets addr limit) ∧
      ∀ p ∈ after, limit ≤ p.addr := by
  induction ps with
  | nil => exact ⟨[], [], [], by simp⟩
  | cons p ps ih =>
      obtain ⟨hp, hahead, hlaid⟩ := laid_cons.1 h
      have hstart := hp.addr_lt_stop
      obtain ⟨before, meeting, after, rfl, hbefore, hmeeting, hafter⟩ := ih hlaid
      by_cases hend : p.stop ≤ addr
      · exact ⟨p :: before, meeting, after, rfl, List.forall_mem_cons.2 ⟨hend, hbefore⟩,
          hmeeting, hafter⟩
      -- whatever follows ends after `addr` as well
      have hnil : before = [] := List.eq_nil_iff_forall_not_mem.2 fun q hq => by
        have hle := hahead q (List.mem_append_left _ hq)
        have hstop := (hlaid.proper q (List.mem_append_left _ hq)).addr_lt_stop
        have := hbefore q hq
        omega
      subst hnil
      by_cases hmeet : p.addr < limit
      · exact ⟨[], p :: meeting, after, rfl, by simp,
          List.forall_mem_cons.2 ⟨⟨hmeet, not_le.1 hend⟩, hmeeting⟩, hafter⟩
      · refine ⟨[], [], p :: (meeting ++ after), rfl, by simp, by simp, ?_⟩
        refine List.forall_mem_cons.2 ⟨not_lt.1 hmeet, fun q hq => ?_⟩
        exact ((not_lt.1 hmeet).trans hstart.le).trans (hahead q hq)

theorem filter_meets_eq (hbefore : ∀ p ∈ before, p.stop ≤ addr)
    (hmeets : ∀ p ∈ meeting, p.Meets addr limit) (hafter : ∀ p ∈ after, limit ≤ p.addr) :
    ((before ++ (meeting ++ after)).filter fun p => p.Meets addr limit) = meeting := by
  rw [List.filter_append, List.filter_append,
    List.filter_eq_self.2 fun p hp => decide_eq_true (hmeets p hp),
    List.filter_eq_nil_iff.2 fun p hp => decide_eq_true_iff.not.2 fun hmeet =>
      hmeet.2.not_ge (hbefore p hp),
    List.filter_eq_nil_iff.2 fun p hp => decide_eq_true_iff.not.2 fun hmeet =>
      hmeet.1.not_ge (hafter p hp)]
  simp

/-- Only one patch meets a range that lies in a patch. -/
theorem Laid.eq_singleton_of_encloses (h : Laid meeting)
    (hmeets : ∀ q ∈ meeting, q.Meets addr limit) (hp : p ∈ meeting)
    (hin : p.Encloses addr limit) : meeting = [p] := by
  obtain ⟨before, after, rfl⟩ := List.append_of_mem hp
  obtain ⟨-, hrest, hbetween⟩ := laid_append.1 h
  obtain ⟨-, hahead, -⟩ := laid_cons.1 hrest
  obtain ⟨hfirst, hlimit⟩ := hin
  have hbefore : before = [] := List.eq_nil_iff_forall_not_mem.2 fun q hq => by
    have hle := hbetween q hq p (List.mem_cons_self ..)
    have hlow := (hmeets q (by simp [hq])).2
    omega
  have hafter : after = [] := List.eq_nil_iff_forall_not_mem.2 fun q hq => by
    have hle := hahead q hq
    have hhigh := (hmeets q (by simp [hq])).1
    omega
  rw [hbefore, hafter, List.nil_append]

namespace PatchSet

variable {s : PatchSet}

/-! ## Planning -/

/-- Every patch that meets the range is planned for. -/
theorem planFrom_eq (h : Laid meeting) (hmeets : ∀ p ∈ meeting, p.Meets addr limit)
    {reached : Option Nat} (hreached : ∀ stop ∈ reached, ∀ p ∈ meeting, stop ≤ p.addr) :
    planFrom addr limit reached (meeting.map Patch.entry) =
      .ok (meeting.map (Patch.step addr limit)) := by
  -- what has been reached is where the last patch ends, which the plan compares with the next
  induction meeting generalizing reached with
  | nil => rfl
  | cons p rest ih =>
      obtain ⟨hp, hahead, hrest⟩ := laid_cons.1 h
      obtain ⟨hmeet, hmeets⟩ := List.forall_mem_cons.1 hmeets
      have hdisjoint : reached.all (· ≤ p.addr) = true := by
        cases reached with
        | none => rfl
        | some stop => simpa using hreached stop rfl p (List.mem_cons_self ..)
      have hreached : ∀ stop ∈ some p.stop, ∀ q ∈ rest, stop ≤ q.addr := by simpa using hahead
      have htail := ih hrest hmeets hreached
      rw [List.map_cons, Patch.entry, planFrom]
      simp only [hdisjoint, if_true, Patch.ofMeeting_eq hp hmeet]
      rw [htail]
      rfl

theorem plan_eq (h : s.Holds (before ++ (meeting ++ after)))
    (hlaid : Laid (before ++ (meeting ++ after))) (hrange : addr < limit)
    (hbefore : ∀ p ∈ before, p.stop ≤ addr) (hmeets : ∀ p ∈ meeting, p.Meets addr limit)
    (hafter : ∀ p ∈ after, limit ≤ p.addr) :
    s.plan addr limit = .ok (.ok (meeting.map (Patch.step addr limit))) := by
  have hmeeting : Laid meeting := (laid_append.1 (laid_append.1 hlaid).2.1).1
  have hfound : (before ++ (meeting ++ after)).filter
      (fun p => p.Meets addr (addr + (limit - addr))) = meeting := by
    rw [Nat.add_sub_cancel' hrange.le]
    exact filter_meets_eq hbefore hmeets hafter
  rw [plan, overlappingEntries_eq h hlaid (Nat.sub_pos_of_lt hrange), hfound]
  simp only [Checked.ok_bind, Checked.pure_eq_ok]
  rw [planFrom_eq hmeeting hmeets (by simp)]

/-! ## Carrying the plan out -/

/-- What is kept of a patch goes where the patch was. -/
theorem Holds.replace_middle (h : s.Holds (before ++ p :: after)) {q : Patch}
    (hbefore : ∀ r ∈ before, r.addr < q.addr) (hafter : ∀ r ∈ after, q.addr < r.addr) :
    Holds (add (s.erase p.addr) q) (before ++ q :: after) :=
  Holds.add_between h.erase_middle hbefore hafter

/-- Carrying the plan out leaves what lies below and beyond the range. -/
theorem clear_eq_room (hlaid : Laid (meeting ++ after))
    (hmeets : ∀ p ∈ meeting, p.Meets addr (addr + bytes.length))
    (hout : ∀ p ∈ meeting, ¬ p.Encloses addr (addr + bytes.length))
    (h : s.Holds (before ++ (meeting ++ after))) :
    ∃ t : PatchSet,
      clear addr bytes (meeting.map (Patch.step addr (addr + bytes.length))) s = .ok (.room t) ∧
      t.Holds (before ++ (meeting.filterMap (·.below? addr) ++
        (meeting.filterMap (·.beyond? (addr + bytes.length)) ++ after))) := by
  -- the induction moves what is kept of the first patch over to the patches before
  induction meeting generalizing before s with
  | nil => exact ⟨s, rfl, h⟩
  | cons p rest ih =>
      rw [List.cons_append] at hlaid h
      obtain ⟨hp, hahead, hrest⟩ := laid_cons.1 hlaid
      obtain ⟨⟨hlow, hhigh⟩, hmeets⟩ := List.forall_mem_cons.1 hmeets
      obtain ⟨hpout, hout⟩ := List.forall_mem_cons.1 hout
      obtain ⟨hbehind, -⟩ := h.addr_around
      have hget := h.get?_middle
      simp only [Patch.Encloses, not_and, not_le] at hpout
      rw [List.map_cons, List.filterMap_cons, List.filterMap_cons]
      unfold clear Patch.step Patch.adjustment
      by_cases hhead : p.addr < addr
      · -- the patch keeps its head, and ends in the range
        obtain ⟨q, hkeep, hbelow⟩ := Patch.keepBelow_eq hhead
        have haddr := Patch.addr_of_below? hbelow
        have hplaced := h.replace_middle (q := q) (haddr ▸ hbehind) fun r hr =>
          haddr ▸ hp.addr_lt_stop.trans_le (hahead r hr)
        obtain ⟨t, hclear, hheld⟩ := ih hrest hmeets hout
          (by rwa [List.append_assoc before [q], List.singleton_append])
        refine ⟨t, ?_, ?_⟩
        · rw [if_neg (fun hin => (hpout hin.1).not_ge hin.2), if_pos hhead]
          simp only [hget, hkeep, Checked.ok_bind]
          exact hclear
        · rw [hbelow, Patch.beyond?_eq_none (hpout hhead.le).le]
          simpa using hheld
      · have hbelow : p.below? addr = none := Patch.below?_eq_none (not_lt.1 hhead)
        by_cases htail : addr + bytes.length < p.stop
        · -- the patch keeps its tail, so that nothing else meets the range
          obtain ⟨q, hkeep, hbeyond⟩ := Patch.keepFrom_eq hlow.le htail
          have haddr : q.addr = addr + bytes.length := by
            rw [Patch.addr_of_beyond? hbeyond, Nat.max_eq_right hlow.le]
          have hnone : rest.filterMap (·.below? addr) = [] := by
            refine List.filterMap_eq_nil_iff.2 fun r hr => Patch.below?_eq_none ?_
            exact hhigh.le.trans (hahead r (List.mem_append_left _ hr))
          have hplaced := h.replace_middle (q := q)
            (fun r hr => haddr ▸ (hbehind r hr).trans hlow)
            fun r hr => haddr ▸ htail.trans_le (hahead r hr)
          obtain ⟨t, hclear, hheld⟩ := ih hrest hmeets hout
            (by rwa [List.append_assoc before [q], List.singleton_append])
          refine ⟨t, ?_, ?_⟩
          · rw [if_neg (fun hin => (hpout hin.1).not_ge hin.2), if_neg hhead, if_pos htail]
            simp only [hget, hkeep, Checked.ok_bind]
            exact hclear
          · rw [hbelow, hbeyond, hnone]
            simpa [hnone] using hheld
        · -- the patch lies in the range
          obtain ⟨t, hclear, hheld⟩ := ih hrest hmeets hout h.erase_middle
          refine ⟨t, ?_, ?_⟩
          · rw [if_neg (fun hin => (hpout hin.1).not_ge hin.2), if_neg hhead, if_neg htail]
            exact hclear
          · rw [hbelow, Patch.beyond?_eq_none (not_lt.1 htail)]
            exact hheld

/-! ## Placing the bytes -/

/-- The bytes are placed behind a patch that touches the range, else on their own. -/
theorem place_eq (h : s.Holds (lows ++ highs)) (hlaid : Laid (lows ++ highs))
    (hbytes : bytes ≠ []) (hlow : ∀ p ∈ lows, p.stop ≤ addr)
    (hhigh : ∀ p ∈ highs, addr + bytes.length ≤ p.addr) :
    ∃ t : PatchSet, s.place addr bytes = .ok t ∧
      ((∃ before p, lows = before ++ [p] ∧ p.stop = addr ∧
          t.Holds (before ++ p.append bytes :: highs)) ∨
        (∀ p ∈ lows, p.stop ≠ addr) ∧ t.Holds (lows ++ { addr, bytes } :: highs)) := by
  have hlength := List.length_pos_of_ne_nil hbytes
  have hproper := (laid_append.1 hlaid).1
  have hcreate : (∀ p ∈ lows, p.stop ≠ addr) → s.owning addr = .ok none →
      ∃ t : PatchSet, s.place addr bytes = .ok t ∧ t.Holds (lows ++ { addr, bytes } :: highs) := by
    intro hfree howning
    refine ⟨s.add { addr, bytes }, by rw [place, howning]; rfl, Holds.add_between h ?_ ?_⟩
    · exact fun q hq => (hproper.proper q hq).addr_lt_stop.trans_le (hlow q hq)
    · intro q hq
      have := hhigh q hq
      show addr < q.addr
      omega
  -- the owner of the address before the range is the last patch, if that touches the range
  have howning : 0 < addr → s.owning addr =
      .ok ((lows.filter fun p => p.stop = addr).map Patch.addr).head? := by
    intro hpos
    have hfound : (lows ++ highs).filter (fun p => p.Meets (addr - 1) (addr - 1 + 1)) =
        lows.filter fun p => p.stop = addr := by
      have hnone : highs.filter (fun p => p.Meets (addr - 1) (addr - 1 + 1)) = [] := by
        refine List.filter_eq_nil_iff.2 fun p hp => decide_eq_true_iff.not.2 fun hmeet => ?_
        have hstart := hhigh p hp
        have hend := hmeet.1
        omega
      rw [List.filter_append, hnone, List.append_nil]
      refine List.filter_congr fun p hp => decide_eq_decide.2 ?_
      have hstart := (hproper.proper p hp).addr_lt_stop
      have hstop := hlow p hp
      unfold Patch.Meets
      omega
    rw [owning, if_neg hpos.ne', overlapping_eq h hlaid Nat.one_pos, hfound]
    rfl
  rcases lows.eq_nil_or_concat with hnil | ⟨before, p, hlows⟩
  · have hfree : ∀ p ∈ lows, p.stop ≠ addr := by simp [hnil]
    have hnone : s.owning addr = .ok none := by
      rcases Nat.eq_zero_or_pos addr with hzero | hpos
      · rw [owning, if_pos hzero]
      · rw [howning hpos, hnil]
        rfl
    obtain ⟨t, hplace, hheld⟩ := hcreate hfree hnone
    exact ⟨t, hplace, .inr ⟨hfree, hheld⟩⟩
  · rw [List.concat_eq_append] at hlows
    subst hlows
    have hstart := (hproper.proper p (by simp)).addr_lt_stop
    have hstop := hlow p (by simp)
    have hbefore : before.filter (fun q => q.stop = addr) = [] := by
      refine List.filter_eq_nil_iff.2 fun q hq => ?_
      have hle := (laid_append.1 hproper).2.2 q hq p (List.mem_singleton_self p)
      rw [decide_eq_true_eq]
      omega
    by_cases htouch : p.stop = addr
    · have howner : s.owning addr = .ok (some p.addr) := by
        rw [howning (by omega), List.filter_append, hbefore]
        simp [htouch]
      rw [List.append_assoc, List.singleton_append] at h
      exact ⟨_, by rw [place, howner]; rfl,
        .inl ⟨before, p, rfl, htouch, h.modify_middle (f := (·.append bytes)) rfl⟩⟩
    · have hfree : ∀ q ∈ before ++ [p], q.stop ≠ addr := by
        intro q hq
        rcases List.mem_append.1 hq with hq | hq
        · simpa using List.filter_eq_nil_iff.1 hbefore q hq
        · rwa [List.mem_singleton.1 hq]
      have hnone : s.owning addr = .ok none := by
        rw [howning (by omega), List.filter_append, hbefore]
        simp [htouch]
      obtain ⟨t, hplace, hheld⟩ := hcreate hfree hnone
      exact ⟨t, hplace, .inr ⟨hfree, hheld⟩⟩

end PatchSet

/-! ## The whole write -/

/-- What is left of a list below and beyond a range that no patch encloses. -/
theorem Laid.below_beyond_eq (hlaid : Laid (before ++ (meeting ++ after))) (hrange : addr < limit)
    (hbefore : ∀ p ∈ before, p.stop ≤ addr) (hafter : ∀ p ∈ after, limit ≤ p.addr) :
    (before ++ (meeting ++ after)).filterMap (·.below? addr) =
        before ++ meeting.filterMap (·.below? addr) ∧
      (before ++ (meeting ++ after)).filterMap (·.beyond? limit) =
        meeting.filterMap (·.beyond? limit) ++ after := by
  have hkeep : ∀ {f : Patch → Option Patch} (qs : List Patch), (∀ q ∈ qs, f q = some q) →
      qs.filterMap f = qs := fun qs hf => by
    rw [List.filterMap_congr hf]
    exact List.filterMap_some
  have hdrop : ∀ {f : Patch → Option Patch} (qs : List Patch), (∀ q ∈ qs, f q = none) →
      qs.filterMap f = [] := fun qs => List.filterMap_eq_nil_iff.2
  -- `before` is kept below the range and gone beyond it; `after` is the other way round
  constructor
  · rw [List.filterMap_append, List.filterMap_append, hkeep before, hdrop after,
      List.append_nil]
    · exact fun q hq => Patch.below?_eq_none (hrange.le.trans (hafter q hq))
    · exact fun q hq => Patch.below?_eq_self (hlaid.proper q (by simp [hq])) (hbefore q hq)
  · rw [List.filterMap_append, List.filterMap_append, hdrop before, hkeep after,
      List.nil_append]
    · exact fun q hq => Patch.beyond?_eq_self (hlaid.proper q (by simp [hq])) (hafter q hq)
    · exact fun q hq => Patch.beyond?_eq_none ((hbefore q hq).trans hrange.le)

namespace PatchStore

variable {s : PatchStore}

/-- A write that fits the address space succeeds, and says so once. -/
theorem write_eq (h : s.set.Holds ps) (hlaid : Laid ps) (hbytes : bytes ≠ [])
    (hfits : addr + bytes.length ≤ maxAddress) :
    ∃ (t : PatchSet) (qs : List Patch),
      s.write addr bytes = .ok ⟨.ok (), s.changedTo t⟩ ∧ t.Holds qs ∧ Written addr bytes ps qs := by
  have hlength := List.length_pos_of_ne_nil hbytes
  have hrange : addr < addr + bytes.length := by omega
  obtain ⟨before, meeting, after, rfl, hbefore, hmeets, hafter⟩ :=
    hlaid.exists_meeting addr (addr + bytes.length)
  have hplan := PatchSet.plan_eq h hlaid hrange hbefore hmeets hafter
  have hmeeting := (laid_append.1 hlaid).2.1
  have hwrite : s.write addr bytes =
      PatchSet.clear addr bytes (meeting.map (Patch.step addr (addr + bytes.length))) s.set >>=
        s.settle addr bytes := by
    rw [write, if_neg (by simpa using hbytes), if_neg hfits.not_gt, hplan]
    rfl
  -- a patch that encloses the range is the only one that meets it
  by_cases hin : ∃ p ∈ meeting, p.Encloses addr (addr + bytes.length)
  · obtain ⟨p, hp, hin⟩ := hin
    obtain rfl := (laid_append.1 hmeeting).1.eq_singleton_of_encloses hmeets hp hin
    rw [List.singleton_append] at h
    have hsplice := Patch.splice_eq (hlaid.proper p (by simp)) hin
    refine ⟨_, _, ?_, h.modify_middle (f := fun _ => p.overwrite addr bytes) rfl,
      .inPlace (by simp) hin⟩
    rw [hwrite, List.map_singleton, PatchSet.clear, Patch.step, hin.adjustment_eq]
    simp only [h.get?_middle, hsplice, Checked.ok_bind, Checked.pure_eq_ok]
    rfl
  · have hmeetOut : ∀ p ∈ meeting, ¬ p.Encloses addr (addr + bytes.length) :=
      fun p hp hp' => hin ⟨p, hp, hp'⟩
    have hout : ∀ p ∈ before ++ (meeting ++ after), ¬ p.Encloses addr (addr + bytes.length) := by
      intro p hp hp'
      rcases List.mem_append.1 hp with hp | hp
      · have := hbefore p hp
        have := hp'.2
        omega
      · rcases List.mem_append.1 hp with hp | hp
        · exact hmeetOut p hp hp'
        · have := hafter p hp
          have := hp'.1
          omega
    obtain ⟨t, hclear, hheld⟩ := PatchSet.clear_eq_room hmeeting hmeets hmeetOut h
    obtain ⟨hbelow, hbeyond⟩ := hlaid.below_beyond_eq hrange hbefore hafter
    rw [← List.append_assoc, ← hbelow, ← hbeyond] at hheld
    have hcut := laid_append.2 ⟨hlaid.below addr, hlaid.beyond (addr + bytes.length),
      fun q hq r hr => (stop_le_of_mem_below hq).trans (hrange.le.trans (le_addr_of_mem_beyond hr))⟩
    obtain ⟨u, hplace, hplaced⟩ := PatchSet.place_eq hheld hcut hbytes
      (fun q hq => stop_le_of_mem_below hq) fun q hq => le_addr_of_mem_beyond hq
    have hanswer : s.write addr bytes = .ok ⟨.ok (), s.changedTo u⟩ := by
      rw [hwrite, hclear, Checked.ok_bind]
      simp only [settle, hplace, Checked.ok_bind, Checked.pure_eq_ok]
    rcases hplaced with ⟨before, p, hlows, htouch, hheld⟩ | ⟨hfree, hheld⟩
    · exact ⟨u, _, hanswer, hheld, .extended hout hlows htouch⟩
    · exact ⟨u, _, hanswer, hheld, .created hout hfree⟩

end PatchStore

end HexEditor
