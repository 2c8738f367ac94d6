import HexEditor.Patch.Edit
import HexEditor.Proofs.Patch.Cut
import Mathlib.Data.List.Chain

/-!
# Splitting, merging and reverting laid out patches

What the requests that name patches by their start addresses do to a set of laid out
patches.  A run of patches of which each ends where the next one starts stands together
in the list (`Laid.exists_run`), so that merging it replaces a stretch of the list by one
patch (`mergeRun_eq`).
-/

namespace HexEditor

variable {ps before after run : List Patch} {p q : Patch} {addr cut : Nat}

/-! ## Runs -/

/-- Each patch ends where the next one starts. -/
def Touching (ps : List Patch) : Prop := ps.IsChain fun p q => p.stop = q.addr

/-- A patch with the bytes of the patches behind it. -/
def merged (p : Patch) (run : List Patch) : Patch := run.foldl (fun p q => p.append q.bytes) p

@[simp] theorem merged_cons (p q : Patch) (run : List Patch) :
    merged p (q :: run) = merged (p.append q.bytes) run := rfl

@[simp] theorem merged_addr (p : Patch) (run : List Patch) : (merged p run).addr = p.addr := by
  induction run generalizing p with
  | nil => rfl
  | cons q run ih => rw [merged_cons, ih]; rfl

theorem merged_bytes (p : Patch) (run : List Patch) :
    (merged p run).bytes = p.bytes ++ run.flatMap Patch.bytes := by
  induction run generalizing p with
  | nil => simp [merged]
  | cons q run ih =>
      rw [merged_cons, ih, List.flatMap_cons, ← List.append_assoc]
      rfl

/-- A patch and the one that starts at its end are the ends of one stretch. -/
theorem stop_append_of_touching (h : p.stop = q.addr) : (p.append q.bytes).stop = q.stop := by
  rw [Patch.stop_append, h]
  rfl

theorem Touching.join (h : Touching (p :: q :: run)) : Touching (p.append q.bytes :: run) := by
  obtain ⟨hpq, hrest⟩ := List.isChain_cons_cons.1 h
  cases run with
  | nil => exact List.isChain_singleton _
  | cons r run =>
      obtain ⟨hqr, hrest⟩ := List.isChain_cons_cons.1 hrest
      exact List.isChain_cons_cons.2 ⟨(stop_append_of_touching hpq).trans hqr, hrest⟩

/-- The merged patch ends where the last patch of the run does. -/
theorem merged_stop_le {stop : Nat} (htouch : Touching (p :: run))
    (hstop : ∀ q ∈ p :: run, q.stop ≤ stop) : (merged p run).stop ≤ stop := by
  induction run generalizing p with
  | nil => exact hstop p (List.mem_singleton_self p)
  | cons q run ih =>
      have hend := stop_append_of_touching (List.isChain_cons_cons.1 htouch).1
      refine ih htouch.join (List.forall_mem_cons.2 ⟨hend ▸ hstop q (by simp), fun r hr => ?_⟩)
      exact hstop r (by simp [hr])

/-- The bytes of a run are the bytes of the merged patch. -/
theorem byteIn_run (htouch : Touching (p :: run)) (a : Nat) :
    byteIn (p :: run) a = (merged p run).byteAt? a := by
  induction run generalizing p with
  | nil => rw [byteIn_cons]; simp [byteIn, merged]
  | cons q run ih =>
      have hpq : p.stop = q.addr := (List.isChain_cons_cons.1 htouch).1
      have hpair : (p.byteAt? a).or (q.byteAt? a) = (p.append q.bytes).byteAt? a := by
        rw [Patch.byteAt?_append, hpq]
        by_cases hle : q.addr ≤ a
        · have hnone : p.byteAt? a = none :=
            Patch.byteAt?_eq_none_iff.2 fun hmem => absurd hmem.2 (hpq ▸ hle).not_gt
          rw [hnone, Option.none_or, if_pos hle]
          exact if_pos hle
        · have hnone : q.byteAt? a = none :=
            Patch.byteAt?_eq_none_iff.2 fun hmem => hle hmem.1
          rw [hnone, Option.or_none, if_neg hle]
      rw [merged_cons, ← ih htouch.join, byteIn_cons, byteIn_cons, byteIn_cons, ← Option.or_assoc,
        hpair]

/-- The patch before a patch that starts where another one ends is that other one. -/
theorem Laid.touching_before (h : Laid (before ++ q :: after)) (hp : p ∈ before ++ q :: after)
    (htouch : p.stop = q.addr) : ∃ init, before = init ++ [p] := by
  obtain ⟨hbefore, hrest, hbetween⟩ := laid_append.1 h
  obtain ⟨hq, hahead, hafter⟩ := laid_cons.1 hrest
  have hstart := (h.proper p hp).addr_lt_stop
  have hqstart := hq.addr_lt_stop
  have hin : p ∈ before := by
    rcases List.mem_append.1 hp with hp | hp
    · exact hp
    · rcases List.mem_cons.1 hp with rfl | hp
      · omega
      · have := hahead p hp
        omega
  obtain ⟨init, tail, rfl⟩ := List.append_of_mem hin
  -- a patch between the two would have no room
  have hnil : tail = [] := List.eq_nil_iff_forall_not_mem.2 fun r hr => by
    have hle := (laid_cons.1 (laid_append.1 hbefore).2.1).2.1 r hr
    have hroom := hbetween r (by simp [hr]) q (List.mem_cons_self ..)
    have := (hbefore.proper r (by simp [hr])).addr_lt_stop
    omega
  exact ⟨init, by rw [hnil]⟩

/-! ## The requests -/

theorem Patch.Proper.stop?_eq (h : p.Proper) : p.stop? = .ok p.stop :=
  checkedAdd_of_le h.stop_le

namespace PatchStore

variable {s : PatchStore}

theorem canSplit_eq (h : s.set.Holds ps) (hlaid : Laid ps) (hp : p ∈ ps) (cut : Nat) :
    s.canSplit p.addr cut = .ok (decide (p.addr < cut ∧ cut < p.stop)) := by
  rw [canSplit, h.get?_eq_some_iff.2 ⟨hp, rfl⟩]
  by_cases hlt : p.addr < cut
  · simp [hlt, (hlaid.proper p hp).stop?_eq]
  · simp [hlt]

/-- Splitting puts the two parts of a patch in its place. -/
theorem split_eq (h : s.set.Holds (before ++ p :: after)) (hlaid : Laid (before ++ p :: after))
    (hlow : p.addr < cut) (hhigh : cut < p.stop) :
    ∃ (t : PatchSet) (low high : Patch),
      s.split p.addr cut = .ok ⟨.ok (), s.changedTo t⟩ ∧ p.below? cut = some low ∧
        p.beyond? cut = some high ∧ t.Holds (before ++ low :: high :: after) := by
  obtain ⟨hbehind, -⟩ := h.addr_around
  have hahead := (laid_cons.1 (laid_append.1 hlaid).2.1).2.1
  have hcut : cut - p.addr ≤ p.bytes.length := by
    unfold Patch.stop Patch.size at hhigh
    omega
  let low : Patch := { p with bytes := p.bytes.take (cut - p.addr) }
  let high : Patch := { p with addr := cut, bytes := p.bytes.drop (cut - p.addr) }
  have hleft : PatchSet.Holds (s.set.modify p.addr fun p =>
      { p with bytes := low.bytes }) (before ++ low :: after) := h.modify_middle rfl
  have hright : (PatchSet.add (s.set.modify p.addr fun p =>
      { p with bytes := low.bytes }) high).Holds ((before ++ [low]) ++ high :: after) := by
    refine PatchSet.Holds.add_between (by simpa using hleft) ?_ ?_
    · intro r hr
      rcases List.mem_append.1 hr with hr | hr
      · exact (hbehind r hr).trans hlow
      · rw [List.mem_singleton.1 hr]
        exact hlow
    · exact fun r hr => hhigh.trans_le (hahead r hr)
  refine ⟨_, low, high, ?_, if_pos hlow, ?_, by simpa using hright⟩
  · rw [split, h.get?_middle]
    simp only [canSplit_eq h hlaid (List.mem_append_right _ (List.mem_cons_self ..)),
      Checked.ok_bind, hlow, hhigh, and_self, decide_true, if_true, checkedSub_of_le hlow.le,
      checkedSplit_of_le hcut, Checked.pure_eq_ok, low, high]
  · rw [Patch.beyond?, if_pos hhigh, Nat.max_eq_right hlow.le]

theorem split_refused (h : s.set.Holds ps) (hlaid : Laid ps) {addr : Nat}
    (hout : ∀ p ∈ ps, p.addr = addr → ¬ (p.addr < cut ∧ cut < p.stop)) :
    s.split addr cut = .ok (s.refuse (.notFound addr)) ∨
      s.split addr cut = .ok (s.refuse (.invalidSplit addr cut)) := by
  cases hget : s.set.get? addr with
  | none => exact .inl (by rw [split, hget]; rfl)
  | some p =>
      obtain ⟨hp, rfl⟩ := h.get?_eq_some_iff.1 hget
      refine .inr ?_
      rw [split, hget]
      simp [canSplit_eq h hlaid hp, hout p hp rfl]

theorem canMerge_eq (h : s.set.Holds ps) (hlaid : Laid ps) (hp : p ∈ ps) (other : Nat) :
    s.canMerge p.addr other = .ok (decide (p.stop = other ∧ ∃ q ∈ ps, q.addr = other)) := by
  rw [canMerge, h.get?_eq_some_iff.2 ⟨hp, rfl⟩]
  simp only [(hlaid.proper p hp).stop?_eq, Checked.ok_bind, h.contains_iff, Checked.pure_eq_ok]

/-- The first two neighbours are compared, and then the rest. -/
theorem firstApart?_cons_cons (h : s.set.Holds ps) (hlaid : Laid ps) (hp : p ∈ ps) (other : Nat)
    (rest : List Nat) :
    s.firstApart? (p.addr :: other :: rest) =
      if p.stop = other ∧ ∃ q ∈ ps, q.addr = other then s.firstApart? (other :: rest)
      else .ok (some (p.addr, other)) := by
  rw [firstApart?, canMerge_eq h hlaid hp, Checked.ok_bind]
  simp only [decide_eq_true_eq]
  rfl

/-- Patches that touch are not found apart. -/
theorem firstApart?_of_touching (h : s.set.Holds ps) (hlaid : Laid ps) (hsub : run ⊆ ps)
    (htouch : Touching run) : s.firstApart? (run.map Patch.addr) = .ok none := by
  induction run with
  | nil => rfl
  | cons p rest ih =>
      cases rest with
      | nil => rfl
      | cons q rest =>
          obtain ⟨hpq, htouch⟩ := List.isChain_cons_cons.1 htouch
          obtain ⟨hp, hsub⟩ := List.cons_subset.1 hsub
          have hcan : p.stop = q.addr ∧ ∃ r ∈ ps, r.addr = q.addr :=
            ⟨hpq, q, hsub (List.mem_cons_self ..), rfl⟩
          rw [List.map_cons, List.map_cons, firstApart?_cons_cons h hlaid hp, if_pos hcan]
          exact ih hsub htouch

/-- The patches that can be merged stand together. -/
theorem exists_run (h : s.set.Holds ps) (hlaid : Laid ps) {addrs : List Nat} (hne : addrs ≠ [])
    (hfound : ∀ a ∈ addrs, ∃ p ∈ ps, p.addr = a) (hnear : s.firstApart? addrs = .ok none) :
    ∃ before run after, ps = before ++ (run ++ after) ∧ Touching run ∧
      run.map Patch.addr = addrs := by
  induction addrs with
  | nil => exact absurd rfl hne
  | cons a rest ih =>
      obtain ⟨p, hp, rfl⟩ := hfound a (List.mem_cons_self ..)
      cases rest with
      | nil =>
          obtain ⟨before, after, rfl⟩ := List.append_of_mem hp
          exact ⟨before, [p], after, rfl, List.isChain_singleton _, rfl⟩
      | cons b rest =>
          rw [firstApart?_cons_cons h hlaid hp] at hnear
          split at hnear
          · next hcan =>
              obtain ⟨before, run, after, hps, htouch, haddrs⟩ := ih (by simp)
                (fun a ha => hfound a (List.mem_cons_of_mem _ ha)) hnear
              cases run with
              | nil => simp at haddrs
              | cons q run =>
                  obtain ⟨hq, hrest⟩ := List.cons.inj haddrs
                  have hpq : p.stop = q.addr := by
                    rw [hq]
                    exact hcan.1
                  rw [hps] at hlaid hp
                  -- a patch that ends where the run starts stands right before the run
                  obtain ⟨init, rfl⟩ := hlaid.touching_before hp hpq
                  refine ⟨init, p :: q :: run, after, by simp [hps],
                    List.isChain_cons_cons.2 ⟨hpq, htouch⟩, ?_⟩
                  rw [List.map_cons, haddrs]
          · simp at hnear

/-- Absorbing the rest of a run leaves the merged patch in its place. -/
theorem absorb_eq {t : PatchSet} (h : t.Holds (before ++ p :: (run ++ after))) :
    ∃ u : PatchSet, absorb p.addr (run.map Patch.addr) t = (.ok (), u) ∧
      u.Holds (before ++ merged p run :: after) := by
  induction run generalizing p t with
  | nil => exact ⟨t, rfl, h⟩
  | cons q run ih =>
      have hmid : t.Holds ((before ++ [p]) ++ q :: (run ++ after)) := by simpa using h
      have herased : PatchSet.Holds (t.erase q.addr) (before ++ p :: (run ++ after)) := by
        simpa using hmid.erase_middle
      -- `p` grows with every patch that it absorbs, so the induction is on the run for any `p`
      obtain ⟨u, habsorb, hheld⟩ := ih (p := p.append q.bytes)
        (herased.modify_middle (f := (·.append q.bytes)) rfl)
      refine ⟨u, ?_, hheld⟩
      rw [List.map_cons, absorb, hmid.get?_middle]
      simp only [herased.contains_middle, if_true]
      exact habsorb

/-- Merging a run puts the merged patch in the place of the run. -/
theorem mergeRun_eq (h : s.set.Holds (before ++ p :: (run ++ after)))
    (hlaid : Laid (before ++ p :: (run ++ after))) (htouch : Touching (p :: run)) (hne : run ≠ []) :
    ∃ t : PatchSet, s.mergeRun ((p :: run).map Patch.addr) = .ok ⟨.ok (), s.changedTo t⟩ ∧
      t.Holds (before ++ merged p run :: after) := by
  obtain ⟨t, habsorb, hheld⟩ := absorb_eq h
  refine ⟨t, ?_, hheld⟩
  have hsub : p :: run ⊆ before ++ p :: (run ++ after) := by
    intro q hq
    simp only [List.mem_append, List.mem_cons] at hq ⊢
    tauto
  have hfound : s.firstMissing? ((p :: run).map Patch.addr) = none := by
    refine List.find?_eq_none.2 (List.forall_mem_map.2 fun q hq => ?_)
    simpa using h.contains_iff.2 ⟨q, hsub hq, rfl⟩
  have hapart := firstApart?_of_touching h hlaid hsub htouch
  obtain ⟨q, run, rfl⟩ := List.exists_cons_of_ne_nil hne
  unfold mergeRun
  rw [hfound]
  simp only [hapart, Checked.ok_bind]
  simp only [List.map_cons] at habsorb ⊢
  rw [habsorb]
  rfl

/-- Reverting removes a patch. -/
theorem revert_eq (h : s.set.Holds (before ++ p :: after)) :
    ∃ t : PatchSet, s.revert p.addr = ⟨.ok p, s.changedTo t⟩ ∧ t.Holds (before ++ after) :=
  ⟨_, by rw [revert, h.get?_middle], h.erase_middle⟩

theorem holds_foldl_erase {t : PatchSet} (h : t.Holds ps) (addrs : List Nat) :
    PatchSet.Holds (addrs.foldl OrderedMap.erase t) (ps.filter fun p => p.addr ∉ addrs) := by
  induction addrs generalizing t ps with
  | nil => simpa using h
  | cons a rest ih =>
      have hkept := ih (h.erase a)
      rw [List.filter_filter] at hkept
      rw [List.foldl_cons]
      convert hkept using 2
      funext p
      rw [← Bool.decide_and, decide_eq_decide, List.mem_cons, not_or, and_comm]

/-- Reverting several patches removes them. -/
theorem revertAll_eq (h : s.set.Holds ps) {addrs : List Nat} (hne : addrs ≠ [])
    (hfound : ∀ a ∈ addrs, ∃ p ∈ ps, p.addr = a) :
    ∃ t : PatchSet, s.revertAll addrs = ⟨.ok (), s.changedTo t⟩ ∧
      t.Holds (ps.filter fun p => p.addr ∉ addrs) := by
  have hmissing : s.firstMissing? addrs = none := by
    refine List.find?_eq_none.2 fun a ha => ?_
    simpa using h.contains_iff.2 (hfound a ha)
  refine ⟨_, ?_, holds_foldl_erase h addrs⟩
  rw [revertAll, hmissing]
  simp [hne]

/-- Commenting changes nothing but the comment. -/
theorem setComment_eq (h : s.set.Holds (before ++ p :: after)) (comment : Option String) :
    ∃ t : PatchSet, s.setComment p.addr comment = ⟨.ok (), s.changedTo t⟩ ∧
      t.Holds (before ++ { p with comment := comment.filter (· ≠ "") } :: after) :=
  ⟨_, by rw [setComment, if_pos h.contains_middle], h.modify_middle rfl⟩

end PatchStore

end HexEditor
