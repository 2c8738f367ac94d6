import HexEditor.Proofs.Patch.Request

/-!
# Merging a run

Merging the patches at a list of start addresses checks the whole list first: that a patch starts
at every address, and that every patch ends where the next one starts.  Only then are the patches
taken out of the set, one by one, and the loop that does this could itself be refused half-way.

It never is.  Addresses that pass the checks are those of patches that stand together in the set
(`PatchStore.exists_run`), so that none comes twice and the first one is not among the others.
What the request answers, and what it leaves of the set, is then decided by the checks alone
(`MergesRun`).
-/

namespace HexEditor

/-- The patch that a run is merged into. -/
theorem merged_eq (p : Patch) (run : List Patch) :
    merged p run = { p with bytes := (p :: run).flatMap Patch.bytes } := by
  induction run generalizing p with
  | nil => simp [merged]
  | cons q run ih =>
      rw [merged_cons, ih]
      simp [Patch.append]

namespace PatchSet

/-- A patch starts at the address. -/
def Starts (s : PatchSet) (a : Nat) : Prop := ∃ p, s.get? a = some p

/-- The patch that starts at the first address ends at the second. -/
def Adjoins (s : PatchSet) (a b : Nat) : Prop := ∃ p, s.get? a = some p ∧ p.stop = b

variable {s : PatchSet} {ps before after run : List Patch} {p : Patch} {a b : Nat}

theorem Holds.starts_iff (h : s.Holds ps) : s.Starts a ↔ ∃ p ∈ ps, p.addr = a := by
  simp only [Starts, h.get?_eq_some_iff]

theorem Holds.adjoins_iff (h : s.Holds ps) (hp : p ∈ ps) :
    s.Adjoins p.addr b ↔ p.stop = b := by
  have hget : s.get? p.addr = some p := h.get?_eq_some_iff.2 ⟨hp, rfl⟩
  simp only [Adjoins, hget, Option.some.injEq, exists_eq_left']

/-- What a look-up finds where a run has been merged. -/
theorem Holds.get?_merged {s t : PatchSet} (h : s.Holds (before ++ p :: (run ++ after)))
    (ht : t.Holds (before ++ merged p run :: after)) (key : Nat) :
    t.get? key =
      if key = p.addr then some (merged p run)
      else if key ∈ (p :: run).map Patch.addr then none else s.get? key := by
  obtain ⟨hbefore, hbehind⟩ := h.addr_around
  by_cases hhead : key = p.addr
  · rw [if_pos hhead, hhead, ← merged_addr p run]
    exact ht.get?_middle
  rw [if_neg hhead]
  -- every other patch of the run starts between those before it and those after it
  have hapart : ∀ q ∈ run, (∀ r ∈ before, r.addr < q.addr) ∧ ∀ r ∈ after, q.addr < r.addr := by
    obtain ⟨-, hrest, hbetween⟩ := List.pairwise_append.1 h.addr_lt
    obtain ⟨-, -, hafter⟩ := List.pairwise_append.1 (List.pairwise_cons.1 hrest).2
    exact fun q hq => ⟨fun r hr => hbetween r hr q (by simp [hq]), hafter q hq⟩
  ext q
  rw [ht.get?_eq_some_iff]
  split
  · next hrun =>
      simp only [List.map_cons, List.mem_cons, hhead, false_or] at hrun
      obtain ⟨r, hr, rfl⟩ := List.mem_map.1 hrun
      obtain ⟨hlow, hhigh⟩ := hapart r hr
      simp only [List.mem_append, List.mem_cons]
      constructor
      · rintro ⟨hq | rfl | hq, haddr⟩
        · exact absurd haddr (hlow q hq).ne
        · exact absurd (haddr.symm.trans (merged_addr p run)) hhead
        · exact absurd haddr (hhigh q hq).ne'
      · simp
  · next hrun =>
      simp only [List.map_cons, List.mem_cons, not_or] at hrun
      rw [h.get?_eq_some_iff]
      apply and_congr_left
      rintro rfl
      have hmerged : q ≠ merged p run := fun hq => hhead (hq ▸ merged_addr p run)
      have hp : q ≠ p := fun hq => hhead (hq ▸ rfl)
      have hout : q ∉ run := fun hq => hrun.2 (List.mem_map_of_mem hq)
      simp [hmerged, hp, hout]

end PatchSet

namespace PatchStore

variable {s : PatchStore} {ps before after run : List Patch} {p : Patch} {a b : Nat}
  {addrs : List Nat}

/-! ## The checks -/

/-- The first address at which no patch starts is found. -/
theorem firstMissing?_eq_some {before after : List Nat} (hbefore : ∀ b ∈ before, s.set.Starts b)
    (hmissing : ¬ s.set.Starts a) : s.firstMissing? (before ++ a :: after) = some a := by
  apply List.find?_eq_some_iff_append.2
  refine ⟨?_, before, after, rfl, ?_⟩
  · simpa [PatchSet.Starts, ← OrderedMap.contains_iff] using hmissing
  · intro b hb
    simpa [PatchSet.Starts, ← OrderedMap.contains_iff] using hbefore b hb

theorem firstMissing?_eq_none (hfound : ∀ a ∈ addrs, s.set.Starts a) :
    s.firstMissing? addrs = none := by
  apply List.find?_eq_none.2
  intro a ha
  simpa [PatchSet.Starts, ← OrderedMap.contains_iff] using hfound a ha

/-- The first two neighbours are compared, and then the rest. -/
theorem firstApart?_step (h : s.set.WellFormed) {rest : List Nat} (ha : s.set.Starts a)
    (hb : s.set.Starts b) :
    (s.set.Adjoins a b → s.firstApart? (a :: b :: rest) = s.firstApart? (b :: rest)) ∧
      (¬ s.set.Adjoins a b → s.firstApart? (a :: b :: rest) = .ok (some (a, b))) := by
  obtain ⟨hheld, hlaid⟩ := PatchSet.wellFormed_iff.1 h
  obtain ⟨p, hp, rfl⟩ := hheld.starts_iff.1 ha
  rw [hheld.adjoins_iff hp, firstApart?_cons_cons hheld hlaid hp]
  exact ⟨fun hstop => if_pos ⟨hstop, hheld.starts_iff.1 hb⟩,
    fun hstop => if_neg (mt And.left hstop)⟩

/-- Addresses of which each adjoins the next are not found apart. -/
theorem firstApart?_eq_none (h : s.set.WellFormed) (hfound : ∀ a ∈ addrs, s.set.Starts a)
    (hchain : addrs.IsChain s.set.Adjoins) : s.firstApart? addrs = .ok none := by
  induction hchain with
  | nil => rfl
  | singleton a => rfl
  | cons_cons hab hrest ih =>
      rw [(firstApart?_step h (hfound _ (by simp)) (hfound _ (by simp))).1 hab]
      exact ih fun a ha => hfound a (List.mem_cons_of_mem _ ha)

/-- The first neighbours of which the second does not adjoin the first are found. -/
theorem firstApart?_eq_some (h : s.set.WellFormed) {before after : List Nat}
    (hfound : ∀ c ∈ before ++ a :: b :: after, s.set.Starts c)
    (hchain : (before ++ [a]).IsChain s.set.Adjoins) (hapart : ¬ s.set.Adjoins a b) :
    s.firstApart? (before ++ a :: b :: after) = .ok (some (a, b)) := by
  induction before with
  | nil => exact (firstApart?_step h (hfound a (by simp)) (hfound b (by simp))).2 hapart
  | cons c before ih =>
      have hrest := ih (fun d hd => hfound d (List.mem_cons_of_mem _ hd)) hchain.tail
      -- what follows the first address is the second one of `before`, or else `a`
      cases before with
      | nil =>
          have hca : s.set.Adjoins c a := List.isChain_pair.1 hchain
          rw [← hrest]
          exact (firstApart?_step h (hfound c (by simp)) (hfound a (by simp))).1 hca
      | cons d before =>
          have hcd : s.set.Adjoins c d := (List.isChain_cons_cons.1 hchain).1
          rw [← hrest]
          exact (firstApart?_step h (hfound c (by simp)) (hfound d (by simp))).1 hcd

/-- Addresses that pass the checks are those of patches that stand together. -/
theorem exists_run_of_chain (h : s.set.WellFormed) (hfound : ∀ a ∈ addrs, s.set.Starts a)
    (hchain : addrs.IsChain s.set.Adjoins) (hne : addrs ≠ []) :
    ∃ before p run after, s.set.values = before ++ p :: (run ++ after) ∧ Touching (p :: run) ∧
      (p :: run).map Patch.addr = addrs := by
  obtain ⟨hheld, hlaid⟩ := PatchSet.wellFormed_iff.1 h
  have hnear := firstApart?_eq_none h hfound hchain
  simp only [hheld.starts_iff] at hfound
  obtain ⟨before, run, after, hps, htouch, haddrs⟩ := exists_run hheld hlaid hne hfound hnear
  cases run with
  | nil => exact absurd haddrs.symm hne
  | cons p run => exact ⟨before, p, run, after, hps, htouch, haddrs⟩

/-- The loop that takes the patches out of the set is not refused. -/
theorem absorb_of_chain (h : s.set.WellFormed) {head : Nat} {rest : List Nat}
    (hfound : ∀ a ∈ head :: rest, s.set.Starts a) (hchain : (head :: rest).IsChain s.set.Adjoins) :
    (absorb head rest s.set).1 = .ok () := by
  obtain ⟨hheld, -⟩ := PatchSet.wellFormed_iff.1 h
  obtain ⟨before, p, run, after, hps, -, haddrs⟩ := exists_run_of_chain h hfound hchain (by simp)
  obtain ⟨rfl, rfl⟩ := List.cons.inj haddrs
  obtain ⟨t, habsorb, -⟩ := absorb_eq (hps ▸ hheld)
  rw [habsorb]

/-! ## The request -/

/-- The answer `reply` to a request to merge the patches at `addrs`, and the store after it. -/
structure MergesRun (s : PatchStore) (addrs : List Nat) (reply : Reply Unit) : Prop where
  /-- The first address at which no patch starts is reported. -/
  missing : ∀ before a after, addrs = before ++ a :: after → (∀ b ∈ before, s.set.Starts b) →
    ¬ s.set.Starts a → reply = s.refuse (.notFound a)
  /-- Otherwise the first two neighbours are reported of which the second does not start where the
  first ends. -/
  apart : (∀ a ∈ addrs, s.set.Starts a) → ∀ before a b after, addrs = before ++ a :: b :: after →
    (before ++ [a]).IsChain s.set.Adjoins → ¬ s.set.Adjoins a b →
      reply = s.refuse (.notAdjacent a b)
  /-- With fewer than two addresses there is nothing to do. -/
  idle : (∀ a ∈ addrs, s.set.Starts a) → addrs.length ≤ 1 → reply = ⟨.ok (), s⟩
  /-- Otherwise one patch takes the place of all those that are listed. -/
  merged : (∀ a ∈ addrs, s.set.Starts a) → addrs.IsChain s.set.Adjoins → 2 ≤ addrs.length →
    ∃ p run t, addrs.map s.set.get? = (p :: run).map some ∧ reply = ⟨.ok (), s.changedTo t⟩ ∧
      ∀ key, t.get? key =
        if key = p.addr then some { p with bytes := (p :: run).flatMap Patch.bytes }
        else if key ∈ addrs then none else s.set.get? key

theorem mergeRun_missing {before after : List Nat} (hbefore : ∀ b ∈ before, s.set.Starts b)
    (hmissing : ¬ s.set.Starts a) :
    s.mergeRun (before ++ a :: after) = .ok (s.refuse (.notFound a)) := by
  unfold mergeRun
  rw [firstMissing?_eq_some hbefore hmissing]
  rfl

theorem mergeRun_apart (h : s.set.WellFormed) {before after : List Nat}
    (hfound : ∀ c ∈ before ++ a :: b :: after, s.set.Starts c)
    (hchain : (before ++ [a]).IsChain s.set.Adjoins) (hapart : ¬ s.set.Adjoins a b) :
    s.mergeRun (before ++ a :: b :: after) = .ok (s.refuse (.notAdjacent a b)) := by
  unfold mergeRun
  rw [firstMissing?_eq_none hfound]
  simp only [firstApart?_eq_some h hfound hchain hapart, Checked.ok_bind, Checked.pure_eq_ok]

theorem mergeRun_idle (hfound : ∀ a ∈ addrs, s.set.Starts a) (hshort : addrs.length ≤ 1) :
    s.mergeRun addrs = .ok ⟨.ok (), s⟩ := by
  unfold mergeRun
  rw [firstMissing?_eq_none hfound]
  match addrs, hshort with
  | [], _ => rfl
  | [a], _ => rfl

theorem mergeRun_merged (h : s.set.WellFormed) (hfound : ∀ a ∈ addrs, s.set.Starts a)
    (hchain : addrs.IsChain s.set.Adjoins) (hlong : 2 ≤ addrs.length) :
    ∃ p run t, addrs.map s.set.get? = (p :: run).map some ∧
      s.mergeRun addrs = .ok ⟨.ok (), s.changedTo t⟩ ∧ ∀ key, t.get? key =
        if key = p.addr then some { p with bytes := (p :: run).flatMap Patch.bytes }
        else if key ∈ addrs then none else s.set.get? key := by
  obtain ⟨hheld, hlaid⟩ := PatchSet.wellFormed_iff.1 h
  obtain ⟨before, p, run, after, hps, htouch, rfl⟩ := exists_run_of_chain h hfound hchain
    (List.ne_nil_of_length_pos (by omega))
  rw [hps] at hheld hlaid
  have hrun : run ≠ [] := by
    rintro rfl
    simp at hlong
  obtain ⟨t, hmerge, ht⟩ := mergeRun_eq hheld hlaid htouch hrun
  refine ⟨p, run, t, ?_, hmerge, ?_⟩
  · rw [List.map_map]
    apply List.map_congr_left
    intro q hq
    apply hheld.get?_eq_some_iff.2
    simp only [List.mem_cons] at hq
    simp only [List.mem_append, List.mem_cons, and_true]
    tauto
  · rw [← merged_eq]
    exact hheld.get?_merged ht

/-- Merging a list of start addresses is exact and changes all or nothing; that the loop, which
takes the patches out of the set, is refused does not happen. -/
theorem mergeRun_exact (h : s.set.WellFormed) (addrs : List Nat) :
    (∃ reply, s.mergeRun addrs = .ok reply ∧ MergesRun s addrs reply) ∧
      ((∀ a ∈ addrs, s.set.Starts a) → addrs.IsChain s.set.Adjoins →
        ∀ head rest, addrs = head :: rest → (absorb head rest s.set).1 = .ok ()) := by
  obtain ⟨hheld, hlaid⟩ := PatchSet.wellFormed_iff.1 h
  constructor
  · obtain ⟨reply, hreply⟩ : ∃ reply, s.mergeRun addrs = .ok reply := by
      rcases mergeRun_responds hheld hlaid addrs with
        ⟨-, hrun⟩ | ⟨e, -, hrun⟩ | ⟨t, before, run, after, p, -, -, -, -, hrun, -⟩
      all_goals exact ⟨_, hrun⟩
    refine ⟨reply, hreply, ?_, ?_, ?_, ?_⟩
    · rintro before a after rfl hbefore hmissing
      exact Except.ok.inj (hreply.symm.trans (mergeRun_missing hbefore hmissing))
    · rintro hfound before a b after rfl hchain hapart
      exact Except.ok.inj (hreply.symm.trans (mergeRun_apart h hfound hchain hapart))
    · intro hfound hshort
      exact Except.ok.inj (hreply.symm.trans (mergeRun_idle hfound hshort))
    · intro hfound hchain hlong
      obtain ⟨p, run, t, hlisted, hmerge, hget⟩ := mergeRun_merged h hfound hchain hlong
      exact ⟨p, run, t, hlisted, Except.ok.inj (hreply.symm.trans hmerge), hget⟩
  · rintro hfound hchain head rest rfl
    exact absorb_of_chain h hfound hchain

/-- The first of three patches grows by the other two, and keeps its comment. -/
theorem mergeRun_exact_three :
    let s := ofPatches [⟨16, [1], some "a"⟩, ⟨17, [2, 3], none⟩, ⟨19, [4], some "c"⟩,
      ⟨20, [5], none⟩]
    s.set.WellFormed ∧ ∃ reply, s.mergeRun [16, 17, 19] = .ok reply ∧
      MergesRun s [16, 17, 19] reply ∧
      reply.store.set.values = [⟨16, [1, 2, 3, 4], some "a"⟩, ⟨20, [5], none⟩] := by
  intro s
  have hwell : s.set.WellFormed := PatchSet.wellFormed_ofList (by decide)
  obtain ⟨⟨reply, hreply, hruns⟩, -⟩ := mergeRun_exact hwell [16, 17, 19]
  refine ⟨hwell, reply, hreply, hruns, ?_⟩
  rw [← Except.ok.inj hreply]
  decide

end PatchStore

end HexEditor
