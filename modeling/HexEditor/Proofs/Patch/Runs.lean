import HexEditor.Proofs.Patch.MergeRun
import Mathlib.Data.List.SplitBy

/-!
# Runs of touching patches

Laid out patches fall into runs: within a run each patch ends where the next one starts, and
between two runs there is a gap (`touchingRuns_apart`).  Because of the gaps these runs are the
ones that cannot be made longer, and all of them (`mem_touchingRuns_iff`).

Merging every run (`mergeTouching`) changes no byte (`byteIn_mergeTouching`), and closes no gap, so
that afterwards every patch is a run by itself (`touchingRuns_mergeTouching`): there is nothing
left to merge.
-/

namespace HexEditor

variable {ps rest run other : List Patch} {p q : Patch}

/-- A run of touching patches of the list that none of its patches continues in either direction. -/
structure MaximalRun (ps run : List Patch) : Prop where
  nonempty : run ≠ []
  subset : run ⊆ ps
  touching : Touching run
  first : ∀ p ∈ run.head?, ∀ q ∈ ps, q.stop ≠ p.addr
  last : ∀ p ∈ run.getLast?, ∀ q ∈ ps, p.stop ≠ q.addr

/-- The patches cut where one does not end where the next one starts. -/
def touchingRuns (ps : List Patch) : List (List Patch) := ps.splitBy fun p q => p.stop = q.addr

/-- The patch that a run is merged into. -/
def fuse? : List Patch → Option Patch
  | [] => none
  | p :: run => some (merged p run)

/-- The patches with each run of them merged. -/
def mergeTouching (ps : List Patch) : List Patch := (touchingRuns ps).filterMap fuse?

/-! ## Cutting into runs -/

theorem flatten_touchingRuns (ps : List Patch) : (touchingRuns ps).flatten = ps :=
  List.flatten_splitBy _ ps

theorem ne_nil_of_mem_touchingRuns (h : run ∈ touchingRuns ps) : run ≠ [] :=
  List.ne_nil_of_mem_splitBy h

theorem touching_of_mem_touchingRuns (h : run ∈ touchingRuns ps) : Touching run :=
  (List.isChain_of_mem_splitBy h).imp fun _ _ => of_decide_eq_true

/-- Another patch in front begins a run of its own, unless it touches the first one. -/
theorem touchingRuns_cons (p q : Patch) (rest : List Patch) :
    ∃ run more, touchingRuns (q :: rest) = (q :: run) :: more ∧
      touchingRuns (p :: q :: rest) =
        if p.stop = q.addr then (p :: q :: run) :: more else [p] :: (q :: run) :: more := by
  obtain ⟨run, more, hruns⟩ :
      ∃ run more, touchingRuns (q :: rest) = (q :: run) :: more := by
    have hflat := flatten_touchingRuns (q :: rest)
    cases hruns : touchingRuns (q :: rest) with
    | nil => rw [hruns] at hflat; cases hflat
    | cons g more =>
        have hmem : g ∈ touchingRuns (q :: rest) := by rw [hruns]; exact .head _
        have hne : g ≠ [] := ne_nil_of_mem_touchingRuns hmem
        obtain ⟨r, run, rfl⟩ := List.exists_cons_of_ne_nil hne
        rw [hruns] at hflat
        obtain ⟨rfl, -⟩ := List.cons.inj hflat
        exact ⟨run, more, rfl⟩
  refine ⟨run, more, hruns, ?_⟩
  split
  · next htouch =>
      obtain ⟨hflat, hne, hchains, happart⟩ := List.splitBy_eq_iff.1 hruns
      obtain ⟨hfirst, hmore⟩ := List.forall_mem_cons.1 hchains
      refine List.splitBy_eq_iff.2 ⟨congrArg (p :: ·) hflat, by simpa using hne,
        List.forall_mem_cons.2 ⟨List.isChain_cons_cons.2 ⟨decide_eq_true htouch, hfirst⟩, hmore⟩, ?_⟩
      cases more with
      | nil => exact List.isChain_singleton _
      | cons g more =>
          obtain ⟨⟨_, hg, hlast⟩, hrest⟩ := List.isChain_cons_cons.1 happart
          exact List.isChain_cons_cons.2 ⟨⟨by simp, hg, by simpa using hlast⟩, hrest⟩
  · next hgap =>
      rw [← hruns]
      exact List.splitBy_append_cons (l := [p]) rest (by simpa using hgap)

/-- Between two runs there is a gap. -/
theorem touchingRuns_apart (h : Laid ps) :
    (touchingRuns ps).Pairwise fun g k => ∀ p ∈ g, ∀ q ∈ k, p.stop < q.addr := by
  induction ps with
  | nil => exact .nil
  | cons p rest ih =>
      obtain ⟨-, hahead, hlaid⟩ := laid_cons.1 h
      cases rest with
      | nil => exact List.pairwise_singleton _ _
      | cons q rest =>
          obtain ⟨hq, hbehind, -⟩ := laid_cons.1 hlaid
          have hstart := hq.addr_lt_stop
          obtain ⟨run, more, hruns, hcons⟩ := touchingRuns_cons p q rest
          have hflat := flatten_touchingRuns (q :: rest)
          have happart := ih hlaid
          rw [hruns] at hflat happart
          rw [hcons]
          split
          · next htouch =>
              obtain ⟨hfirst, hmore⟩ := List.pairwise_cons.1 happart
              refine List.pairwise_cons.2
                ⟨fun k hk => List.forall_mem_cons.2 ⟨fun r hr => ?_, hfirst k hk⟩, hmore⟩
              have := hfirst k hk q List.mem_cons_self r hr
              omega
          · next hgap =>
              have hlt : p.stop < q.addr := (hahead q List.mem_cons_self).lt_of_ne hgap
              refine List.pairwise_cons.2 ⟨fun k hk => List.forall_mem_singleton.2 fun r hr => ?_,
                happart⟩
              have hmem : r ∈ q :: rest := hflat ▸ List.mem_flatten.2 ⟨k, hk, hr⟩
              rcases List.mem_cons.1 hmem with rfl | hmem
              · exact hlt
              · have := hbehind r hmem
                omega

theorem mem_of_mem_touchingRuns (hrun : run ∈ touchingRuns ps) (hp : p ∈ run) : p ∈ ps :=
  flatten_touchingRuns ps ▸ List.mem_flatten.2 ⟨run, hrun, hp⟩

/-- Patches that touch are in the same run. -/
theorem eq_of_touching (h : Laid ps) (hrun : run ∈ touchingRuns ps)
    (hother : other ∈ touchingRuns ps) (hp : p ∈ run) (hq : q ∈ other) (htouch : p.stop = q.addr) :
    run = other := by
  by_contra hne
  have : Std.Symm fun g k : List Patch => ∀ p ∈ g, ∀ q ∈ k, p.stop ≠ q.addr ∧ q.stop ≠ p.addr :=
    ⟨fun _ _ hgap p hp q hq => (hgap q hq p hp).symm⟩
  have hgaps : (touchingRuns ps).Pairwise
      fun g k => ∀ p ∈ g, ∀ q ∈ k, p.stop ≠ q.addr ∧ q.stop ≠ p.addr := by
    refine (touchingRuns_apart h).imp_of_mem fun {g k} hg hk hgap p hp q hq => ?_
    have hlt := hgap p hp q hq
    have hpstart := (h.proper p (mem_of_mem_touchingRuns hg hp)).addr_lt_stop
    have hqstart := (h.proper q (mem_of_mem_touchingRuns hk hq)).addr_lt_stop
    omega
  exact (hgaps.forall hrun hother hne p hp q hq).1 htouch

/-! ## The runs are the maximal ones -/

theorem maximalRun_of_mem (h : Laid ps) (hrun : run ∈ touchingRuns ps) : MaximalRun ps run := by
  have hsub : run ⊆ ps := fun p hp => mem_of_mem_touchingRuns hrun hp
  have hlaid : Laid run := by
    obtain ⟨before, after, hruns⟩ := List.append_of_mem hrun
    rw [← flatten_touchingRuns ps, hruns, List.flatten_append, List.flatten_cons] at h
    exact (laid_append.1 (laid_append.1 h).2.1).1
  have hrunOf : ∀ q ∈ ps, ∃ other ∈ touchingRuns ps, q ∈ other := fun q hq =>
    List.mem_flatten.1 ((flatten_touchingRuns ps).symm ▸ hq)
  refine ⟨ne_nil_of_mem_touchingRuns hrun, hsub, touching_of_mem_touchingRuns hrun, ?_, ?_⟩
  · -- what touches the first patch is in the run, where no patch ends so early
    intro p hp q hq htouch
    obtain ⟨tail, rfl⟩ := List.head?_eq_some_iff.1 hp
    obtain ⟨other, hother, hmem⟩ := hrunOf q hq
    obtain rfl := eq_of_touching h hother hrun hmem List.mem_cons_self htouch
    obtain ⟨hproper, hahead, -⟩ := laid_cons.1 hlaid
    have hstart := hproper.addr_lt_stop
    have hqstart := (h.proper q hq).addr_lt_stop
    rcases List.mem_cons.1 hmem with rfl | hmem
    · omega
    · have := hahead q hmem
      omega
  · -- and what the last patch touches is in the run, where no patch starts so late
    intro p hp q hq htouch
    obtain ⟨init, rfl⟩ := List.getLast?_eq_some_iff.1 hp
    obtain ⟨other, hother, hmem⟩ := hrunOf q hq
    obtain rfl := eq_of_touching h hrun hother (by simp) hmem htouch
    obtain ⟨-, -, hbetween⟩ := laid_append.1 hlaid
    have hstart := (h.proper p (hsub (by simp))).addr_lt_stop
    have hqstart := (h.proper q hq).addr_lt_stop
    rcases List.mem_append.1 hmem with hmem | hmem
    · have := hbetween q hmem p List.mem_cons_self
      omega
    · obtain rfl := List.mem_singleton.1 hmem
      omega

/-- Two runs that start with the same patch go on until there is nothing that they touch. -/
theorem MaximalRun.eq_of_cons (h : Laid ps) (hrun : MaximalRun ps (p :: run))
    (hother : MaximalRun ps (p :: other)) : run = other := by
  -- where a run starts does not matter here, so that the induction can go on without it
  have hends : ∀ run other p, Touching (p :: run) → p :: run ⊆ ps →
      (∀ r ∈ (p :: run).getLast?, ∀ q ∈ ps, r.stop ≠ q.addr) → Touching (p :: other) →
      p :: other ⊆ ps → (∀ r ∈ (p :: other).getLast?, ∀ q ∈ ps, r.stop ≠ q.addr) →
      run = other := by
    intro run
    induction run with
    | nil =>
        intro other p _ _ hlast htouch hsub _
        cases other with
        | nil => rfl
        | cons q other =>
            exact absurd (List.isChain_cons_cons.1 htouch).1 (hlast p rfl q (hsub (by simp)))
    | cons q run ih =>
        intro other p htouch hsub hlast htouch' hsub' hlast'
        obtain ⟨hpq, htouch⟩ := List.isChain_cons_cons.1 htouch
        cases other with
        | nil => exact absurd hpq (hlast' p rfl q (hsub (by simp)))
        | cons r other =>
            obtain ⟨hpr, htouch'⟩ := List.isChain_cons_cons.1 htouch'
            have hq : q ∈ ps := hsub (by simp)
            have hr : r ∈ ps := hsub' (by simp)
            obtain rfl : q = r := h.eq_of_addr_eq hq hr (hpq.symm.trans hpr)
            exact congrArg _ (ih other q htouch (List.cons_subset.1 hsub).2 hlast htouch'
              (List.cons_subset.1 hsub').2 hlast')
  exact hends run other p hrun.touching hrun.subset hrun.last hother.touching hother.subset
    hother.last

/-- The runs are those that cannot be made longer. -/
theorem mem_touchingRuns_iff (h : Laid ps) : run ∈ touchingRuns ps ↔ MaximalRun ps run := by
  refine ⟨maximalRun_of_mem h, fun hrun => ?_⟩
  obtain ⟨p, tail, rfl⟩ := List.exists_cons_of_ne_nil hrun.nonempty
  have hp : p ∈ (touchingRuns ps).flatten :=
    (flatten_touchingRuns ps).symm ▸ hrun.subset List.mem_cons_self
  obtain ⟨other, hother, hmem⟩ := List.mem_flatten.1 hp
  have hmax := maximalRun_of_mem h hother
  obtain ⟨before, after, rfl⟩ := List.append_of_mem hmem
  -- in its run nothing stands before `p`, since that would touch it
  obtain rfl : before = [] := by
    rcases List.eq_nil_or_concat' before with rfl | ⟨init, q, rfl⟩
    · rfl
    · have htouch : q.stop = p.addr := by
        have hchain := hmax.touching
        rw [Touching, List.append_assoc] at hchain
        exact (List.isChain_cons_cons.1 (List.isChain_append.1 hchain).2.1).1
      exact absurd htouch (hrun.first p rfl q (hmax.subset (by simp)))
  rw [hrun.eq_of_cons h hmax]
  exact hother

/-! ## Merging every run -/

/-- What is left are the maximal runs, each as one patch with its bytes in order. -/
theorem mem_mergeTouching_iff (h : Laid ps) : q ∈ mergeTouching ps ↔
    ∃ p run, MaximalRun ps (p :: run) ∧ q = { p with bytes := (p :: run).flatMap Patch.bytes } := by
  unfold mergeTouching
  rw [List.mem_filterMap]
  constructor
  · rintro ⟨g, hg, hq⟩
    obtain ⟨p, run, rfl⟩ := List.exists_cons_of_ne_nil (ne_nil_of_mem_touchingRuns hg)
    exact ⟨p, run, maximalRun_of_mem h hg, by rw [← merged_eq]; exact (Option.some.inj hq).symm⟩
  · rintro ⟨p, run, hrun, rfl⟩
    exact ⟨p :: run, (mem_touchingRuns_iff h).2 hrun, by rw [← merged_eq]; rfl⟩

/-- Merging runs changes no byte. -/
theorem byteIn_filterMap_fuse? {groups : List (List Patch)} (h : ∀ g ∈ groups, Touching g) (a : Nat) :
    byteIn (groups.filterMap fuse?) a = byteIn groups.flatten a := by
  induction groups with
  | nil => rfl
  | cons g rest ih =>
      obtain ⟨hg, hrest⟩ := List.forall_mem_cons.1 h
      cases g with
      | nil => exact ih hrest
      | cons p run =>
          rw [List.filterMap_cons_some (f := fuse?) (b := merged p run) rfl, List.flatten_cons, byteIn_cons,
            byteIn_append, ih hrest, byteIn_run hg]

theorem byteIn_mergeTouching (ps : List Patch) (a : Nat) :
    byteIn (mergeTouching ps) a = byteIn ps a := by
  rw [mergeTouching, byteIn_filterMap_fuse? fun _ => touching_of_mem_touchingRuns,
    flatten_touchingRuns]

/-- A merged patch covers the patches that it is made of. -/
theorem merged_covers (htouch : Touching (p :: run)) (hq : q ∈ p :: run) :
    p.addr ≤ q.addr ∧ q.stop ≤ (merged p run).stop := by
  induction run generalizing p q with
  | nil =>
      obtain rfl := List.mem_singleton.1 hq
      exact ⟨Nat.le_refl _, Nat.le_refl _⟩
  | cons r run ih =>
      have hpr : p.stop = r.addr := (List.isChain_cons_cons.1 htouch).1
      have hjoined : (p.append r.bytes).stop = r.stop := stop_append_of_touching hpr
      obtain ⟨-, hend⟩ := ih htouch.join List.mem_cons_self
      rw [hjoined] at hend
      have hstart : p.addr ≤ p.stop := Nat.le_add_right ..
      have hmiddle : r.addr ≤ r.stop := Nat.le_add_right ..
      rw [merged_cons]
      rcases List.mem_cons.1 hq with rfl | hq
      · exact ⟨Nat.le_refl _, by omega⟩
      rcases List.mem_cons.1 hq with rfl | hq
      · exact ⟨by omega, hend⟩
      · exact ih htouch.join (List.mem_cons_of_mem _ hq)

/-- Merged patches meet a range that all patches meet. -/
theorem meets_of_mem_mergeTouching {first limit : Nat} (h : ∀ p ∈ ps, p.Meets first limit)
    (hq : q ∈ mergeTouching ps) : q.Meets first limit := by
  obtain ⟨g, hg, hfuse⟩ := List.mem_filterMap.1 hq
  obtain ⟨p, run, rfl⟩ := List.exists_cons_of_ne_nil (ne_nil_of_mem_touchingRuns hg)
  obtain rfl := Option.some.inj hfuse
  obtain ⟨hlow, hhigh⟩ := h p (mem_of_mem_touchingRuns hg List.mem_cons_self)
  obtain ⟨-, hend⟩ := merged_covers (touching_of_mem_touchingRuns hg) List.mem_cons_self
  exact ⟨(merged_addr p run).trans_lt hlow, hhigh.trans_le hend⟩

/-- Where there are gaps between all patches, each is a run by itself. -/
theorem touchingRuns_of_gaps (h : ps.Pairwise fun p q => p.stop < q.addr) :
    touchingRuns ps = ps.map ([·]) := by
  induction ps with
  | nil => rfl
  | cons p rest ih =>
      obtain ⟨hgap, hrest⟩ := List.pairwise_cons.1 h
      cases rest with
      | nil => rfl
      | cons q rest =>
          obtain ⟨run, more, hruns, hcons⟩ := touchingRuns_cons p q rest
          rw [hcons, if_neg (hgap q List.mem_cons_self).ne, ← hruns, ih hrest]
          rfl

/-- Merging closes no gap, so that afterwards no two patches touch. -/
theorem touchingRuns_mergeTouching (h : Laid ps) :
    touchingRuns (mergeTouching ps) = (mergeTouching ps).map ([·]) := by
  refine touchingRuns_of_gaps (List.pairwise_filterMap.2
    ((touchingRuns_apart h).imp_of_mem fun {g k} hg _ hgap p hp q hq => ?_))
  match g, k, hp, hq with
  | p :: run, q :: other, rfl, rfl =>
      have hstop : (merged p run).stop ≤ q.addr - 1 :=
        merged_stop_le (touching_of_mem_touchingRuns hg) fun r hr => by
          have := hgap r hr q List.mem_cons_self
          omega
      have hlt := hgap p List.mem_cons_self q List.mem_cons_self
      rw [merged_addr]
      omega

end HexEditor
