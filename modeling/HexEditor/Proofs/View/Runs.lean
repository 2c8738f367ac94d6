import HexEditor.Proofs.Patch.Mail
import HexEditor.Proofs.Patch.Runs
import HexEditor.View.Editing

/-!
# Merging the selected patches

The start addresses of the selected patches are cut into the runs of patches that touch (`runs_eq`),
and the runs of at least two are merged one after another, each in the store that the one before has
left.  What makes this go through is that the runs stand side by side: a merge puts one patch in the
place of its own run and leaves all others where they are, so that the next run still is a run
(`mergeRuns_eq`).
-/

namespace HexEditor

theorem Laid.merge {before run after : List Patch} {p : Patch}
    (h : Laid (before ++ p :: (run ++ after))) (htouch : Touching (p :: run)) (hne : run ≠ []) :
    Laid (before ++ merged p run :: after) :=
  (Reshaped.merged (r := .mergeRun ((p :: run).map Patch.addr)) rfl htouch hne rfl).laid h

namespace Desk

variable {s : PatchStore} {ps selected before after : List Patch} {groups : List (List Patch)}

/-- The addresses are cut as the patches are. -/
theorem runs_eq (h : s.set.Holds ps) (hlaid : Laid ps) (hsub : selected ⊆ ps) :
    runs s (selected.map Patch.addr) = .ok ((touchingRuns selected).map (·.map Patch.addr)) := by
  induction selected with
  | nil => rfl
  | cons p rest ih =>
      obtain ⟨hp, hrest⟩ := List.cons_subset.1 hsub
      have hruns := ih hrest
      cases rest with
      | nil => rfl
      | cons q rest =>
          have hstarts : ∃ r ∈ ps, r.addr = q.addr := ⟨q, hrest List.mem_cons_self, rfl⟩
          obtain ⟨run, more, htouching, hcons⟩ := touchingRuns_cons p q rest
          rw [List.map_cons, runs, hruns, htouching, Checked.ok_bind, hcons]
          simp only [List.map_cons, PatchStore.canMerge_eq h hlaid hp, hstarts, and_true,
            Checked.ok_bind, decide_eq_true_eq]
          split <;> rfl

/-- Runs that stand side by side are all merged. -/
theorem mergeRuns_eq (h : s.set.Holds (before ++ (groups.flatten ++ after)))
    (hlaid : Laid (before ++ (groups.flatten ++ after))) (htouch : ∀ g ∈ groups, Touching g) :
    ∃ t : PatchStore,
      mergeRuns s ((groups.filter (1 < ·.length)).map (·.map Patch.addr)) = .ok ⟨.ok (), t⟩ ∧
        t.set.Holds (before ++ (groups.filterMap fuse? ++ after)) := by
  induction groups generalizing s before with
  | nil => exact ⟨s, rfl, h⟩
  | cons g rest ih =>
      obtain ⟨hg, hrest⟩ := List.forall_mem_cons.1 htouch
      match g with
      | [] => exact ih h hlaid hrest
      | [p] =>
          have hmoved : before ++ (([p] :: rest).flatten ++ after) =
              (before ++ [p]) ++ (rest.flatten ++ after) := by simp
          rw [hmoved] at h hlaid
          obtain ⟨t, hmerge, ht⟩ := ih h hlaid hrest
          exact ⟨t, hmerge, by simpa [fuse?, merged] using ht⟩
      | p :: q :: run =>
          have hmoved : before ++ (((p :: q :: run) :: rest).flatten ++ after) =
              before ++ p :: ((q :: run) ++ (rest.flatten ++ after)) := by simp
          rw [hmoved] at h hlaid
          obtain ⟨t, hmerge, ht⟩ := PatchStore.mergeRun_eq h hlaid hg (List.cons_ne_nil q run)
          have hlaid' := hlaid.merge hg (List.cons_ne_nil q run)
          have hplaced : before ++ merged p (q :: run) :: (rest.flatten ++ after) =
              (before ++ [merged p (q :: run)]) ++ (rest.flatten ++ after) := by simp
          rw [hplaced] at ht hlaid'
          obtain ⟨u, hmerges, hu⟩ := ih (s := s.changedTo t) ht hlaid' hrest
          refine ⟨u, ?_, by simpa [fuse?] using hu⟩
          rw [List.filter_cons_of_pos (by simp), List.map_cons, mergeRuns, hmerge]
          exact hmerges

end Desk

end HexEditor
