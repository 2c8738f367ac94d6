import HexEditor.Proofs.Grid.Typing
import HexEditor.Proofs.Memory.Image
import HexEditor.Proofs.Screen.Sight
import HexEditor.Proofs.View.Opening

/-!
# The edge of the address space

A view shows the region from the least to the greatest loaded address, laid out in rows that begin
at multiples of sixteen.  Three numbers are formed of it that may lie beyond the address space, and
each is dealt with on its own.

* The distance from the beginning of the first row to the end of the region, by which the rows are
  counted, has to be an address.  It is none when the region takes up all rows that there are, and
  then no view can be opened (`exists_openView_iff`).
* The end of the region, which is not in it, stays at the greatest address, so that this address
  is never in the region (`Sheet.spanning_contains_iff`).
* The row after the last one has to begin at an address, for the span in sight to be known.  It
  does not when the region ends in the last row that there is (`Sheet.spanning_visibleSpan_iff`).

Every loaded byte is in reach as long as none of them is in the last row of the address space
(`openView_inReach_iff`).
-/

namespace HexEditor

/-! ## The sheet of a view -/

namespace Sheet

/-- The sheet of the addresses from `first` to `last`, as far as it can have them. -/
def spanning (first last : Nat) (layout : Layout) : Sheet :=
  { start := first
    stop := clampedAdd last 1
    rowCount := last / bytesPerRow - first / bytesPerRow + 1
    layout }

variable {first last a : Nat} {layout : Layout}

/-- The greatest address is left out. -/
theorem spanning_contains_iff :
    (spanning first last layout).contains a = true ↔ first ≤ a ∧ a ≤ last ∧ a < maxAddress := by
  simp only [contains, Bool.and_eq_true, decide_eq_true_eq]
  simp only [spanning, clampedAdd]
  omega

theorem spanning_start_le (hle : first ≤ last) (hmax : last ≤ maxAddress) :
    (spanning first last layout).start ≤ (spanning first last layout).stop := by
  simp only [spanning, clampedAdd]
  omega

/-- The rows end where the row of the last address does. -/
theorem spanning_rows_eq (hle : first ≤ last) :
    (spanning first last layout).alignedStart +
        (spanning first last layout).rowCount * bytesPerRow =
      (last / bytesPerRow + 1) * bytesPerRow := by
  simp only [spanning, alignedStart, bytesPerRow]
  omega

theorem spanning_rowsFit (hle : first ≤ last) (hmax : last ≤ maxAddress) :
    (spanning first last layout).RowsFit := by
  refine ⟨spanning_start_le hle hmax, ?_⟩
  rw [spanning_rows_eq hle]
  have hspace : maxAddress = 18446744073709551615 := by decide
  unfold bytesPerRow
  omega

/-- All rows together show what is in the region. -/
theorem shown_spanning (hle : first ≤ last) (hmax : last ≤ maxAddress) :
    (spanning first last layout).shown 0 (spanning first last layout).rowCount =
      List.range' first (clampedAdd last 1 - first) := by
  have hlow : max first (first - first % bytesPerRow + 0 * bytesPerRow) = first := by omega
  have hhigh : min (clampedAdd last 1) ((last / bytesPerRow + 1) * bytesPerRow) =
      clampedAdd last 1 := by
    have hstop : clampedAdd last 1 ≤ last + 1 := Nat.min_le_left ..
    unfold bytesPerRow
    omega
  rw [shown_eq (spanning_start_le hle hmax), spanning_rows_eq hle]
  simp only [spanning, alignedStart, hlow, hhigh]

/-- The span in sight is known, and is all that is loaded, unless the region ends in the last row
of the address space. -/
theorem spanning_visibleSpan_iff (hle : first ≤ last) (hmax : last ≤ maxAddress) :
    (spanning first last layout).visibleSpan 0 (spanning first last layout).rowCount =
      .ok (some ⟨first, last⟩) ↔ last + bytesPerRow ≤ maxAddress := by
  constructor
  · intro hspan
    unfold visibleSpan at hspan
    split at hspan
    · cases hspan
    · obtain ⟨low, -, hspan⟩ := Checked.bind_eq_ok_iff.1 hspan
      obtain ⟨high, hhigh, -⟩ := Checked.bind_eq_ok_iff.1 hspan
      -- the row after the last one begins at an address
      have hbottom : (last / bytesPerRow + 1) * bytesPerRow ≤ maxAddress := by
        unfold rowAddr addrAt checkedAdd at hhigh
        rw [spanning_rows_eq hle] at hhigh
        split at hhigh
        · assumption
        · cases hhigh
      have hspace : maxAddress = 18446744073709551615 := by decide
      unfold bytesPerRow at *
      omega
  · intro hroom
    unfold bytesPerRow at hroom
    have hbottom : (last / bytesPerRow + 1) * bytesPerRow ≤ maxAddress := by
      unfold bytesPerRow
      omega
    rw [← spanning_rows_eq hle] at hbottom
    have hstop : clampedAdd last 1 = last + 1 := Nat.min_eq_left (by omega)
    have hend : first + (last + 1 - first) - 1 = last := by omega
    rw [visibleSpan_eq (spanning_start_le hle hmax) hbottom, shown_spanning hle hmax, hstop,
      Span.ofEnds?_range', if_neg (by omega), hend]

end Sheet

/-- Every address of the region is shown once. -/
theorem Scene.exists_rows_spanning {s : Scene} {first last : Nat} {layout : Layout}
    (hsheet : s.grid.sheet = .spanning first last layout) (hle : first ≤ last)
    (hmax : last ≤ maxAddress) (hread : ∀ a, ∃ v, s.value a = .ok v) :
    ∃ rows, s.visibleRows 0 s.grid.sheet.rowCount = .ok rows ∧
      ∀ a, first ≤ a → a ≤ last →
        (rows.flatMap (·.cells)).countP (·.addr = a) = if a = maxAddress then 0 else 1 := by
  have hfits : s.grid.sheet.RowsFit := hsheet ▸ Sheet.spanning_rowsFit hle hmax
  obtain ⟨rows, hrows⟩ := (exists_visibleRows_iff hfits le_rfl).2 fun a _ => hread a
  have hshown : s.grid.sheet.shown 0 s.grid.sheet.rowCount =
      List.range' first (clampedAdd last 1 - first) := hsheet ▸ Sheet.shown_spanning hle hmax
  have haddrs : (rows.flatMap (·.cells)).map (·.addr) =
      List.range' first (clampedAdd last 1 - first) := by
    have hplaces := congrArg (List.map Prod.fst) (visibleRows_places hfits le_rfl hrows)
    rw [List.map_map, List.map_map, hshown] at hplaces
    exact hplaces.trans (List.map_id _)
  refine ⟨rows, hrows, fun a hfirst hlast => ?_⟩
  have hcount : (rows.flatMap (·.cells)).countP (·.addr = a) =
      (List.range' first (clampedAdd last 1 - first)).count a := by
    rw [← haddrs, List.count, List.countP_map]
    rfl
  have hstop : clampedAdd last 1 = min (last + 1) maxAddress := rfl
  rw [hcount, List.count_range_1', hstop]
  generalize maxAddress = top at hmax
  by_cases htop : a = top
  · rw [if_pos htop, if_neg (by omega)]
  · rw [if_neg htop, if_pos (by omega)]

/-! ## Opening a view -/

namespace Desk

variable {p : Project} {g : SyncGroup} {options : ViewOptions} {now first last : Nat} {d : Desk}

/-- What is shown in a view that has been opened. -/
theorem openView_shows (hbounds : p.bounds? = .ok (some ⟨first, last⟩)) (hle : first ≤ last)
    (hmax : last ≤ maxAddress) (hopen : openView p g options now = .ok d) :
    d.view.grid.sheet = .spanning first last (.ofMetrics options.metrics) ∧
      d.view.grid.source = some .project ∧ d.project.image = p.image ∧
      d.project.patches.set = p.patches.set := by
  rw [openView_eq, frame_eq hbounds hle hmax] at hopen
  split at hopen
  · cases hopen
  · obtain rfl := Except.ok.inj hopen
    refine ⟨?_, rfl, rfl, rfl⟩
    have hstop : clampedAdd first (last - first + 1) = clampedAdd last 1 := by
      unfold clampedAdd
      omega
    unfold Sheet.spanning
    rw [← hstop]
    rfl

/-- No loaded byte is out of reach: every loaded address is in the region and has one cell, and
the span in sight of all rows is the range of the loaded addresses. -/
structure InReach (d : Desk) (first last : Nat) : Prop where
  contained : ∀ a, d.project.image.Loads a → d.view.grid.sheet.contains a = true
  shown : ∃ rows, d.scene.visibleRows 0 d.view.grid.sheet.rowCount = .ok rows ∧
    ∀ a, d.project.image.Loads a → (rows.flatMap (·.cells)).countP (·.addr = a) = 1
  inSight : d.view.grid.sheet.visibleSpan 0 d.view.grid.sheet.rowCount = .ok (some ⟨first, last⟩)

/-- What is in reach wherever the loaded addresses are: the greatest address of all is not in the
region and has no cell, and its row keeps the span in sight from being known. -/
structure ReachAtEdge (d : Desk) (first last : Nat) : Prop where
  contained_iff : ∀ a, d.project.image.Loads a →
    (d.view.grid.sheet.contains a = true ↔ a ≠ maxAddress)
  shown : ∃ rows, d.scene.visibleRows 0 d.view.grid.sheet.rowCount = .ok rows ∧
    ∀ a, d.project.image.Loads a →
      (rows.flatMap (·.cells)).countP (·.addr = a) = if a = maxAddress then 0 else 1
  inSight_iff : d.view.grid.sheet.visibleSpan 0 d.view.grid.sheet.rowCount =
    .ok (some ⟨first, last⟩) ↔ last + bytesPerRow ≤ maxAddress

theorem ReachAtEdge.inReach_iff (h : d.ReachAtEdge first last)
    (hlast : ∀ a, d.project.image.Loads a → a ≤ last) :
    d.InReach first last ↔ last + bytesPerRow ≤ maxAddress := by
  constructor
  · exact fun hreach => h.inSight_iff.1 hreach.inSight
  · intro hroom
    -- below the last row no loaded address is the greatest one
    have hbelow : ∀ a, d.project.image.Loads a → a ≠ maxAddress := by
      intro a ha
      have hhigh := hlast a ha
      unfold bytesPerRow at hroom
      omega
    obtain ⟨rows, hrows, hcount⟩ := h.shown
    refine ⟨fun a ha => (h.contained_iff a ha).2 (hbelow a ha), ⟨rows, hrows, fun a ha => ?_⟩,
      h.inSight_iff.2 hroom⟩
    rw [hcount a ha, if_neg (hbelow a ha)]

theorem openView_reachAtEdge (hpatches : p.patches.set.WellFormed)
    (hbounds : p.bounds? = .ok (some ⟨first, last⟩)) (hle : first ≤ last) (hmax : last ≤ maxAddress)
    (hall : ∀ a, p.image.Loads a → first ≤ a ∧ a ≤ last)
    (hopen : openView p g options now = .ok d) : d.ReachAtEdge first last := by
  obtain ⟨hsheet, hsource, himage, hset⟩ := openView_shows hbounds hle hmax hopen
  rw [← himage] at hall
  refine ⟨fun a ha => ?_, ?_, ?_⟩
  · obtain ⟨hlow, hhigh⟩ := hall a ha
    rw [hsheet, Sheet.spanning_contains_iff]
    omega
  · have hread : ∀ a, ∃ v, d.scene.value a = .ok v := by
      intro a
      refine ⟨d.project.byte? a, ?_⟩
      unfold Scene.value
      rw [show d.scene.grid.source = some .project from hsource]
      exact Project.read_eq (hset ▸ hpatches) a
    obtain ⟨rows, hrows, hcount⟩ := Scene.exists_rows_spanning (s := d.scene) hsheet hle hmax hread
    exact ⟨rows, hrows, fun a ha => hcount a (hall a ha).1 (hall a ha).2⟩
  · rw [hsheet]
    exact Sheet.spanning_visibleSpan_iff hle hmax

/-- What of the loaded bytes is in reach of a view.  A view can be opened unless something is
loaded both in the first row of the address space and at its greatest address, and no loaded byte
is out of its reach exactly when none is in the last row of the address space. -/
theorem openView_inReach_iff (himage : p.image.Proper) (hne : p.image.segments.entries ≠ [])
    (hpatches : p.patches.set.WellFormed) (g : SyncGroup) (options : ViewOptions) (now : Nat) :
    ∃ first last, p.bounds? = .ok (some ⟨first, last⟩) ∧ p.image.Loads first ∧
      p.image.Loads last ∧ (∀ a, p.image.Loads a → first ≤ a ∧ a ≤ last) ∧
      ((∃ d, openView p g options now = .ok d) ↔ bytesPerRow ≤ first ∨ last < maxAddress) ∧
      (∀ d, openView p g options now = .ok d → d.ReachAtEdge first last) ∧
      ((∃ d, openView p g options now = .ok d ∧ d.InReach first last) ↔
        last + bytesPerRow ≤ maxAddress) := by
  obtain ⟨first, last, hbounds, hfirst, hlast, hall, hmax⟩ := Image.bounds?_eq himage hne
  have hle : first ≤ last := (hall first hfirst).2
  have hreach : ∀ d, openView p g options now = .ok d →
      (d.InReach first last ↔ last + bytesPerRow ≤ maxAddress) := by
    intro d hopen
    have hdimage := (openView_shows hbounds hle hmax hopen).2.2.1
    apply (openView_reachAtEdge hpatches hbounds hle hmax hall hopen).inReach_iff
    rw [hdimage]
    exact fun a ha => (hall a ha).2
  have hopens : (∃ d, openView p g options now = .ok d) ↔ bytesPerRow ≤ first ∨ last < maxAddress :=
    exists_openView_iff hbounds hle hmax
  refine ⟨first, last, hbounds, hfirst, hlast, hall, hopens, fun d =>
    openView_reachAtEdge hpatches hbounds hle hmax hall, ?_, ?_⟩
  · rintro ⟨d, hopen, hd⟩
    exact (hreach d hopen).1 hd
  · intro hroom
    have hlt : last < maxAddress := by
      unfold bytesPerRow at hroom
      omega
    obtain ⟨d, hopen⟩ := hopens.2 (.inr hlt)
    exact ⟨d, hopen, (hreach d hopen).2 hroom⟩

/-- Of four bytes at the end of the address space, the last one is left out. -/
theorem openView_inReach_iff_four :
    let p : Project := { image := .ofBytes (maxAddress - 3) [1, 2, 3, 4] }
    p.image.Loads maxAddress ∧ ∃ d, openView p {} {} 0 = .ok d ∧
      d.view.grid.sheet.contains maxAddress = false ∧
      ¬ d.InReach (maxAddress - 3) maxAddress := by
  intro p
  obtain ⟨first, last, hbounds, -, hlast, -, hopen, hedge, hreach⟩ :=
    openView_inReach_iff (p := p) (by decide) (by decide) PatchSet.wellFormed_empty {} {} 0
  have hends : p.bounds? = .ok (some ⟨maxAddress - 3, maxAddress⟩) := by decide
  obtain ⟨rfl, rfl⟩ : first = maxAddress - 3 ∧ last = maxAddress := by
    rw [hbounds] at hends
    simpa using hends
  obtain ⟨d, hd⟩ := hopen.2 (.inl (by decide))
  have himage := (openView_shows hbounds (by decide) (by decide) hd).2.2.1
  refine ⟨hlast, d, hd, ?_, fun hall => ?_⟩
  · have hcontains := (hedge d hd).contained_iff maxAddress (himage ▸ hlast)
    simpa using hcontains
  · exact absurd (hreach.1 ⟨d, hd, hall⟩) (by decide)

/-- Fifteen bytes that fill the last row of the address space but for the greatest address are all
in the region, but the span in sight is not known. -/
theorem not_openView_inReach : ¬ ∀ p : Project, p.image.Proper → p.image.segments.entries ≠ [] →
    p.patches.set.WellFormed → ∀ (g : SyncGroup) (options : ViewOptions) (now : Nat),
      ∃ first last d, p.bounds? = .ok (some ⟨first, last⟩) ∧ openView p g options now = .ok d ∧
        d.InReach first last := by
  intro h
  obtain ⟨first, last, d, hbounds, hopen, hreach⟩ :=
    h { image := .ofBytes (maxAddress - 15) (List.replicate 15 0) } (by decide) (by decide)
      PatchSet.wellFormed_empty {} {} 0
  have hends : Project.bounds? { image := .ofBytes (maxAddress - 15) (List.replicate 15 0) } =
      .ok (some ⟨maxAddress - 15, maxAddress - 1⟩) := by decide
  obtain ⟨rfl, rfl⟩ : first = maxAddress - 15 ∧ last = maxAddress - 1 := by
    rw [hbounds] at hends
    simpa using hends
  obtain ⟨hsheet, -⟩ := openView_shows hbounds (by decide) (by decide) hopen
  have hspan := hreach.inSight
  rw [hsheet, Sheet.spanning_visibleSpan_iff (by decide) (by decide)] at hspan
  exact absurd hspan (by decide)

end Desk

end HexEditor
