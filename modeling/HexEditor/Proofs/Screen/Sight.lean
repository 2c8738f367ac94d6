import HexEditor.Screen.Painting
import Mathlib.Data.List.Sort

/-!
# What is in sight

For a range of rows two things are computed on their own: the cells, address by address and kept
when they lie in the region, and the span in sight, from the first addresses of two rows.  Regions
and the selection are cut to that span before they are outlined.

Both are compared with the addresses of the region that stand in these rows (`Sheet.shown`).  These
follow one another without a gap, and so do those of them that any span holds, so that everything
comes down to runs of neighbouring addresses: sixteen to a row, glued together row by row
(`flatMap_rows`), cut at two ends (`filter_range'`), and told by their first and their last address
(`Span.ofEnds?`).  The rows are addressed from the beginning of the first one, which may lie below
the region, and for the span in sight the row after the last one has to have an address as well;
this is what the room behind the region is for (`Fits`).  The cells do without it (`RowsFit`).
-/

namespace HexEditor

/-! ## Runs of addresses -/

/-- The range from the first to the last element of a list. -/
def Span.ofEnds? (l : List Nat) : Option Span :=
  l.head?.bind fun first => l.getLast?.map (⟨first, ·⟩)

theorem Span.ofEnds?_range' (low n : Nat) :
    ofEnds? (List.range' low n) = if n = 0 then none else some ⟨low, low + n - 1⟩ := by
  unfold ofEnds?
  rw [List.head?_range', List.getLast?_range']
  split <;> rfl

/-- What two ends leave of a run is a run. -/
theorem filter_range' (low n first stop : Nat) :
    (List.range' low n).filter (fun a => first ≤ a ∧ a < stop) =
      List.range' (max low first) (min (low + n) stop - max low first) := by
  have hleft : ((List.range' low n).filter fun a => first ≤ a ∧ a < stop).Pairwise (· < ·) :=
    List.Pairwise.filter _ List.pairwise_lt_range'
  refine hleft.eq_of_mem_iff List.pairwise_lt_range' fun a => ?_
  simp only [List.mem_filter, List.mem_range'_1, decide_eq_true_eq]
  omega

/-- The span of a run meets another one in the addresses that they share. -/
theorem Span.bind_meet?_range' (low n : Nat) (t : Span) :
    (ofEnds? (List.range' low n)).bind (·.meet? t) =
      ofEnds? ((List.range' low n).filter (· ∈ t)) := by
  have hshared : (List.range' low n).filter (· ∈ t) =
      List.range' (max low t.first) (min (low + n) (t.last + 1) - max low t.first) := by
    rw [← filter_range']
    refine List.filter_congr fun a _ => ?_
    simp only [mem_iff, Nat.lt_succ_iff]
  rw [hshared, ofEnds?_range', ofEnds?_range']
  by_cases hn : n = 0
  · rw [if_pos hn, if_pos (by omega)]
    rfl
  · rw [if_neg hn, Option.bind_some]
    unfold meet?
    dsimp only
    split
    · rw [if_neg (by omega), show min (low + n - 1) t.last =
        max low t.first + (min (low + n) (t.last + 1) - max low t.first) - 1 by omega]
    · rw [if_pos (by omega)]

/-! ## Sheets -/

namespace Sheet

variable {s : Sheet} {first stop : Nat}

/-- The addresses of the region that stand in the rows from `first` up to, not including,
`stop`. -/
def shown (s : Sheet) (first stop : Nat) : List Nat :=
  (List.range' s.start s.size).filter fun a => first ≤ (s.rowCol a).1 ∧ (s.rowCol a).1 < stop

/-- Every address of a row is one. -/
structure RowsFit (s : Sheet) : Prop where
  start_le : s.start ≤ s.stop
  rows_le : s.alignedStart + s.rowCount * bytesPerRow ≤ maxAddress + 1

/-- Every address of a row is one, and so is the beginning of the row after the last one. -/
structure Fits (s : Sheet) : Prop where
  start_le : s.start ≤ s.stop
  bottom_le : s.alignedStart + s.rowCount * bytesPerRow ≤ maxAddress

theorem Fits.rowsFit (h : s.Fits) : s.RowsFit :=
  ⟨h.start_le, h.bottom_le.trans (Nat.le_succ _)⟩

theorem Fits.row_le (h : s.Fits) (hstop : stop ≤ s.rowCount) :
    s.alignedStart + stop * bytesPerRow ≤ maxAddress := by
  have hbottom := h.bottom_le
  unfold bytesPerRow at *
  omega

/-- A region with fifteen addresses to spare is laid out as it is. -/
theorem fits_of_create {start size : Nat} {metrics : CellMetrics}
    (h : create start size metrics = .ok s) (hroom : start + size ≤ maxAddress - 15) :
    s.Fits ∧ s.start = start ∧ s.size = size := by
  have hmax : 15 ≤ maxAddress := by decide
  have hclamped : clampedAdd start size = start + size := Nat.min_eq_left (by omega)
  obtain ⟨rows, hrows, hs⟩ := Checked.bind_eq_ok_iff.1 h
  obtain rfl := Except.ok.inj hs
  refine ⟨⟨?_, ?_⟩, rfl, ?_⟩
  · dsimp only
    omega
  · change start - start % bytesPerRow + rows * bytesPerRow ≤ maxAddress
    unfold rowsFor at hrows
    unfold bytesPerRow at hrows ⊢
    split at hrows
    · obtain rfl := Except.ok.inj hrows
      omega
    · rw [checkedAdd_of_le (by omega)] at hrows
      obtain rfl := Except.ok.inj hrows
      omega
  · change clampedAdd start size - start = size
    omega

/-- What is shown begins where the first row or the region begins, whichever is later, and ends
where the rows or the region end, whichever is earlier. -/
theorem shown_eq (hstart : s.start ≤ s.stop) :
    s.shown first stop = List.range' (max s.start (s.alignedStart + first * bytesPerRow))
      (min s.stop (s.alignedStart + stop * bytesPerRow) -
        max s.start (s.alignedStart + first * bytesPerRow)) := by
  have hend : s.start + s.size = s.stop := Nat.add_sub_cancel' hstart
  rw [← hend, ← filter_range']
  refine List.filter_congr fun a ha => ?_
  obtain ⟨hge, hlt⟩ := List.mem_range'_1.1 ha
  have hle : s.alignedStart ≤ s.start := Nat.sub_le ..
  simp only [rowCol, bytesPerRow]
  refine decide_eq_decide.2 ?_
  omega

/-- A row is addressed column by column. -/
theorem RowsFit.addrAt_eq (hfits : s.RowsFit) {row col : Nat} (hrow : row < s.rowCount)
    (hcol : col < bytesPerRow) :
    s.addrAt row col = .ok (s.alignedStart + row * bytesPerRow + col) ∧
      (s.alignedStart + row * bytesPerRow + col) % bytesPerRow = col := by
  have hrows := hfits.rows_le
  refine ⟨checkedAdd_of_le ?_, ?_⟩
  all_goals
    unfold alignedStart bytesPerRow at *
    omega

/-- The rows one after another are a run. -/
theorem flatMap_rows (base n : Nat) :
    (List.range' first n).flatMap (fun row => List.range' (base + row * bytesPerRow) bytesPerRow) =
      List.range' (base + first * bytesPerRow) (n * bytesPerRow) := by
  induction n generalizing first with
  | zero => rw [Nat.zero_mul]; rfl
  | succ n ih =>
      rw [List.range'_succ, List.flatMap_cons, ih]
      have hnext : base + (first + 1) * bytesPerRow = base + first * bytesPerRow + bytesPerRow := by
        rw [Nat.add_mul, Nat.one_mul, Nat.add_assoc]
      rw [hnext, List.range'_append_1, Nat.add_mul, Nat.one_mul, Nat.add_comm bytesPerRow]

/-- What is shown, row by row. -/
theorem shown_eq_flatMap (hstart : s.start ≤ s.stop) :
    s.shown first stop = (List.range' first (stop - first)).flatMap fun row =>
      (List.range' (s.alignedStart + row * bytesPerRow) bytesPerRow).filter (s.contains ·) := by
  rw [← List.filter_flatMap, flatMap_rows]
  have hcontains : ∀ a, s.contains a = decide (s.start ≤ a ∧ a < s.stop) := fun a => by
    simp [contains]
  simp only [hcontains]
  rw [filter_range', shown_eq hstart]
  unfold bytesPerRow
  rw [Nat.max_comm, show min (s.alignedStart + first * 16 + (stop - first) * 16) s.stop -
      max (s.alignedStart + first * 16) s.start =
      min s.stop (s.alignedStart + stop * 16) - max (s.alignedStart + first * 16) s.start by omega]

/-- The span in sight goes from the first address that is shown to the last one. -/
theorem visibleSpan_eq (hstart : s.start ≤ s.stop)
    (hbottom : s.alignedStart + stop * bytesPerRow ≤ maxAddress) :
    s.visibleSpan first stop = .ok (Span.ofEnds? (s.shown first stop)) := by
  have hsize : s.size = s.stop - s.start := rfl
  rw [shown_eq hstart, Span.ofEnds?_range']
  unfold visibleSpan
  unfold bytesPerRow at *
  split
  · rw [if_pos (by omega)]
    rfl
  · have hrow : ∀ row ≤ stop, s.rowAddr row = .ok (s.alignedStart + row * 16) := fun row hrow =>
      checkedAdd_of_le (by unfold bytesPerRow; omega)
    rw [hrow first (by omega), hrow stop (Nat.le_refl _)]
    simp only [Checked.ok_bind, Checked.pure_eq_ok]
    congr 1
    split
    · rw [if_neg (by omega), Nat.max_comm]
      congr 2
      omega
    · rw [if_pos (by omega)]

end Sheet

/-! ## Rows and cells -/

namespace Scene

variable {s : Scene} {first stop row : Nat}

/-- The cell of an address. -/
def cellAt (s : Scene) (addr : Nat) : Checked Cell :=
  return Cell.of (addr % bytesPerRow) addr (← s.value addr)

/-- The cells of a row are those of its addresses in the region. -/
theorem cells_eq (hfits : s.grid.sheet.RowsFit) (hrow : row < s.grid.sheet.rowCount) :
    s.cells row = ((List.range' (s.grid.sheet.alignedStart + row * bytesPerRow)
      bytesPerRow).filter (s.grid.sheet.contains ·)).mapM s.cellAt := by
  rw [← Checked.mapM_filter, List.range'_eq_map_range, List.mapM_map]
  unfold cells
  refine congrArg (· >>= fun cells => pure (cells.filterMap id))
    (Checked.mapM_congr fun col hcol => ?_)
  obtain ⟨haddr, hmod⟩ := hfits.addrAt_eq hrow (List.mem_range.1 hcol)
  rw [haddr, Checked.ok_bind, Function.comp_apply, cellAt, hmod]
  split
  · rw [bind_assoc]
    rfl
  · rfl

/-- The cells of all rows, one row after the other, are those of the addresses that are shown. -/
theorem visibleRows_cells (hfits : s.grid.sheet.RowsFit) (hstop : stop ≤ s.grid.sheet.rowCount) :
    (do return (← s.visibleRows first stop).flatMap (·.cells)) =
      (s.grid.sheet.shown first stop).mapM s.cellAt := by
  rw [Sheet.shown_eq_flatMap hfits.start_le]
  unfold visibleRows
  dsimp only
  rw [Nat.min_eq_left hstop]
  have hrows : ∀ row ∈ List.range' first (stop - first), row < s.grid.sheet.rowCount := by
    intro row hrow
    have hmem := List.mem_range'_1.1 hrow
    omega
  generalize List.range' first (stop - first) = rows at hrows
  induction rows with
  | nil => rfl
  | cons row rest ih =>
      obtain ⟨hrow, hrest⟩ := List.forall_mem_cons.1 hrows
      rw [List.flatMap_cons, List.mapM_append, ← ih hrest, ← cells_eq hfits hrow, List.mapM_cons]
      unfold Sheet.rowAddr
      rw [(hfits.addrAt_eq hrow (by decide)).1]
      simp only [Checked.ok_bind, bind_assoc, pure_bind, List.flatMap_cons]

/-- The rows are there when every address that is shown can be read. -/
theorem exists_visibleRows_iff (hfits : s.grid.sheet.RowsFit)
    (hstop : stop ≤ s.grid.sheet.rowCount) :
    (∃ rows, s.visibleRows first stop = .ok rows) ↔
      ∀ a ∈ s.grid.sheet.shown first stop, ∃ v, s.value a = .ok v := by
  have hcell : ∀ a, (∃ cell, s.cellAt a = .ok cell) ↔ ∃ v, s.value a = .ok v := fun a => by
    simp [cellAt, Checked.bind_eq_ok_iff]
  simp only [← hcell, ← Checked.exists_mapM_iff, ← visibleRows_cells hfits hstop]
  simp [Checked.bind_eq_ok_iff]

/-- The cells in order, each with its column. -/
theorem visibleRows_places (hfits : s.grid.sheet.RowsFit) (hstop : stop ≤ s.grid.sheet.rowCount)
    {rows : List Row} (h : s.visibleRows first stop = .ok rows) :
    (rows.flatMap (·.cells)).map (fun cell => (cell.addr, cell.col)) =
      (s.grid.sheet.shown first stop).map fun a => (a, a % bytesPerRow) := by
  have hcells : (do return (← s.visibleRows first stop).flatMap (·.cells)) =
      (s.grid.sheet.shown first stop).mapM s.cellAt := visibleRows_cells hfits hstop
  rw [h] at hcells
  refine Checked.map_of_mapM hcells.symm fun a cell hcell => ?_
  obtain ⟨v, -, hv⟩ := Checked.bind_eq_ok_iff.1 hcell
  obtain rfl := Except.ok.inj hv
  rfl

end Scene

/-! ## What is painted -/

theorem Sheet.outline_rects_ne_nil {s : Sheet} {low high : Nat} (h : low ≤ high)
    (hrows : s.rowCount ≠ 0) (pane : Pane) (shrink : Float32) :
    (s.outline low high pane shrink).rects ≠ [] := by
  unfold Sheet.outline
  rw [if_neg (by omega)]
  dsimp only
  split
  · exact List.cons_ne_nil _ _
  · split <;> exact List.cons_ne_nil _ _

namespace Painting

variable {g : Grid} {palette : Palette} {c : Canvas} {r : Region} {first stop : Nat}

/-- Something that is painted for the range from the first to the last of some addresses, and not
at all when there are none. -/
def paintedOver (addrs : List Nat) (paint : Span → List Shape) : List Shape :=
  ((Span.ofEnds? addrs).map paint).getD []

/-- The outlines of a region for those of some addresses that it contains. -/
def regionOver (s : Sheet) (palette : Palette) (c : Canvas) (addrs : List Nat) (r : Region) :
    List Shape :=
  paintedOver (addrs.filter (r.contains ·)) (regionOutlines s palette c r)

/-- The outlines of the selection for those of some addresses that are selected. -/
def selectionOver (g : Grid) (palette : Palette) (c : Canvas) (addrs : List Nat) : List Shape :=
  paintedOver (addrs.filter fun a => g.cursor.selection?.any (a ∈ ·))
    (selectionOutlines g palette c)

/-- Something is painted as soon as there is an address. -/
theorem paintedOver_ne_nil_iff {addrs : List Nat} {paint : Span → List Shape}
    (hsorted : addrs.Pairwise (· < ·)) (p : Nat → Bool)
    (hpaint : addrs ≠ [] → ∀ span : Span, span.first ≤ span.last → paint span ≠ []) :
    paintedOver (addrs.filter p) paint ≠ [] ↔ ∃ a ∈ addrs, p a = true := by
  have hsome : (∃ a ∈ addrs, p a = true) ↔ addrs.filter p ≠ [] := by
    simp [List.filter_eq_nil_iff]
  rw [hsome]
  have hshared := hsorted.filter p
  have haddrs : addrs.filter p ≠ [] → addrs ≠ [] := fun hne hnil => hne (by rw [hnil]; rfl)
  generalize addrs.filter p = shared at hshared haddrs
  cases shared with
  | nil => exact iff_of_false (fun h => h rfl) fun h => h rfl
  | cons a rest =>
      refine iff_of_true ?_ (List.cons_ne_nil a rest)
      refine hpaint (haddrs (List.cons_ne_nil a rest))
        ⟨a, (a :: rest).getLast (List.cons_ne_nil a rest)⟩ ?_
      rcases List.mem_cons.1 (List.getLast_mem (List.cons_ne_nil a rest)) with heq | hmem
      · exact heq.ge
      · exact Nat.le_of_lt ((List.pairwise_cons.1 hshared).1 _ hmem)

/-- A filled outline paints at least its first rectangle. -/
theorem panes_outline_ne_nil {s : Sheet} (hrows : s.rowCount ≠ 0) {span : Span}
    (hspan : span.first ≤ span.last) (shrink : Float32) (fill line : Pane → Color) :
    (panes.flatMap fun pane =>
      outline c (s.outline span.first span.last pane shrink) (fill pane) (line pane)) ≠ [] := by
  have hrects := Sheet.outline_rects_ne_nil hspan hrows .bytes shrink
  intro h
  have hbytes := List.flatMap_eq_nil_iff.1 h .bytes List.mem_cons_self
  exact hrects (List.map_eq_nil_iff.1 (List.append_eq_nil_iff.1 hbytes).1)

/-- Cutting the span in sight to a range leaves what the range has of the addresses that are
shown. -/
theorem paintedOver_shown {s : Sheet} (hfits : s.Fits) (t : Span) (paint : Span → List Shape) :
    paintedOver ((s.shown first stop).filter (· ∈ t)) paint =
      (((Span.ofEnds? (s.shown first stop)).bind (·.meet? t)).map paint).getD [] := by
  rw [Sheet.shown_eq hfits.start_le, Span.bind_meet?_range']
  rfl

theorem regionOver_eq {s : Sheet} (hfits : s.Fits) :
    regionOver s palette c (s.shown first stop) r =
      ((Span.ofEnds? (s.shown first stop)).map (region s palette c · r)).getD [] := by
  have hcontains : ∀ a, r.contains a = decide (a ∈ (⟨r.addr, r.last⟩ : Span)) := fun a => by
    simp [Region.contains, Span.mem_iff]
  unfold regionOver
  simp only [hcontains]
  rw [paintedOver_shown hfits]
  cases Span.ofEnds? (s.shown first stop) <;> rfl

theorem selectionOver_eq (hfits : g.sheet.Fits) :
    selectionOver g palette c (g.sheet.shown first stop) =
      ((Span.ofEnds? (g.sheet.shown first stop)).map (selection g palette c)).getD [] := by
  unfold selectionOver selection
  cases g.cursor.selection? with
  | none =>
      rw [List.filter_eq_nil_iff.2 fun a _ => by simp]
      cases Span.ofEnds? (g.sheet.shown first stop) <;> rfl
  | some span =>
      simp only [Option.any_some]
      rw [paintedOver_shown hfits]
      cases Span.ofEnds? (g.sheet.shown first stop) <;> rfl

/-- What is painted, from the back to the front, said by the addresses that are shown. -/
theorem canvas_eq {scene : Scene} (hfits : scene.grid.sheet.Fits)
    (hstop : stop ≤ scene.grid.sheet.rowCount) {rows : List Row}
    (hrows : scene.visibleRows first stop = .ok rows) :
    canvas scene palette c first stop = .ok (
      rows.flatMap (background scene.grid.sheet c) ++
      (scene.grid.overlay.painted.flatMap
          (regionOver scene.grid.sheet palette c (scene.grid.sheet.shown first stop)) ++
        selectionOver scene.grid palette c (scene.grid.sheet.shown first stop)) ++
      rows.flatMap (glyphs scene.grid.sheet c) ++
      (scene.grid.marks?.map (marks palette c)).getD []) := by
  have hregions : regionOver scene.grid.sheet palette c (scene.grid.sheet.shown first stop) =
      fun r => ((Span.ofEnds? (scene.grid.sheet.shown first stop)).map
        (region scene.grid.sheet palette c · r)).getD [] := funext fun _ => regionOver_eq hfits
  unfold canvas
  simp only [hrows, Sheet.visibleSpan_eq hfits.start_le (hfits.row_le hstop), Checked.ok_bind,
    Checked.pure_eq_ok, hregions, selectionOver_eq hfits]
  cases Span.ofEnds? (scene.grid.sheet.shown first stop) with
  | none => simp
  | some inSight => rfl

/-- What is drawn is what is in sight.  In a region with fifteen addresses to spare, for any rows
of it: the cells, read in order, are the addresses of the region that stand in these rows, in the
column that their last digit says, and they are there as soon as these addresses can be read; the
span in sight goes from the first of them to the last one, and there is none when there are none;
and every painted region, and the selection, is outlined from the first to the last of those that
it shares with them, and not at all when it shares none. -/
theorem canvas_shows_rows (scene : Scene) (palette : Palette) (c : Canvas)
    {start size first stop : Nat} {metrics : CellMetrics}
    (hsheet : Sheet.create start size metrics = .ok scene.grid.sheet)
    (hroom : start + size ≤ maxAddress - 15) (hstop : stop ≤ scene.grid.sheet.rowCount) :
    let g := scene.grid
    let shown := (List.range' start size).filter fun a =>
      first ≤ (g.sheet.rowCol a).1 ∧ (g.sheet.rowCol a).1 < stop
    ((∃ rows, scene.visibleRows first stop = .ok rows) ↔
        ∀ a ∈ shown, ∃ v, scene.value a = .ok v) ∧
      g.sheet.visibleSpan first stop = .ok (Span.ofEnds? shown) ∧
      (∀ rows, scene.visibleRows first stop = .ok rows →
        (rows.flatMap (·.cells)).map (fun cell => (cell.addr, cell.col)) =
            shown.map (fun a => (a, a % 16)) ∧
          canvas scene palette c first stop = .ok (rows.flatMap (background g.sheet c) ++
            (g.overlay.painted.flatMap (regionOver g.sheet palette c shown) ++
              selectionOver g palette c shown) ++
            rows.flatMap (glyphs g.sheet c) ++ (g.marks?.map (marks palette c)).getD [])) ∧
      (∀ r, regionOver g.sheet palette c shown r ≠ [] ↔ ∃ a ∈ shown, r.contains a = true) ∧
      (selectionOver g palette c shown ≠ [] ↔
        ∃ a ∈ shown, ∃ span, g.cursor.selection? = some span ∧ a ∈ span) := by
  obtain ⟨hfits, rfl, rfl⟩ := Sheet.fits_of_create hsheet hroom
  intro g shown
  have hsorted : shown.Pairwise (· < ·) := List.Pairwise.filter _ List.pairwise_lt_range'
  -- an address can only be shown when there are rows
  have hrows : shown ≠ [] → g.sheet.rowCount ≠ 0 := by
    intro hne hzero
    obtain ⟨a, ha⟩ := List.exists_mem_of_ne_nil shown hne
    have hrow : (g.sheet.rowCol a).1 < stop := (of_decide_eq_true (List.mem_filter.1 ha).2).2
    exact Nat.not_lt_zero _ (Nat.lt_of_lt_of_le hrow (hzero ▸ hstop))
  refine ⟨Scene.exists_visibleRows_iff hfits.rowsFit hstop,
    Sheet.visibleSpan_eq hfits.start_le (hfits.row_le hstop), fun rows h =>
      ⟨Scene.visibleRows_places hfits.rowsFit hstop h, canvas_eq hfits hstop h⟩, fun r => ?_, ?_⟩
  · exact paintedOver_ne_nil_iff hsorted _ fun hne _ hspan =>
      panes_outline_ne_nil (hrows hne) hspan _ _ _
  · have hselected : ∀ a, (∃ span, g.cursor.selection? = some span ∧ a ∈ span) ↔
        (g.cursor.selection?.any (a ∈ ·)) = true := fun a => by simp [Option.any_eq_true]
    simp only [hselected]
    exact paintedOver_ne_nil_iff hsorted _ fun hne _ hspan =>
      panes_outline_ne_nil (hrows hne) hspan _ _ _

/-- Forty addresses from 3 on take three rows, the last of which is not full. -/
theorem canvas_shows_rows_last :
    let scene : Scene :=
      { grid := { sheet := ⟨3, 43, 3, .ofMetrics {}⟩, source := some .addressPattern } }
    Sheet.create 3 40 {} = .ok scene.grid.sheet ∧ 3 + 40 ≤ maxAddress - 15 ∧
      3 ≤ scene.grid.sheet.rowCount ∧
      scene.grid.sheet.visibleSpan 2 3 = .ok (some ⟨32, 42⟩) ∧
      ∃ rows, scene.visibleRows 2 3 = .ok rows ∧
        (rows.flatMap (·.cells)).map (fun cell => (cell.addr, cell.col)) =
          [(32, 0), (33, 1), (34, 2), (35, 3), (36, 4), (37, 5), (38, 6), (39, 7), (40, 8), (41, 9),
            (42, 10)] := by
  intro scene
  have hsheet : Sheet.create 3 40 {} = .ok scene.grid.sheet := rfl
  have hshown : ((List.range' 3 40).filter fun a =>
      2 ≤ (scene.grid.sheet.rowCol a).1 ∧ (scene.grid.sheet.rowCol a).1 < 3) =
        [32, 33, 34, 35, 36, 37, 38, 39, 40, 41, 42] := by decide
  obtain ⟨hrows, hspan, hcells, -⟩ := @canvas_shows_rows scene (.ofColors {}) ⟨{}⟩ 3 40 2 3 {}
    hsheet (by decide) (Nat.le_refl 3)
  obtain ⟨rows, h⟩ := hrows.2 fun a _ => ⟨some (UInt8.ofNat a), rfl⟩
  rw [hshown] at hspan hcells
  exact ⟨hsheet, by decide, Nat.le_refl 3, hspan, rows, h, (hcells rows h).1⟩

end Painting
end HexEditor
