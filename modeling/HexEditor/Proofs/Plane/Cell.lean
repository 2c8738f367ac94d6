import HexEditor.Proofs.Screen.Sight

/-!
# Addresses and cells

A sheet takes an address to a cell, which is a row and a column, and a cell to an address.  Both
ways count from the beginning of the first row, a multiple of sixteen that may lie below the region.

How many rows there are is computed from the size of the region alone.  What has to be known of that
number is where it puts the last row: the region ends in it (`Lined`).  So no row is missing, none is
left over, and all columns of the last row are addresses, since the address space ends with a row.
Then there is an answer for every point of the plane too (`RowsFit.exists_hit`).
-/

namespace HexEditor

/-- A slot lies between two edges. -/
theorem Layout.succ_slotAt?_lt {x : Float32} {edges : List Float32} {i : Nat}
    (h : slotAt? x edges = some i) : i + 1 < edges.length := by
  induction edges generalizing i with
  | nil => cases h
  | cons left rest ih =>
      cases rest with
      | nil => cases h
      | cons right rest =>
          unfold slotAt? at h
          split at h
          · obtain rfl := Option.some.inj h
            exact Nat.succ_lt_succ (Nat.succ_pos _)
          · obtain ⟨j, hj, rfl⟩ := Option.map_eq_some_iff.1 h
            exact Nat.succ_lt_succ (ih hj)

namespace Sheet

variable {s : Sheet} {start size a b row col : Nat} {metrics : CellMetrics}

/-- Rows begin at multiples of sixteen. -/
theorem rowCol_snd (hle : s.start ≤ a) : (s.rowCol a).2 = a % bytesPerRow := by
  unfold rowCol alignedStart bytesPerRow
  dsimp only
  omega

/-- Addresses are read row by row, from the left to the right. -/
theorem lt_iff_rowCol_lt (ha : s.start ≤ a) (hb : s.start ≤ b) :
    a < b ↔ Prod.Lex (· < ·) (· < ·) (s.rowCol a) (s.rowCol b) := by
  rw [Prod.lex_iff]
  unfold rowCol alignedStart bytesPerRow
  dsimp only
  omega

theorem slotAt?_lt {x : Float32} {pane : Pane} (h : s.slotAt? x = some (pane, col)) :
    col < bytesPerRow := by
  have hlt : ∀ {pane : Pane} {i : Nat},
      Layout.slotAt? x (s.layout.edges pane) = some i → i < bytesPerRow := by
    intro pane i hslot
    have hedges := Layout.succ_slotAt?_lt hslot
    unfold Layout.edges at hedges
    rw [List.length_map, List.length_range] at hedges
    exact Nat.lt_of_succ_lt_succ hedges
  unfold slotAt? at h
  split at h
  · next hslot =>
      obtain ⟨-, rfl⟩ := Prod.mk.inj (Option.some.inj h)
      exact hlt hslot
  · obtain ⟨i, hslot, hpair⟩ := Option.map_eq_some_iff.1 h
    obtain ⟨-, rfl⟩ := Prod.mk.inj hpair
    exact hlt hslot

/-- At every point of the plane there is a cell or not. -/
theorem RowsFit.exists_hit (h : s.RowsFit) (p : Point) : ∃ hit, s.hit? p = .ok hit := by
  unfold hit?
  split
  · next row pane col hrow hslot =>
      have hlt : row < s.rowCount := by
        unfold rowAt? at hrow
        split at hrow
        · cases hrow
        · dsimp only at hrow
          split at hrow
          · next hlt =>
              obtain rfl := Option.some.inj hrow
              exact hlt
          · cases hrow
      rw [(h.addrAt_eq hlt (slotAt?_lt hslot)).1]
      exact ⟨_, rfl⟩
  · exact ⟨none, rfl⟩

/-! ## The last row -/

/-- The region ends in the last row, and there is no row for an empty one. -/
structure Lined (s : Sheet) : Prop where
  start_le : s.start ≤ s.stop
  stop_le_max : s.stop ≤ maxAddress
  stop_le : s.start < s.stop → s.stop ≤ s.alignedStart + s.rowCount * bytesPerRow
  lt_stop : ∀ row < s.rowCount, max s.start (s.alignedStart + row * bytesPerRow) < s.stop

theorem create_eq (hroom : start + size ≤ maxAddress) :
    create start size metrics = .ok
      { start
        stop := start + size
        rowCount := if size = 0 then 0
          else (size + start % bytesPerRow + (bytesPerRow - 1)) / bytesPerRow
        layout := .ofMetrics metrics } := by
  have hclamped : clampedAdd start size = start + size := Nat.min_eq_left hroom
  have hcount : size + start % bytesPerRow ≤ maxAddress := by
    have hle := Nat.mod_le start bytesPerRow
    omega
  unfold create rowsFor
  rw [hclamped, checkedAdd_of_le hcount]
  split <;> rfl

theorem lined_of_create (hroom : start + size ≤ maxAddress)
    (h : create start size metrics = .ok s) : s.Lined := by
  obtain rfl := Except.ok.inj ((create_eq hroom).symm.trans h)
  refine ⟨Nat.le_add_right .., hroom, fun hlt => ?_, fun row hrow => ?_⟩
  · dsimp only at hlt ⊢
    rw [if_neg (by omega)]
    unfold alignedStart bytesPerRow
    dsimp only
    omega
  · dsimp only at hrow ⊢
    split at hrow
    · exact absurd hrow (Nat.not_lt_zero row)
    · unfold alignedStart bytesPerRow at *
      dsimp only
      omega

namespace Lined

theorem rowsFit (h : s.Lined) : s.RowsFit := by
  refine ⟨h.start_le, ?_⟩
  have hspace : maxAddress = 18446744073709551615 := by decide
  have hmax := h.stop_le_max
  have hstart := h.start_le
  cases hrows : s.rowCount with
  | zero =>
      unfold alignedStart
      omega
  | succ n =>
      -- the last row begins below the end of the region, and the address space ends with a row
      have hlast := h.lt_stop n (by omega)
      unfold alignedStart bytesPerRow at *
      omega

/-! ## From addresses to cells -/

theorem rowCol_lt (h : s.Lined) (ha : s.contains a = true) : (s.rowCol a).1 < s.rowCount := by
  obtain ⟨hlow, hhigh⟩ := contains_iff.1 ha
  have hstop := h.stop_le (hlow.trans_lt hhigh)
  have haligned : s.alignedStart ≤ s.start := Nat.sub_le ..
  unfold rowCol
  unfold bytesPerRow at *
  dsimp only
  omega

theorem addrAt_rowCol (h : s.Lined) (ha : s.contains a = true) :
    s.addrAt (s.rowCol a).1 (s.rowCol a).2 = .ok a := by
  have hcol : (s.rowCol a).2 < bytesPerRow := Nat.mod_lt _ (by decide)
  rw [(h.rowsFit.addrAt_eq (h.rowCol_lt ha) hcol).1]
  obtain ⟨hlow, -⟩ := contains_iff.1 ha
  have hback : s.alignedStart + (s.rowCol a).1 * bytesPerRow + (s.rowCol a).2 = a := by
    unfold rowCol alignedStart bytesPerRow
    dsimp only
    omega
  rw [hback]

/-! ## From cells to addresses -/

theorem exists_addrAt (h : s.Lined) (hrow : row < s.rowCount) (hcol : col < bytesPerRow) :
    ∃ a, s.addrAt row col = .ok a ∧ s.rowCol a = (row, col) := by
  refine ⟨_, (h.rowsFit.addrAt_eq hrow hcol).1, ?_⟩
  unfold rowCol
  unfold bytesPerRow at *
  refine Prod.ext ?_ ?_
  all_goals
    dsimp only
    omega

/-- A row is there for an address: for its first one, or for the first one of the region. -/
theorem exists_contains (h : s.Lined) (hrow : row < s.rowCount) :
    ∃ a, s.contains a = true ∧ (s.rowCol a).1 = row := by
  have hbelow := h.lt_stop row hrow
  refine ⟨_, contains_iff.2 ⟨Nat.le_max_left .., hbelow⟩, ?_⟩
  unfold rowCol alignedStart bytesPerRow at *
  dsimp only
  omega

end Lined

/-! ## Both ways -/

/-- Every address of the region has a cell, every cell has an address, the two ways undo each other,
and they keep the order of reading.  No row is without an address of the region. -/
structure CellByCell (s : Sheet) : Prop where
  cell : ∀ a, s.contains a = true → (s.rowCol a).1 < s.rowCount ∧
    (s.rowCol a).2 = a % bytesPerRow ∧ s.addrAt (s.rowCol a).1 (s.rowCol a).2 = .ok a
  order : ∀ a b, s.contains a = true → s.contains b = true →
    (a < b ↔ Prod.Lex (· < ·) (· < ·) (s.rowCol a) (s.rowCol b))
  addr : ∀ row < s.rowCount, ∀ col < bytesPerRow,
    ∃ a, s.addrAt row col = .ok a ∧ s.rowCol a = (row, col)
  row : ∀ row < s.rowCount, ∃ a, s.contains a = true ∧ (s.rowCol a).1 = row

theorem Lined.cellByCell (h : s.Lined) : s.CellByCell where
  cell _ ha := ⟨h.rowCol_lt ha, rowCol_snd (contains_iff.1 ha).1, h.addrAt_rowCol ha⟩
  order _ _ ha hb := lt_iff_rowCol_lt (contains_iff.1 ha).1 (contains_iff.1 hb).1
  addr _ hrow _ hcol := h.exists_addrAt hrow hcol
  row _ hrow := h.exists_contains hrow

/-- A region that ends in the address space is laid out cell by cell. -/
theorem exists_create_cellByCell (metrics : CellMetrics) (hroom : start + size ≤ maxAddress) :
    ∃ s, create start size metrics = .ok s ∧ s.start = start ∧ s.stop = start + size ∧
      s.CellByCell :=
  ⟨_, create_eq hroom, rfl, rfl, (lined_of_create hroom (create_eq hroom)).cellByCell⟩

/-- The region begins in the last row but one of the address space, and ends with its last
address but one. -/
theorem exists_create_cellByCell_top : 18446744073709551595 + 20 ≤ maxAddress ∧
    ∃ s, create 18446744073709551595 20 {} = .ok s ∧ s.stop = maxAddress ∧ s.CellByCell ∧
      s.rowCol 18446744073709551595 = (0, 11) ∧ s.rowCol 18446744073709551614 = (1, 14) := by
  have hroom : 18446744073709551595 + 20 ≤ maxAddress := by decide
  obtain ⟨s, hs, hstart, hstop, hcells⟩ := exists_create_cellByCell {} hroom
  refine ⟨hroom, s, hs, hstop, hcells, ?_, ?_⟩
  all_goals
    unfold rowCol alignedStart
    rw [hstart]
    rfl

end Sheet

end HexEditor
