import HexEditor.Plane.Outline
import HexEditor.Proofs.Plane.Coordinate

/-!
# What an outline surrounds

The addresses of a range are those of one, two or three blocks of cells (`rangeBlocks`): the end of
its first row, the whole rows in between, and the beginning of its last row.  Counted in cells, the
range is an interval, and each of its cells stands in one of the blocks only
(`countP_rangeBlocks`).  The rectangles of an outline are the images of these blocks
(`Sheet.exists_rangeRects`, `Sheet.depicts_blockRect`).

The lines around them are drawn through corners of which each shares a coordinate with the next one,
and the last with the first (`RangeRects.exists_corners`); between two rectangles that is so because
they end, or start, at the same column.  A point that is left out of a line equals the point before
it, or the first one, in both coordinates, so that this other point can take its place in the edges
that it had (`rectilinear_closedLine`).

All of this is equality of binary32 numbers, and so it takes that no coordinate is lost to what is
not a number.  For finite layouts none is (`Sheet.numbers_blockRect`), even where a sum of widths,
or the height of many rows, leaves the finite numbers.
-/

namespace HexEditor

/-! ## Closed lines -/

namespace Outline

/-- The two points share their horizontal or their vertical position: the edge between them is
upright or level. -/
def Aligned (p q : Point) : Prop := (p.x == q.x) = true ∨ (p.y == q.y) = true

/-- Every edge of the closed line, from its last point back to its first one included, is upright
or level. -/
def Rectilinear (line : List Point) : Prop := (line : Cycle Point).Chain Aligned

variable {a p q r : Point} {line corners l : List Point}

theorem beq_point_iff : (p == q) = true ↔ (p.x == q.x) = true ∧ (p.y == q.y) = true :=
  Bool.and_eq_true_iff

theorem aligned_of_x (hx : Number p.x) (h : p.x = q.x) : Aligned p q := .inl (h ▸ beq_self hx)

theorem aligned_of_y (hy : Number p.y) (h : p.y = q.y) : Aligned p q := .inr (h ▸ beq_self hy)

theorem Aligned.symm (h : Aligned p q) : Aligned q p := h.imp BEq.symm BEq.symm

theorem Aligned.of_beq_left (hpq : (p == q) = true) (h : Aligned q r) : Aligned p r := by
  obtain ⟨hx, hy⟩ := beq_point_iff.mp hpq
  exact h.imp (BEq.trans hx) (BEq.trans hy)

theorem Aligned.of_beq_right (hqr : (r == q) = true) (h : Aligned p q) : Aligned p r :=
  (h.symm.of_beq_left hqr).symm

/-- A point differs from the one before. -/
def Differ (p q : Point) : Prop := ¬ (p == q) = true

instance : DecidableRel Differ := fun p q => inferInstanceAs (Decidable (¬ (p == q) = true))

theorem foldl_dropRepeats (line : List Point) (a : Point) (l : List Point) :
    l.foldl (fun line p => if line.getLast? == some p then line else line ++ [p]) (line ++ [a]) =
      line ++ l.destutter' Differ a := by
  induction l generalizing line a with
  | nil => rfl
  | cons p l ih =>
      have hlast : ((line ++ [a]).getLast? == some p) = (a == p) := by
        rw [List.getLast?_concat]
        rfl
      rw [List.foldl_cons, hlast]
      by_cases h : (a == p) = true
      · rw [if_pos h, ih, List.destutter'_cons_neg _ (not_not_intro h)]
      · rw [if_neg h, ih, List.destutter'_cons_pos _ h, List.append_assoc]
        rfl

/-- Leaving out repeated points keeps what differs from the last point kept. -/
theorem dropRepeats_cons (a : Point) (l : List Point) :
    dropRepeats (a :: l) = l.destutter' Differ a := foldl_dropRepeats [] a l

theorem head?_destutter' (a : Point) (l : List Point) :
    (l.destutter' Differ a).head? = some a := by
  induction l with
  | nil => rfl
  | cons p l ih =>
      rw [List.destutter'_cons]
      split_ifs
      · rfl
      · exact ih

/-- The edges between the points that are kept, and from the last of them to any further point. -/
theorem isChain_destutter'_append (a z : Point) (l : List Point)
    (h : (a :: (l ++ [z])).IsChain Aligned) : (l.destutter' Differ a ++ [z]).IsChain Aligned := by
  induction l generalizing a with
  | nil => exact h
  | cons p l ih =>
      obtain ⟨hap, hrest⟩ := List.isChain_cons_cons.mp h
      by_cases heq : (a == p) = true
      · rw [List.destutter'_cons_neg _ (not_not_intro heq)]
        refine ih a (List.isChain_cons.mpr ⟨fun y hy => ?_, hrest.tail⟩)
        exact ((List.isChain_cons.mp hrest).1 y hy).of_beq_left heq
      · rw [List.destutter'_cons_pos _ heq, List.cons_append]
        refine List.isChain_cons.mpr ⟨fun y hy => ?_, ih p hrest⟩
        rw [List.head?_append, head?_destutter'] at hy
        cases hy
        exact hap

/-- A closed line has the first corner, and then those of the others that differ from the point
before; the last of these is left out if it equals the first corner. -/
theorem closedLine_cons_cases (a : Point) (l : List Point) :
    ∃ rest, l.destutter' Differ a = a :: rest ∧ (closedLine (a :: l) = a :: rest ∨
      ∃ init b, rest = init ++ [b] ∧ (a == b) = true ∧ closedLine (a :: l) = a :: init) := by
  have hhead := head?_destutter' a l
  have hclosed : closedLine (a :: l) =
      if 1 < (l.destutter' Differ a).length &&
        (l.destutter' Differ a).head? == (l.destutter' Differ a).getLast?
      then (l.destutter' Differ a).dropLast else l.destutter' Differ a := by
    rw [← dropRepeats_cons]
    rfl
  rw [hclosed]
  generalize l.destutter' Differ a = line at hhead ⊢
  obtain ⟨rest, rfl⟩ : ∃ rest, line = a :: rest := List.head?_eq_some_iff.mp hhead
  refine ⟨rest, rfl, ?_⟩
  obtain rfl | ⟨init, b, rfl⟩ := List.eq_nil_or_concat rest
  · exact .inl rfl
  · rw [List.concat_eq_append, ← List.cons_append, List.getLast?_concat, List.dropLast_concat]
    split_ifs with h
    · exact .inr ⟨init, b, rfl, (Bool.and_eq_true_iff.mp h).2, rfl⟩
    · exact .inl rfl

theorem closedLine_ne_nil (a : Point) (l : List Point) : closedLine (a :: l) ≠ [] := by
  obtain ⟨rest, -, hclosed | ⟨init, b, -, -, hclosed⟩⟩ := closedLine_cons_cases a l
  · rw [hclosed]
    exact List.cons_ne_nil _ _
  · rw [hclosed]
    exact List.cons_ne_nil _ _

/-- Leaving out repeated corners keeps a closed line upright and level. -/
theorem rectilinear_closedLine (h : Rectilinear corners) : Rectilinear (closedLine corners) := by
  cases corners with
  | nil => exact h
  | cons a l =>
      have hchain := isChain_destutter'_append a a l ((Cycle.chain_coe_cons ..).mp h)
      obtain ⟨rest, hrest, hclosed | ⟨init, b, rfl, hab, hclosed⟩⟩ := closedLine_cons_cases a l
      · rw [hclosed]
        rw [hrest] at hchain
        exact (Cycle.chain_coe_cons ..).mpr hchain
      · rw [hclosed]
        rw [hrest] at hchain
        -- The edge to the point that is left out becomes the one that closes the line.
        obtain ⟨hline, -⟩ := List.isChain_append.mp hchain
        rw [← List.cons_append] at hline
        obtain ⟨hinit, -, hlast⟩ := List.isChain_append.mp hline
        refine (Cycle.chain_coe_cons ..).mpr (List.isChain_append.mpr ⟨hinit, .singleton a, ?_⟩)
        intro p hp q hq
        cases hq
        exact (hlast p hp b rfl).of_beq_right hab

end Outline

/-! ## The lines around the rectangles -/

/-- All four sides of a rectangle are numbers. -/
structure Rect.HasNumbers (r : Rect) : Prop where
  left : Number r.min.x
  top : Number r.min.y
  right : Number r.max.x
  bottom : Number r.max.y

open Outline

theorem Rect.HasNumbers.rectilinear {r : Rect} (h : r.HasNumbers) :
    Rectilinear [r.leftTop, r.rightTop, r.rightBottom, r.leftBottom] := by
  refine (Cycle.chain_coe_cons ..).mpr ?_
  simp only [List.cons_append, List.nil_append, List.isChain_cons_cons, List.isChain_singleton,
    and_true]
  exact ⟨aligned_of_y h.top rfl, aligned_of_x h.right rfl, aligned_of_y h.bottom rfl,
    aligned_of_x h.left rfl⟩

namespace RangeRects

/-- Of three blocks, the middle one ends where the top one does, and starts where the bottom one
does. -/
def Flush : RangeRects → Prop
  | manyRows t m b => t.max.x = m.max.x ∧ m.min.x = b.min.x
  | _ => True

variable {rects : RangeRects} {apart : Bool} {line : List Point}

/-- Each line is drawn through corners that share a side of one of the rectangles with the next
corner. -/
theorem exists_corners (h : line ∈ rects.subpaths apart) :
    ∃ first others, line = Outline.closedLine (first :: others) ∧
      ((∀ r ∈ rects.toList, r.HasNumbers) → rects.Flush →
        Outline.Rectilinear (first :: others)) := by
  cases rects with
  | oneRow t =>
      obtain rfl := List.mem_singleton.mp h
      exact ⟨_, _, rfl, fun hnumbers _ => (hnumbers t (.head _)).rectilinear⟩
  | twoRows t b =>
      cases apart with
      | false =>
          obtain rfl := List.mem_singleton.mp h
          refine ⟨_, _, rfl, fun hnumbers _ => (Cycle.chain_coe_cons ..).mpr ?_⟩
          have ht := hnumbers t (.head _)
          have hb := hnumbers b (.tail _ (.head _))
          simp only [List.cons_append, List.nil_append, List.isChain_cons_cons,
            List.isChain_singleton, and_true]
          exact ⟨aligned_of_y ht.top rfl, aligned_of_x ht.right rfl, aligned_of_y ht.bottom rfl,
            aligned_of_x hb.right rfl, aligned_of_y hb.bottom rfl, aligned_of_x hb.left rfl,
            aligned_of_y hb.top rfl, aligned_of_x ht.left rfl⟩
      | true =>
          obtain rfl | h := List.mem_cons.mp h
          · exact ⟨_, _, rfl, fun hnumbers _ => (hnumbers t (.head _)).rectilinear⟩
          · obtain rfl := List.mem_singleton.mp h
            refine ⟨_, _, rfl, fun hnumbers _ => (Cycle.chain_coe_cons ..).mpr ?_⟩
            have hb := hnumbers b (.tail _ (.head _))
            simp only [List.cons_append, List.nil_append, List.isChain_cons_cons,
              List.isChain_singleton, and_true]
            exact ⟨aligned_of_y hb.top rfl, aligned_of_x hb.right rfl, aligned_of_y hb.bottom rfl,
              aligned_of_x hb.left rfl, aligned_of_x hb.left rfl⟩
  | manyRows t m b =>
      obtain rfl := List.mem_singleton.mp h
      refine ⟨_, _, rfl, fun hnumbers hflush => (Cycle.chain_coe_cons ..).mpr ?_⟩
      have ht := hnumbers t (.head _)
      have hm := hnumbers m (.tail _ (.head _))
      have hb := hnumbers b (.tail _ (.tail _ (.head _)))
      simp only [List.cons_append, List.nil_append, List.isChain_cons_cons, List.isChain_singleton,
        and_true]
      exact ⟨aligned_of_y ht.top rfl, aligned_of_x ht.right rfl, aligned_of_x ht.right hflush.1,
        aligned_of_y hm.bottom rfl, aligned_of_x hb.right rfl, aligned_of_y hb.bottom rfl,
        aligned_of_x hb.left rfl, aligned_of_x hb.left hflush.2.symm, aligned_of_y hm.top rfl,
        aligned_of_x ht.left rfl⟩

theorem ne_nil_of_mem_subpaths (h : line ∈ rects.subpaths apart) : line ≠ [] := by
  obtain ⟨first, others, rfl, -⟩ := exists_corners h
  exact closedLine_ne_nil first others

theorem rectilinear_of_mem_subpaths (h : line ∈ rects.subpaths apart)
    (hnumbers : ∀ r ∈ rects.toList, r.HasNumbers) (hflush : rects.Flush) : Rectilinear line := by
  obtain ⟨first, others, rfl, hcorners⟩ := exists_corners h
  exact rectilinear_closedLine (hcorners hnumbers hflush)

/-- Only two rows that stand apart are surrounded by a line each. -/
theorem length_subpaths : (rects.subpaths apart).length =
    if rects.toList.length = 2 ∧ apart = true then 2 else 1 := by
  cases rects with
  | oneRow t => rfl
  | twoRows t b => cases apart <;> rfl
  | manyRows t m b => rfl

end RangeRects

/-! ## Coordinates of blocks -/

/-- The widths and the height that an outline depends on are finite. -/
structure Layout.IsFinite (l : Layout) : Prop where
  rowHeight : l.rowHeight.isFinite = true
  sectionSpace : l.sectionSpace.isFinite = true
  addrOffset : l.addrOffset.isFinite = true
  addrWidth : l.addrWidth.isFinite = true
  byteWidth : l.byteWidth.isFinite = true
  byteSpace : l.byteSpace.isFinite = true
  byteGroupSpace : l.byteGroupSpace.isFinite = true
  asciiWidth : l.asciiWidth.isFinite = true
  asciiSpace : l.asciiSpace.isFinite = true

namespace Layout.IsFinite

variable {l : Layout}

theorem number_byteEdge (h : l.IsFinite) (i : Nat) : Number (l.byteEdge i) := by
  induction i with
  | zero =>
      exact number_add (number_add (number_of_isFinite h.addrOffset) h.addrWidth) h.sectionSpace
  | succ i ih =>
      refine number_add (number_add ih h.byteWidth) ?_
      split_ifs
      · exact h.byteGroupSpace
      · exact h.byteSpace

theorem number_asciiEdge (h : l.IsFinite) (i : Nat) : Number (l.asciiEdge i) := by
  induction i with
  | zero => exact number_add (h.number_byteEdge _) h.sectionSpace
  | succ i ih => exact number_add (number_add ih h.asciiWidth) h.asciiSpace

theorem number_edge (h : l.IsFinite) (pane : Pane) (i : Nat) : Number (l.edge pane i) := by
  cases pane with
  | bytes => exact h.number_byteEdge i
  | ascii => exact h.number_asciiEdge i

theorem slotWidth (h : l.IsFinite) (pane : Pane) : (l.slotWidth pane).isFinite = true := by
  cases pane with
  | bytes => exact h.byteWidth
  | ascii => exact h.asciiWidth

theorem slotSpace (h : l.IsFinite) (pane : Pane) : (l.slotSpace pane).isFinite = true := by
  cases pane with
  | bytes => exact h.byteSpace
  | ascii => exact h.asciiSpace

end Layout.IsFinite

namespace Sheet

variable {s : Sheet} {pane : Pane} {shrink : Float32}

theorem min_x_blockRect (s : Sheet) (pane : Pane) (b : CellBlock) (shrink : Float32) :
    ((s.blockRect pane b).shrink shrink).min.x =
      s.layout.edge pane b.firstCol - s.layout.slotSpace pane / 2 + shrink := rfl

theorem max_x_blockRect (s : Sheet) (pane : Pane) (b : CellBlock) (shrink : Float32) :
    ((s.blockRect pane b).shrink shrink).max.x =
      s.layout.edge pane b.lastCol + s.layout.slotWidth pane + s.layout.slotSpace pane / 2 -
        shrink := rfl

/-- A block begins at a multiple of the height of a row and is higher by a further one, so that
both have the same sign and their sum is a number. -/
theorem numbers_blockRect (hlayout : s.layout.IsFinite) (hshrink : shrink.isFinite = true)
    (pane : Pane) (b : CellBlock) : ((s.blockRect pane b).shrink shrink).HasNumbers := by
  obtain ⟨t, ht⟩ := number_iff.mp (number_of_isFinite hlayout.rowHeight)
  have hhalf := isFinite_half (hlayout.slotSpace pane)
  have htop : sign? (s.rowCorner b.firstRow).y = some t := by
    refine (sign?_mul (sign?_rowPixels _) ht (isFinite_rowPixels _) hlayout.rowHeight).trans ?_
    cases t <;> rfl
  have hheight : sign? (if b.rows = 1 then s.layout.rowHeight
      else s.layout.rowHeight * rowPixels b.rows) = some t := by
    split_ifs
    · exact ht
    · refine (sign?_mul ht (sign?_rowPixels _) hlayout.rowHeight (isFinite_rowPixels _)).trans ?_
      cases t <;> rfl
  exact {
    left := number_add (number_sub (hlayout.number_edge pane _) hhalf) hshrink
    top := number_add (number_iff.mpr ⟨t, htop⟩) hshrink
    right := number_sub
      (number_add (number_add (hlayout.number_edge pane _) (hlayout.slotWidth pane)) hhalf) hshrink
    bottom := number_sub (number_add_of_sign? htop hheight) hshrink }

end Sheet

/-! ## Blocks of a range -/

/-- A cell, by its row and its column, stands in the block. -/
def CellBlock.Holds (b : CellBlock) (cell : Nat × Nat) : Prop :=
  (b.firstRow ≤ cell.1 ∧ cell.1 < b.firstRow + b.rows) ∧ b.firstCol ≤ cell.2 ∧ cell.2 ≤ b.lastCol

instance (b : CellBlock) (cell : Nat × Nat) : Decidable (b.Holds cell) :=
  inferInstanceAs (Decidable (_ ∧ _))

/-- A block has at least one row, at least one column, and none beyond those of a sheet. -/
structure CellBlock.WellFormed (b : CellBlock) : Prop where
  rows_pos : 0 < b.rows
  firstCol_le : b.firstCol ≤ b.lastCol
  lastCol_lt : b.lastCol < bytesPerRow

/-- The number of cells before a cell. -/
def cellIndex (cell : Nat × Nat) : Nat := cell.1 * bytesPerRow + cell.2

/-- The blocks of the cells from `first` to `last`, by the number of their rows. -/
def rangeBlocks (first last : Nat × Nat) : List CellBlock :=
  match last.1 - first.1 with
  | 0 => [⟨first.1, 1, first.2, last.2⟩]
  | 1 => [⟨first.1, 1, first.2, bytesPerRow - 1⟩, ⟨last.1, 1, 0, last.2⟩]
  | between + 2 =>
    [⟨first.1, 1, first.2, bytesPerRow - 1⟩, ⟨first.1 + 1, between + 1, 0, bytesPerRow - 1⟩,
      ⟨last.1, 1, 0, last.2⟩]

section Blocks

variable {first last cell : Nat × Nat}

/-- The cells from `first` to `last` stand in one block each, and no other cell does. -/
theorem countP_rangeBlocks (hfirst : first.2 < bytesPerRow) (hlast : last.2 < bytesPerRow)
    (hcell : cell.2 < bytesPerRow) (hle : cellIndex first ≤ cellIndex last) :
    (rangeBlocks first last).countP (fun b => b.Holds cell) =
      if cellIndex first ≤ cellIndex cell ∧ cellIndex cell ≤ cellIndex last then 1 else 0 := by
  unfold cellIndex bytesPerRow at *
  unfold rangeBlocks bytesPerRow
  split <;> simp only [List.countP_cons, List.countP_nil, decide_eq_true_eq] <;>
    split_ifs <;> simp only [CellBlock.Holds] at * <;> omega

theorem wellFormed_of_mem_rangeBlocks (hfirst : first.2 < bytesPerRow)
    (hlast : last.2 < bytesPerRow) (hle : cellIndex first ≤ cellIndex last) {b : CellBlock}
    (hb : b ∈ rangeBlocks first last) : b.WellFormed := by
  unfold cellIndex bytesPerRow at *
  unfold rangeBlocks bytesPerRow at hb
  split at hb <;> simp only [List.mem_cons, List.not_mem_nil, or_false] at hb
  next hspan =>
    obtain rfl := hb
    exact ⟨Nat.one_pos, by dsimp only; omega, hlast⟩
  next hspan =>
    obtain rfl | rfl := hb
    · exact ⟨Nat.one_pos, Nat.le_pred_of_lt hfirst, Nat.lt_succ_self 15⟩
    · exact ⟨Nat.one_pos, Nat.zero_le _, hlast⟩
  next between hspan =>
    obtain rfl | rfl | rfl := hb
    · exact ⟨Nat.one_pos, Nat.le_pred_of_lt hfirst, Nat.lt_succ_self 15⟩
    · exact ⟨Nat.succ_pos between, Nat.zero_le _, Nat.lt_succ_self 15⟩
    · exact ⟨Nat.one_pos, Nat.zero_le _, hlast⟩

theorem length_rangeBlocks : (rangeBlocks first last).length = min (last.1 - first.1) 2 + 1 := by
  unfold rangeBlocks
  split <;> simp_all

end Blocks

namespace Sheet

variable {s : Sheet} {low high addr : Nat} {pane : Pane} {shrink : Float32}

theorem cellIndex_rowCol (s : Sheet) (addr : Nat) :
    cellIndex (s.rowCol addr) = addr - s.alignedStart := Nat.div_add_mod' ..

theorem col_rowCol_lt (s : Sheet) (addr : Nat) : (s.rowCol addr).2 < bytesPerRow :=
  Nat.mod_lt _ (by decide)

theorem rowCol_of_cell {cell : Nat × Nat} (hcell : cell.2 < bytesPerRow) :
    s.rowCol (s.alignedStart + cellIndex cell) = cell := by
  unfold rowCol cellIndex
  dsimp only
  rw [Nat.add_sub_cancel_left, Nat.mul_comm, Nat.mul_add_div (by decide), Nat.mul_add_mod,
    Nat.div_eq_of_lt hcell, Nat.mod_eq_of_lt hcell, Nat.add_zero]

theorem alignedStart_le (h : s.contains addr = true) : s.alignedStart ≤ addr :=
  (Nat.sub_le _ _).trans (of_decide_eq_true (Bool.and_eq_true_iff.mp h).1)

theorem cellIndex_mono (hle : low ≤ high) :
    cellIndex (s.rowCol low) ≤ cellIndex (s.rowCol high) := by
  rw [cellIndex_rowCol, cellIndex_rowCol]
  exact Nat.sub_le_sub_right hle _

/-- The cell of every address from `low` to `high` stands in one of their blocks. -/
theorem countP_holds_rowCol (hfrom : low ≤ addr) (hto : addr ≤ high) :
    (rangeBlocks (s.rowCol low) (s.rowCol high)).countP (fun b => b.Holds (s.rowCol addr)) = 1 :=
  (countP_rangeBlocks (s.col_rowCol_lt low) (s.col_rowCol_lt high) (s.col_rowCol_lt addr)
    (cellIndex_mono (hfrom.trans hto))).trans (if_pos ⟨cellIndex_mono hfrom, cellIndex_mono hto⟩)

/-- Only the cells of these addresses do. -/
theorem exists_addr_of_holds (hlow : s.alignedStart ≤ low) (hle : low ≤ high) {cell : Nat × Nat}
    (hcell : cell.2 < bytesPerRow) {b : CellBlock}
    (hb : b ∈ rangeBlocks (s.rowCol low) (s.rowCol high)) (hholds : b.Holds cell) :
    ∃ addr, low ≤ addr ∧ addr ≤ high ∧ s.rowCol addr = cell := by
  have hpos : 0 < (rangeBlocks (s.rowCol low) (s.rowCol high)).countP (fun b => b.Holds cell) :=
    List.countP_pos_iff.mpr ⟨b, hb, decide_eq_true hholds⟩
  rw [countP_rangeBlocks (s.col_rowCol_lt low) (s.col_rowCol_lt high) hcell
    (cellIndex_mono hle)] at hpos
  split_ifs at hpos with hbetween
  · rw [cellIndex_rowCol, cellIndex_rowCol] at hbetween
    exact ⟨s.alignedStart + cellIndex cell, by omega, by omega, rowCol_of_cell hcell⟩
  · omega

/-- The outline is drawn around the rectangles of the blocks of its range. -/
theorem exists_rangeRects (hle : low ≤ high) (hrows : 0 < s.rowCount) (pane : Pane)
    (shrink : Float32) :
    ∃ rects : RangeRects, rects.Flush ∧
      rects.toList = (rangeBlocks (s.rowCol low) (s.rowCol high)).map
        (fun b => (s.blockRect pane b).shrink shrink) ∧
      s.outline low high pane shrink =
        { subpaths := rects.subpaths ((s.rowCol high).2 < (s.rowCol low).2)
          rects := rects.toList } := by
  unfold outline rangeBlocks
  rw [if_neg (by omega)]
  generalize s.rowCol low = first
  generalize s.rowCol high = last
  obtain ⟨firstRow, firstCol⟩ := first
  obtain ⟨lastRow, lastCol⟩ := last
  dsimp only
  -- by the number of rows after the first one
  split
  next hspan =>
    rw [hspan]
    refine ⟨.oneRow _, ?_, ?_, rfl⟩
    · trivial
    · rfl
  next hspan =>
    rw [hspan]
    refine ⟨.twoRows _ _, ?_, ?_, rfl⟩
    · trivial
    · rfl
  next between hspan =>
    rw [hspan, if_neg (by omega), if_neg (by omega)]
    refine ⟨.manyRows _ _ _, ?_, ?_, rfl⟩
    · simp only [RangeRects.Flush, min_x_blockRect, max_x_blockRect, and_self]
    · rfl

/-- The rectangle is where the slots of a block are, half of the space on either side included, with
each side moved inwards. -/
structure Depicts (s : Sheet) (pane : Pane) (shrink : Float32) (b : CellBlock) (r : Rect) :
    Prop where
  left : r.min.x =
    (s.slotCorner b.firstRow b.firstCol pane).x - s.layout.slotSpace pane / 2 + shrink
  top : r.min.y = (s.slotCorner b.firstRow b.firstCol pane).y + shrink
  right : r.max.x = (s.slotCorner b.firstRow b.lastCol pane).x + s.layout.slotWidth pane +
    s.layout.slotSpace pane / 2 - shrink
  bottom : r.max.y = (s.slotCorner b.firstRow b.firstCol pane).y +
    (if b.rows = 1 then s.layout.rowHeight else s.layout.rowHeight * rowPixels b.rows) - shrink

theorem depicts_blockRect {b : CellBlock} (hb : b.WellFormed) :
    s.Depicts pane shrink b ((s.blockRect pane b).shrink shrink) := by
  have hfirst : b.firstCol % bytesPerRow = b.firstCol :=
    Nat.mod_eq_of_lt (hb.firstCol_le.trans_lt hb.lastCol_lt)
  have hlast : b.lastCol % bytesPerRow = b.lastCol := Nat.mod_eq_of_lt hb.lastCol_lt
  exact {
    left := by rw [min_x_blockRect, slotCorner, hfirst]
    top := rfl
    right := by rw [max_x_blockRect, slotCorner, hlast]
    bottom := rfl }

/-- The outline of the addresses from `low` to `high`: its rectangles depict `blocks`, which these
addresses make up, and its lines surround them. -/
structure Outlines (s : Sheet) (low high : Nat) (pane : Pane) (shrink : Float32)
    (blocks : List CellBlock) (o : Outline) : Prop where
  length_pos : 1 ≤ blocks.length
  length_le : blocks.length ≤ 3
  wellFormed : ∀ b ∈ blocks, b.WellFormed
  depicts : List.Forall₂ (s.Depicts pane shrink) blocks o.rects
  /-- Every address stands in exactly one block. -/
  holds_one : ∀ addr, low ≤ addr → addr ≤ high →
    blocks.countP (fun b => b.Holds (s.rowCol addr)) = 1
  /-- No other cell stands in any block. -/
  holds_only : ∀ cell : Nat × Nat, cell.2 < bytesPerRow → ∀ b ∈ blocks, b.Holds cell →
    ∃ addr, low ≤ addr ∧ addr ≤ high ∧ s.rowCol addr = cell
  length_subpaths : o.subpaths.length =
    if (s.rowCol high).1 = (s.rowCol low).1 + 1 ∧ (s.rowCol high).2 < (s.rowCol low).2
      then 2 else 1
  ne_nil : ∀ line ∈ o.subpaths, line ≠ []
  rectilinear : s.layout.IsFinite → shrink.isFinite = true →
    ∀ line ∈ o.subpaths, Outline.Rectilinear line

/-- Every outline of a range that begins in the region is that of its addresses. -/
theorem outlines_outline (hrows : 0 < s.rowCount) (hlow : s.contains low = true)
    (hle : low ≤ high) (pane : Pane) (shrink : Float32) :
    ∃ blocks, s.Outlines low high pane shrink blocks (s.outline low high pane shrink) := by
  have hwellFormed : ∀ b ∈ rangeBlocks (s.rowCol low) (s.rowCol high), b.WellFormed := fun b hb =>
    wellFormed_of_mem_rangeBlocks (s.col_rowCol_lt _) (s.col_rowCol_lt _) (cellIndex_mono hle) hb
  obtain ⟨rects, hflush, hrects, houtline⟩ := exists_rangeRects hle hrows pane shrink
  rw [houtline]
  refine ⟨rangeBlocks (s.rowCol low) (s.rowCol high), ?_⟩
  exact {
    length_pos := by rw [length_rangeBlocks]; omega
    length_le := by rw [length_rangeBlocks]; omega
    wellFormed := hwellFormed
    depicts := by
      rw [hrects, List.forall₂_map_right_iff, List.forall₂_same]
      exact fun b hb => depicts_blockRect (hwellFormed b hb)
    holds_one := fun addr => countP_holds_rowCol
    holds_only := fun cell hcell b => exists_addr_of_holds (alignedStart_le hlow) hle hcell
    length_subpaths := by
      have htwo : min ((s.rowCol high).1 - (s.rowCol low).1) 2 + 1 = 2 ↔
          (s.rowCol high).1 = (s.rowCol low).1 + 1 := by omega
      rw [RangeRects.length_subpaths, hrects, List.length_map, length_rangeBlocks]
      simp only [htwo, decide_eq_true_eq]
    ne_nil := fun line => RangeRects.ne_nil_of_mem_subpaths
    rectilinear := by
      intro hlayout hshrink line hline
      refine RangeRects.rectilinear_of_mem_subpaths hline (fun r hr => ?_) hflush
      rw [hrects] at hr
      obtain ⟨b, -, rfl⟩ := List.mem_map.mp hr
      exact numbers_blockRect hlayout hshrink pane b }

/-- Two rows in the layout for glyphs of seven by fourteen pixels. -/
def twoRowed : Sheet where
  start := 0x12
  stop := 0x30
  rowCount := 2
  layout := {
    charWidth := 7, rowPadding := 3, rowHeight := 17, sectionSpace := 28, addrOffset := 7
    addrWidth := 56, byteWidth := 14, byteSpace := 7, byteGroupSpace := 14, asciiWidth := 7
    asciiSpace := 0 }

theorem isFinite_layout_twoRowed : twoRowed.layout.IsFinite :=
  ⟨rfl, rfl, rfl, rfl, rfl, rfl, rfl, rfl, rfl⟩

/-- From the end of the first row to the beginning of the second, two rectangles stand apart. -/
theorem outlines_outline_twoRowed :
    0 < twoRowed.rowCount ∧ twoRowed.contains 0x1E = true ∧ 0x1E ≤ 0x22 ∧
      (∃ blocks,
        twoRowed.Outlines 0x1E 0x22 .bytes 1 blocks (twoRowed.outline 0x1E 0x22 .bytes 1)) ∧
      (twoRowed.outline 0x1E 0x22 .bytes 1).subpaths.length = 2 ∧
      ∀ line ∈ (twoRowed.outline 0x1E 0x22 .bytes 1).subpaths, Outline.Rectilinear line := by
  have hrows : 0 < twoRowed.rowCount := by decide
  have hlow : twoRowed.contains 0x1E = true := by decide
  obtain ⟨blocks, h⟩ := outlines_outline hrows hlow (by decide : 0x1E ≤ 0x22) .bytes 1
  refine ⟨hrows, hlow, by decide, ⟨blocks, h⟩, ?_, h.rectilinear isFinite_layout_twoRowed rfl⟩
  exact h.length_subpaths.trans (if_pos (by decide))

end Sheet

end HexEditor
