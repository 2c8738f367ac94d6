import HexEditor.Proofs.Grid.Consistency
import HexEditor.Proofs.Grid.Listeners

/-!
# What a refusal leaves behind

A grid that is asked to move may answer that it does not: the address is outside the region, or the
pointer is on no cell, or nothing is held down that could be dragged.  Such an answer should leave
everything as it was.

That holds of every such command but one.  A press and a drag ask where the pointer is before they
prepare a selection, and the cell that they find is in the region, so that the move which follows is
taken (`inBounds_of_hit`).  A move by a distance prepares the selection first, and the preparation
stays when there is no address to go to.  `rejected_untouched_iff` says when this can be seen: it
cannot when the move extends a selection that is already there, or does not extend and there is
none.
-/

namespace HexEditor

theorem Cursor.inBounds_iff {c : Cursor} {addr : Nat} :
    c.inBounds addr = true ↔ c.start ≤ addr ∧ addr < c.stop := by
  simp [inBounds]

/-- The cell at a point is in the region. -/
theorem Sheet.contains_of_hit {sheet : Sheet} {p : Point} {addr : Nat} {pane : Pane}
    (h : sheet.hit? p = .ok (some (addr, pane))) : sheet.contains addr = true := by
  unfold hit? at h
  split at h
  · obtain ⟨found, -, hret⟩ := Checked.bind_eq_ok_iff.1 h
    have hhit := Except.ok.inj hret
    split at hhit
    · next hcontains =>
        obtain ⟨rfl, -⟩ := Prod.mk.inj (Option.some.inj hhit)
        exact hcontains
    · cases hhit
  · cases Except.ok.inj h

namespace Grid

/-- The second grid looks like the first one: the cursor, the selection, the pointer and the painted
regions, marks included, are the same. -/
structure Untouched (g g' : Grid) : Prop where
  position : g'.cursor.position = g.cursor.position
  selection : g'.cursor.selection? = g.cursor.selection?
  pressed : g'.pressed = g.pressed
  painted : g'.overlay.painted = g.overlay.painted

variable {g : Grid}

theorem Untouched.refl (g : Grid) : g.Untouched g := ⟨rfl, rfl, rfl, rfl⟩

/-- The cursor reaches every cell of the region. -/
theorem Orderly.inBounds_of_hit (h : g.Orderly) {p : Point} {addr : Nat} {pane : Pane}
    (hhit : g.sheet.hit? p = .ok (some (addr, pane))) : g.cursor.inBounds addr = true := by
  rw [Cursor.inBounds_iff, h.bounds.1, h.bounds.2]
  exact Sheet.contains_iff.1 (Sheet.contains_of_hit hhit)

/-! ## The preparation of a move -/

/-- A move that extends keeps the anchor, or sets it where the cursor is; any other drops it. -/
theorem anchorFor_cursor (g : Grid) (extend : Bool) :
    (g.anchorFor extend).cursor =
      { g.cursor with
        anchor := if extend then some (g.cursor.anchor.getD g.cursor.addr) else none } := by
  obtain ⟨sheet, metrics, ⟨start, stop, addr, nibble, anchor, pane, moving⟩, overlay, blink, source,
    listeners, pressed, focused⟩ := g
  cases extend with
  | false => rfl
  | true => cases anchor <;> rfl

/-- If anything is prepared, it is the cursor, and the regions are marked for it. -/
theorem anchorFor_eq (g : Grid) (extend : Bool) : g.anchorFor extend = g ∨
    g.anchorFor extend = { g with cursor := (g.anchorFor extend).cursor }.updateActive := by
  unfold anchorFor
  split
  · split
    · exact .inl rfl
    · exact .inr rfl
  · exact .inr rfl

theorem anchorFor_frame (g : Grid) (extend : Bool) :
    (g.anchorFor extend).sheet = g.sheet ∧ (g.anchorFor extend).pressed = g.pressed ∧
      (g.anchorFor extend).listeners = g.listeners := by
  rcases g.anchorFor_eq extend with hsame | hmarked
  · rw [hsame]
    exact ⟨rfl, rfl, rfl⟩
  · rw [hmarked]
    exact ⟨rfl, rfl, rfl⟩

/-- Marking the regions of an orderly grid again changes nothing. -/
theorem Orderly.updateActive_painted (h : g.Orderly) :
    g.updateActive.overlay.painted = g.overlay.painted :=
  (Overlay.Marked.remark h.painted g.cursor.span).trans h.painted.symm

/-- The preparation is seen unless the selection is already as the move wants it. -/
theorem Orderly.untouched_anchorFor_iff (h : g.Orderly) (extend : Bool) :
    g.Untouched (g.anchorFor extend) ↔ g.cursor.isSelecting = extend := by
  have hcursor := g.anchorFor_cursor extend
  constructor
  · intro huntouched
    have hselection := congrArg Option.isSome huntouched.selection
    rw [hcursor] at hselection
    simp only [Cursor.selection?, Option.isSome_map] at hselection
    rw [Cursor.isSelecting, ← hselection]
    cases extend <;> rfl
  · rintro rfl
    have hanchor : (g.anchorFor g.cursor.isSelecting).cursor = g.cursor := by
      rw [hcursor]
      obtain ⟨start, stop, addr, nibble, anchor, pane, moving⟩ := g.cursor
      cases anchor <;> rfl
    rcases g.anchorFor_eq g.cursor.isSelecting with hsame | hmarked
    · rw [hsame]
      exact .refl g
    · rw [hanchor] at hmarked
      rw [hmarked]
      exact ⟨rfl, rfl, rfl, h.updateActive_painted⟩

/-- A grid on sixteen cells, on which nothing is painted. -/
def sixteenCells (addr : Nat) (anchor : Option Nat) : Grid :=
  { create {} with
    sheet := { start := 0, stop := 16, rowCount := 1, layout := .ofMetrics {} }
    cursor := { stop := 16, addr, anchor } }

theorem sixteenCells_consistent {addr : Nat} {anchor : Option Nat} (haddr : addr < 16)
    (hanchor : ∀ a ∈ anchor, a < 16) : (sixteenCells addr anchor).Consistent where
  bounds := ⟨rfl, rfl⟩
  cursor_mem _ := decide_eq_true haddr
  anchor_mem _ a ha := decide_eq_true (hanchor a ha)
  painted := rfl
  running := rfl
  shown := rfl
  still := rfl

end Grid

namespace Scene

variable {notify : Notify} {s t : Scene} {c : Command}

/-- A move that is refused changes nothing. -/
theorem eq_of_refused {addr : Nat} {pane : Option Pane} {nibble : Option Nibble}
    (h : s.setCursorWith notify addr pane nibble = .ok (false, t)) : t = s := by
  cases placed h with
  | refused => rfl

/-- A move that is possible is taken. -/
theorem ne_refused {addr : Nat} {pane : Option Pane} {nibble : Option Nibble}
    (hin : s.grid.cursor.inBounds addr = true) (hstill : s.grid.cursor.moving = false) :
    s.setCursorWith notify addr pane nibble ≠ .ok (false, t) := by
  intro h
  cases placed h with
  | refused hrefused =>
      rcases hrefused with hout | hmoving
      · rw [hin] at hout
        cases hout
      · rw [hstill] at hmoving
        cases hmoving

/-- A cell of the region is reached, whatever has been prepared. -/
theorem hit_ne_refused (h : s.grid.Consistent) {p : Point} {addr : Nat} {pane : Pane}
    (hhit : s.grid.sheet.hit? p = .ok (some (addr, pane))) {g : Grid}
    (hcursor : g.cursor.start = s.grid.cursor.start ∧ g.cursor.stop = s.grid.cursor.stop ∧
      g.cursor.moving = s.grid.cursor.moving) :
    ({ s with grid := g }).setCursorWith notify addr (some pane) none ≠ .ok (false, t) := by
  obtain ⟨hstart, hstop, hmoving⟩ := hcursor
  refine ne_refused ?_ (hmoving.trans h.still)
  rw [Cursor.inBounds_iff, hstart, hstop]
  exact Cursor.inBounds_iff.1 (h.toOrderly.inBounds_of_hit hhit)

/-- A command that is refused leaves the scene alone, except for the preparation of a move by a
distance. -/
theorem rejected_eq (h : s.grid.Consistent) (hasks : c.asksToMove = true)
    (hc : s.perform c = .ok (.flag false, t)) :
    (∃ delta extend, c = .moveBy delta extend ∧ t = s.mapGrid (·.anchorFor extend)) ∨
      (∀ delta extend, c ≠ .moveBy delta extend) ∧ t = s := by
  have hflag : ∀ {x : Checked (Bool × Scene)}, performWith.flag x = .ok (.flag false, t) →
      x = .ok (false, t) := by
    intro x hx
    obtain ⟨⟨b, u⟩, hb, hret⟩ := Checked.bind_eq_ok_iff.1 hx
    cases Except.ok.inj hret
    exact hb
  cases c with
  | setCursor addr pane nibble => exact .inr ⟨nofun, eq_of_refused (hflag hc)⟩
  | moveBy delta extend =>
      have hmove := hflag hc
      refine .inl ⟨delta, extend, rfl, ?_⟩
      unfold moveByWith at hmove
      dsimp only at hmove
      split at hmove
      · exact eq_of_refused hmove
      · exact (Prod.mk.inj (Except.ok.inj hmove)).2.symm
  | press p extend =>
      refine .inr ⟨nofun, ?_⟩
      obtain ⟨hit, hhit, hmove⟩ := Checked.bind_eq_ok_iff.1 (hflag hc)
      cases hit with
      | none => exact (Prod.mk.inj (Except.ok.inj hmove)).2.symm
      | some target =>
          refine absurd hmove (hit_ne_refused h hhit ?_)
          rw [Grid.anchorFor_cursor]
          exact ⟨rfl, rfl, rfl⟩
  | drag p =>
      refine .inr ⟨nofun, ?_⟩
      have hmove := hflag hc
      unfold dragWith at hmove
      split at hmove
      · exact (Prod.mk.inj (Except.ok.inj hmove)).2.symm
      · obtain ⟨hit, hhit, hmove⟩ := Checked.bind_eq_ok_iff.1 hmove
        cases hit with
        | none => exact (Prod.mk.inj (Except.ok.inj hmove)).2.symm
        | some target =>
            refine absurd hmove (hit_ne_refused h hhit ?_)
            rw [Grid.anchorFor_cursor]
            exact ⟨rfl, rfl, rfl⟩
  | _ => cases hasks

/-- A command that is refused never moves the cursor or the pointer, and it cannot be noticed at all
unless it would have started or ended a selection on a move by a distance. -/
theorem rejected_untouched_iff (h : s.grid.Consistent) (hasks : c.asksToMove = true)
    (hc : s.perform c = .ok (.flag false, t)) :
    (t.grid.cursor.position = s.grid.cursor.position ∧ t.grid.pressed = s.grid.pressed) ∧
      (s.grid.Untouched t.grid ↔
        ∀ delta extend, c = .moveBy delta extend → s.grid.cursor.isSelecting = extend) := by
  rcases rejected_eq h hasks hc with ⟨delta, extend, rfl, rfl⟩ | ⟨hother, rfl⟩
  · have hposition : (s.grid.anchorFor extend).cursor.position = s.grid.cursor.position := by
      rw [Grid.anchorFor_cursor]
      rfl
    have hpressed := (s.grid.anchorFor_frame extend).2.1
    refine ⟨⟨hposition, hpressed⟩, (h.untouched_anchorFor_iff extend).trans ⟨?_, ?_⟩⟩
    · intro hselecting _ _ hmove
      obtain ⟨-, rfl⟩ := Command.moveBy.inj hmove
      exact hselecting
    · exact fun hall => hall delta extend rfl
  · exact ⟨⟨rfl, rfl⟩, fun _ delta extend hmove => absurd hmove (hother delta extend),
      fun _ => .refl _⟩

/-- A refused move that extends the selection leaves it as it is. -/
theorem rejected_untouched_iff_extending :
    let s : Scene := { grid := .sixteenCells 2 (some 0) }
    ∃ t, s.perform (.moveBy (-5) true) = .ok (.flag false, t) ∧ s.grid.Untouched t.grid := by
  intro s
  have hconsistent : s.grid.Consistent := Grid.sixteenCells_consistent (by decide) (by decide)
  refine ⟨_, rfl, ?_⟩
  refine (rejected_untouched_iff (c := .moveBy (-5) true) hconsistent rfl rfl).2.2 ?_
  rintro _ _ ⟨⟩
  rfl

/-- A refused move that does not extend drops the selection. -/
theorem not_rejected_untouched :
    ¬ ∀ {s t : Scene} {c : Command}, s.grid.Consistent → c.asksToMove = true →
      s.perform c = .ok (.flag false, t) → s.grid.Untouched t.grid := by
  intro hall
  have hconsistent : (Grid.sixteenCells 2 (some 0)).Consistent :=
    Grid.sixteenCells_consistent (by decide) (by decide)
  have huntouched := hall (s := { grid := .sixteenCells 2 (some 0) }) (c := .moveBy (-5) false)
    hconsistent rfl rfl
  cases huntouched.selection

end Scene

end HexEditor
