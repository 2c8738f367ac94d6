import HexEditor.Proofs.Grid.Answering
import HexEditor.Proofs.Grid.Refusal

/-!
# What a double click selects

A double click looks for the painted region that starts nearest to the cursor (`Overlay.Nearest`).
It goes to the last address of that region, sets the anchor there, and goes to the first one.

Neither move asks whether it was taken.  A region may reach beyond the one that the grid shows, or
start before it, and then the move is refused and the cursor stays where it is: the selection ends
at the old cursor, or it is a single byte.  `doubleClick_selects_iff` says what is selected in each
case, and when that is all of the region that the grid shows.

The region is looked for before the first move, so that it makes no difference that a listener may
paint other regions while it is called.
-/

namespace HexEditor

/-- A sorted list begins with the least element of the list, and with the first one of several. -/
theorem head?_mergeSort {α : Type} (le : α → α → Bool)
    (htrans : ∀ a b c, le a b → le b c → le a c) (htotal : ∀ a b, le a b || le b a) {l : List α}
    {a : α} (h : (l.mergeSort le).head? = some a) :
    ∃ before after, l = before ++ a :: after ∧ (∀ b ∈ before, le b a = false) ∧
      ∀ b ∈ after, le a b = true := by
  induction l with
  | nil =>
      rw [List.mergeSort_nil] at h
      cases h
  | cons b rest ih =>
      obtain ⟨lower, upper, hsorted, hrest, hlower⟩ := List.mergeSort_cons htrans htotal b rest
      rw [hsorted] at h
      cases lower with
      | nil =>
          obtain rfl := Option.some.inj h
          refine ⟨[], rest, rfl, nofun, ?_⟩
          have hpairwise := List.pairwise_mergeSort htrans htotal (b :: rest)
          rw [hsorted] at hpairwise
          intro c hc
          have hmem : c ∈ upper := by
            have hsorted_mem : c ∈ rest.mergeSort le := List.mem_mergeSort.2 hc
            rw [hrest] at hsorted_mem
            exact hsorted_mem
          exact List.rel_of_pairwise_cons hpairwise hmem
      | cons c lower =>
          obtain rfl := Option.some.inj h
          rw [hrest] at ih
          obtain ⟨before, after, rfl, hbefore, hafter⟩ := ih rfl
          refine ⟨b :: before, after, rfl, ?_, hafter⟩
          intro d hd
          rcases List.mem_cons.1 hd with rfl | hd
          · simpa using hlower c List.mem_cons_self
          · exact hbefore d hd

theorem Region.contains_iff {r : Region} {addr : Nat} :
    r.contains addr = true ↔ r.addr ≤ addr ∧ addr ≤ r.last := by
  simp [contains]

/-- Of the painted regions that hold `addr`, the region starts nearest to it, and it is the first
one that does. -/
structure Overlay.Nearest (o : Overlay) (addr : Nat) (r : Region) : Prop where
  contains : r.contains addr = true
  first : ∃ before after, o.painted = before ++ r :: after ∧
    (∀ q ∈ before, q.contains addr = true → q.addr < r.addr) ∧
    ∀ q ∈ after, q.contains addr = true → q.addr ≤ r.addr

namespace Overlay

variable {o : Overlay} {addr : Nat} {r : Region}

theorem Nearest.mem (h : o.Nearest addr r) : r ∈ o.painted := by
  obtain ⟨before, after, hpainted, -, -⟩ := h.first
  rw [hpainted]
  exact List.mem_append_right before List.mem_cons_self

theorem nearest_of_head? (h : (o.under addr).head? = some r) : o.Nearest addr r := by
  obtain ⟨before, after, hfilter, hbefore, hafter⟩ := head?_mergeSort
    (fun q r : Region => decide (addr - q.addr ≤ addr - r.addr))
    (by intro a b c; simp only [decide_eq_true_eq]; exact Nat.le_trans)
    (by intro a b; simp only [Bool.or_eq_true, decide_eq_true_eq]; exact Nat.le_total _ _) h
  obtain ⟨front, back, hpainted, hfront, hback⟩ := List.filter_eq_append_iff.1 hfilter
  obtain ⟨skipped, rest, rfl, hskipped, hcontains, hrest⟩ := List.filter_eq_cons_iff.1 hback
  have hstart := (Region.contains_iff.1 hcontains).1
  refine ⟨hcontains, front ++ skipped, rest, ?_, ?_, ?_⟩
  · rw [hpainted, List.append_assoc]
  · intro q hq hin
    rcases List.mem_append.1 hq with hq | hq
    · have hlater := hbefore q (hfront ▸ List.mem_filter.2 ⟨hq, hin⟩)
      rw [decide_eq_false_iff_not] at hlater
      have hq_start := (Region.contains_iff.1 hin).1
      omega
    · exact absurd hin (hskipped q hq)
  · intro q hq hin
    have hlater := hafter q (hrest ▸ List.mem_filter.2 ⟨hq, hin⟩)
    rw [decide_eq_true_eq] at hlater
    have hq_start := (Region.contains_iff.1 hin).1
    omega

/-- Where a painted region holds `addr`, one starts nearest. -/
theorem exists_head?_under (h : ∃ q ∈ o.painted, q.contains addr = true) :
    ∃ r, (o.under addr).head? = some r := by
  obtain ⟨q, hq, hin⟩ := h
  have hmem : q ∈ o.under addr := List.mem_mergeSort.2 (List.mem_filter.2 ⟨hq, hin⟩)
  exact ⟨_, List.head?_eq_some_head (List.ne_nil_of_mem hmem)⟩

end Overlay

/-- What a selection is made of: the bounds, the address of the cursor, and the anchor. -/
def Cursor.stretch (c : Cursor) : Nat × Nat × Nat × Option Nat :=
  (c.start, c.stop, c.addr, c.anchor)

/-- The listener answers when it is called, and leaves the selection as it is. -/
def Listener.SparesSelection (l : Listener) (u : Scene) : Prop :=
  ∃ v, u.call l = .ok v ∧ v.grid.cursor.stretch = u.grid.cursor.stretch

namespace Grid

section Reach

variable {g : Grid} {r : Region}

/-- The cursor reaches the end of a region that holds it unless the region reaches beyond the one
that is shown. -/
theorem Orderly.inBounds_last_iff (h : g.Orderly) (hregion : g.sheet.start < g.sheet.stop)
    (hin : r.contains g.cursor.addr = true) :
    g.cursor.inBounds r.last = true ↔ r.last < g.sheet.stop := by
  have hshown := Sheet.contains_iff.1 (h.cursor_mem hregion)
  have hheld := Region.contains_iff.1 hin
  rw [Cursor.inBounds_iff, h.bounds.1, h.bounds.2]
  omega

/-- It reaches the start unless the region starts before the one that is shown. -/
theorem Orderly.inBounds_addr_iff (h : g.Orderly) (hregion : g.sheet.start < g.sheet.stop)
    (hin : r.contains g.cursor.addr = true) :
    g.cursor.inBounds r.addr = true ↔ g.sheet.start ≤ r.addr := by
  have hshown := Sheet.contains_iff.1 (h.cursor_mem hregion)
  have hheld := Region.contains_iff.1 hin
  rw [Cursor.inBounds_iff, h.bounds.1, h.bounds.2]
  omega

end Reach

/-- The last address that a double click on a region selects: that of the region, or the cursor
where the region reaches beyond the one shown. -/
def clickedLast (g : Grid) (r : Region) : Nat :=
  if r.last < g.sheet.stop then r.last else g.cursor.addr

/-- The first address that a double click on a region selects: that of the region, or the last one
where the region starts before the one shown. -/
def clickedFirst (g : Grid) (r : Region) : Nat :=
  if g.sheet.start ≤ r.addr then r.addr else g.clickedLast r

theorem clickedFirst_le_clickedLast (g : Grid) {r : Region}
    (hin : r.contains g.cursor.addr = true) : g.clickedFirst r ≤ g.clickedLast r := by
  have hcursor := Region.contains_iff.1 hin
  unfold clickedFirst clickedLast
  split <;> split <;> omega

end Grid

namespace Scene

variable {s t : Scene}

/-- The selection is what a grid shows of a region, and the cursor is on the first address of it. -/
def SelectsWhole (s : Scene) (r : Region) (t : Scene) : Prop :=
  ∃ selection, t.grid.cursor.selection? = some selection ∧
    (∀ a, a ∈ selection ↔ r.contains a = true ∧ s.grid.sheet.contains a = true) ∧
    t.grid.cursor.addr = selection.first

/-- The listener `l` is called in the scene `u` by one of the two moves of a double click on a
region. -/
inductive CalledByDoubleClick (s : Scene) (r : Region) (l : Listener) (u : Scene) : Prop
  | toLast (h : (s.mapGrid (·.clearSelection)).CalledByMove r.last none none l u)
  | toFirst {b : Bool} {t : Scene}
      (hlast : (s.mapGrid (·.clearSelection)).setCursor r.last none none = .ok (b, t))
      (h : (t.mapGrid (·.beginSelection)).CalledByMove r.addr none none l u)

/-- A move within a double click answers, and ends at its address if that is one of the region. -/
theorem exists_setCursor_stretch {addr : Nat} (hstill : s.grid.cursor.moving = false)
    (hcalls : ∀ l u, s.CalledByMove addr none none l u → l.SparesSelection u) :
    ∃ t, s.setCursor addr none none = .ok (s.grid.cursor.inBounds addr, t) ∧
      t.grid.cursor.moving = false ∧
      t.grid.cursor.stretch = (s.grid.cursor.start, s.grid.cursor.stop,
        if s.grid.cursor.inBounds addr then addr else s.grid.cursor.addr,
        s.grid.cursor.anchor) := by
  let stretch := (s.grid.cursor.start, s.grid.cursor.stop, addr, s.grid.cursor.anchor)
  have hcall : ∀ l u, s.CalledByMove addr none none l u → u.grid.cursor.stretch = stretch →
      ∃ v, u.call l = .ok v ∧ v.grid.cursor.stretch = stretch := by
    intro l u hl hu
    obtain ⟨v, hv, hsame⟩ := hcalls l u hl
    exact ⟨v, hv, hsame.trans hu⟩
  obtain ⟨t, ht, hend⟩ := exists_setCursor addr none none hstill hcall rfl rfl fun _ hu => hu
  have hmoving : t.grid.cursor.moving = s.grid.cursor.moving := Step.moving (.setCursor ht)
  refine ⟨t, ht, hmoving.trans hstill, ?_⟩
  split at hend
  · next htaken =>
      rw [if_pos htaken]
      exact hend
  · next hrefused =>
      rw [if_neg hrefused, hend]
      rfl

/-- A double click on a region that holds the cursor is taken, and its two moves leave the anchor
and the cursor behind. -/
theorem exists_doubleClick (h : s.grid.Consistent)
    (hregion : s.grid.sheet.start < s.grid.sheet.stop) {r : Region}
    (hhead : s.grid.regionsUnder.head? = some r)
    (hin : r.contains s.grid.cursor.addr = true)
    (hcalls : ∀ l u, s.CalledByDoubleClick r l u → l.SparesSelection u) :
    ∃ t, s.doubleClick = .ok (true, t) ∧
      t.grid.cursor.selection? = some ⟨s.grid.clickedFirst r, s.grid.clickedLast r⟩ ∧
      t.grid.cursor.addr = s.grid.clickedFirst r := by
  have hle := s.grid.clickedFirst_le_clickedLast hin
  obtain ⟨t, hlast, hstill, hstretch⟩ :=
    exists_setCursor_stretch (s := s.mapGrid (·.clearSelection)) h.still fun l u hl =>
      hcalls l u (.toLast hl)
  obtain ⟨u, hfirst, -, hend⟩ :=
    exists_setCursor_stretch (s := t.mapGrid (·.beginSelection)) hstill fun l u hl =>
      hcalls l u (.toFirst hlast hl)
  have hclick : s.doubleClick = .ok (true, u) := by
    unfold doubleClick doubleClickWith
    rw [hhead]
    dsimp only
    rw [← setCursor, hlast, Checked.ok_bind]
    dsimp only
    rw [← setCursor, hfirst]
    rfl
  simp only [Cursor.stretch, Prod.mk.injEq] at hstretch hend
  obtain ⟨hstart, hstop, haddr, -⟩ := hstretch
  obtain ⟨-, -, hlanded, hanchor⟩ := hend
  have hlast_eq : t.grid.cursor.addr = s.grid.clickedLast r :=
    calc t.grid.cursor.addr
      _ = if s.grid.cursor.inBounds r.last then r.last else s.grid.cursor.addr := haddr
      _ = s.grid.clickedLast r := if_congr (h.inBounds_last_iff hregion hin) rfl rfl
  have hbounds : (t.mapGrid (·.beginSelection)).grid.cursor.inBounds r.addr =
      s.grid.cursor.inBounds r.addr := by
    show (t.grid.cursor.start ≤ r.addr && r.addr < t.grid.cursor.stop : Bool) = _
    rw [hstart, hstop]
    rfl
  have hfirst_eq : u.grid.cursor.addr = s.grid.clickedFirst r :=
    calc u.grid.cursor.addr
      _ = if s.grid.cursor.inBounds r.addr then r.addr else t.grid.cursor.addr :=
          hlanded.trans (by rw [hbounds]; rfl)
      _ = s.grid.clickedFirst r := if_congr (h.inBounds_addr_iff hregion hin) rfl hlast_eq
  have hanchor_eq : u.grid.cursor.anchor = some (s.grid.clickedLast r) :=
    hanchor.trans (congrArg some hlast_eq)
  refine ⟨u, hclick, ?_, hfirst_eq⟩
  rw [Cursor.selection?, hanchor_eq, Option.map_some, hfirst_eq, Span.hull, Nat.min_eq_right hle,
    Nat.max_eq_left hle]

/-- A double click selects all that the grid shows of a region, unless the region reaches beyond the
end of what is shown and the cursor is not there yet, or the region starts before what is shown and
more than one address of it is shown. -/
theorem selectsWhole_iff (h : s.grid.Consistent) (hregion : s.grid.sheet.start < s.grid.sheet.stop)
    {r : Region} (hin : r.contains s.grid.cursor.addr = true)
    (hselection : t.grid.cursor.selection? = some ⟨s.grid.clickedFirst r, s.grid.clickedLast r⟩)
    (haddr : t.grid.cursor.addr = s.grid.clickedFirst r) :
    s.SelectsWhole r t ↔
      (r.last < s.grid.sheet.stop ∨ s.grid.cursor.addr + 1 = s.grid.sheet.stop) ∧
        (s.grid.sheet.start ≤ r.addr ∨ s.grid.clickedLast r = s.grid.sheet.start) := by
  have hshown := Sheet.contains_iff.1 (h.cursor_mem hregion)
  have hheld := Region.contains_iff.1 hin
  have hmem : s.SelectsWhole r t ↔
      ∀ a, (s.grid.clickedFirst r ≤ a ∧ a ≤ s.grid.clickedLast r) ↔
        (r.addr ≤ a ∧ a ≤ r.last) ∧ s.grid.sheet.start ≤ a ∧ a < s.grid.sheet.stop := by
    simp only [SelectsWhole, hselection, haddr, Option.some.injEq, exists_eq_left', and_true,
      Span.mem_iff, Sheet.contains_iff, Region.contains_iff]
  rw [hmem]
  constructor
  · intro hall
    constructor
    · by_cases hend : r.last < s.grid.sheet.stop
      · exact .inl hend
      · -- the last address that is shown is in the region, so that it is selected
        have hselected := (hall (s.grid.sheet.stop - 1)).2 (by omega)
        rw [Grid.clickedLast, if_neg hend] at hselected
        omega
    · by_cases hbegin : s.grid.sheet.start ≤ r.addr
      · exact .inl hbegin
      · -- and so is the first one
        have hselected := (hall s.grid.sheet.start).2 (by omega)
        rw [Grid.clickedFirst, if_neg hbegin] at hselected
        omega
  · rintro ⟨hend, hbegin⟩ a
    have hlast : s.grid.clickedLast r = min r.last (s.grid.sheet.stop - 1) := by
      unfold Grid.clickedLast
      split <;> omega
    have hfirst : s.grid.clickedFirst r = max r.addr s.grid.sheet.start := by
      unfold Grid.clickedFirst
      split <;> omega
    rw [hlast, hfirst]
    omega

/-- A double click where a painted region holds the cursor is taken.  It chooses the region that
starts nearest to the cursor, the first one of several, and selects as much of it as its two moves
reach; that is all of the region that the grid shows exactly if each of the moves is taken or is not
needed. -/
theorem doubleClick_selects_iff (h : s.grid.Consistent)
    (hregion : s.grid.sheet.start < s.grid.sheet.stop)
    (hholds : ∃ q ∈ s.grid.overlay.painted, q.contains s.grid.cursor.addr = true)
    (hcalls : ∀ r l u, s.grid.overlay.Nearest s.grid.cursor.addr r → s.CalledByDoubleClick r l u →
      l.SparesSelection u) :
    ∃ r t, s.grid.overlay.Nearest s.grid.cursor.addr r ∧ s.doubleClick = .ok (true, t) ∧
      t.grid.cursor.selection? = some ⟨s.grid.clickedFirst r, s.grid.clickedLast r⟩ ∧
      t.grid.cursor.addr = s.grid.clickedFirst r ∧
      (s.SelectsWhole r t ↔
        (r.last < s.grid.sheet.stop ∨ s.grid.cursor.addr + 1 = s.grid.sheet.stop) ∧
          (s.grid.sheet.start ≤ r.addr ∨ s.grid.clickedLast r = s.grid.sheet.start)) := by
  obtain ⟨r, hhead⟩ := Overlay.exists_head?_under hholds
  have hnearest := Overlay.nearest_of_head? hhead
  obtain ⟨t, hclick, hselection, haddr⟩ :=
    exists_doubleClick h hregion hhead hnearest.contains fun l u => hcalls r l u hnearest
  exact ⟨r, t, hnearest, hclick, hselection, haddr,
    selectsWhole_iff h hregion hnearest.contains hselection haddr⟩

/-- A patch on some of sixteen cells, which a listener takes off as soon as the cursor moves. -/
def onePatch (cursor : Nat) (r : Region) : Scene where
  grid := ((Grid.sixteenCells cursor none).setPatches [r]).listen (.script "first" [.setPatches []])

section OnePatch

variable {cursor : Nat} {r : Region}

theorem onePatch_consistent (hcursor : cursor < 16) : (onePatch cursor r).grid.Consistent := by
  have hconsistent : (Grid.sixteenCells cursor none).Consistent :=
    Grid.sixteenCells_consistent hcursor nofun
  have hpatched := hconsistent.change (c := .setPatches [r]) rfl
  exact ⟨hpatched.change (c := .listen "first" [.setPatches []]) rfl, rfl⟩

theorem eq_of_nearest_onePatch {addr : Nat} {q : Region}
    (h : (onePatch cursor r).grid.overlay.Nearest addr q) : q = r.mark (.single cursor) :=
  List.mem_singleton.1 h.mem

theorem onePatch_spares {q : Region} {l : Listener} {u : Scene}
    (h : (onePatch cursor r).CalledByDoubleClick q l u) : l.SparesSelection u := by
  have hspares : ∀ {l : Listener}, l ∈ [Listener.script "first" [.setPatches []]] →
      l.SparesSelection u := by
    intro l hl
    obtain rfl := List.mem_singleton.1 hl
    exact ⟨_, rfl, rfl⟩
  cases h with
  | toLast h => exact hspares h.called.mem
  | @toFirst b t hlast h =>
      have hlisteners : t.grid.listeners = [.script "first" [.setPatches []]] := by
        cases placed hlast with
        | refused => rfl
        | stayed => rfl
        | moved _ _ _ hmoved =>
            obtain rfl := Except.ok.inj hmoved
            rfl
      have hmem := h.called.mem
      exact hspares (hlisteners ▸ hmem)

end OnePatch

/-- A patch that is shown as a whole is selected, although it is not painted any more by then. -/
theorem doubleClick_selects_iff_patch :
    let r : Region := { category := .patch, addr := 4, size := 4, size_pos := by decide
                        last_le := by decide }
    ∃ t, (onePatch 5 r).doubleClick = .ok (true, t) ∧ (onePatch 5 r).SelectsWhole r t := by
  intro r
  obtain ⟨q, t, hnearest, hclick, -, -, hiff⟩ := doubleClick_selects_iff
    (s := onePatch 5 r) (onePatch_consistent (by decide)) (by decide)
    ⟨_, List.mem_singleton_self _, by decide⟩ fun _ _ _ _ => onePatch_spares
  obtain rfl := eq_of_nearest_onePatch hnearest
  exact ⟨t, hclick, hiff.2 (by decide)⟩

/-- A patch that reaches beyond what is shown is selected only up to where the cursor was. -/
theorem not_doubleClick_selects :
    ¬ ∀ {s : Scene}, s.grid.Consistent → s.grid.sheet.start < s.grid.sheet.stop →
      (∃ q ∈ s.grid.overlay.painted, q.contains s.grid.cursor.addr = true) →
      (∀ r l u, s.grid.overlay.Nearest s.grid.cursor.addr r → s.CalledByDoubleClick r l u →
        l.SparesSelection u) →
      ∃ r t, s.grid.overlay.Nearest s.grid.cursor.addr r ∧ s.doubleClick = .ok (true, t) ∧
        s.SelectsWhole r t := by
  intro hall
  let r : Region := { category := .patch, addr := 10, size := 10, size_pos := by decide
                      last_le := by decide }
  have hconsistent : (onePatch 12 r).grid.Consistent := onePatch_consistent (by decide)
  have hholds : ∃ q ∈ (onePatch 12 r).grid.overlay.painted, q.contains 12 = true :=
    ⟨_, List.mem_singleton_self _, by decide⟩
  obtain ⟨q, t, hnearest, hclick, hwhole⟩ :=
    hall hconsistent (by decide) hholds fun _ _ _ _ => onePatch_spares
  obtain ⟨q', hhead⟩ := Overlay.exists_head?_under hholds
  obtain rfl := eq_of_nearest_onePatch hnearest
  obtain rfl := eq_of_nearest_onePatch (Overlay.nearest_of_head? hhead)
  obtain ⟨u, hclicked, hselection, haddr⟩ := exists_doubleClick hconsistent (by decide) hhead
    hnearest.contains fun _ _ => onePatch_spares
  obtain ⟨-, rfl⟩ := Prod.mk.inj (Except.ok.inj (hclicked.symm.trans hclick))
  have hreaches := ((selectsWhole_iff hconsistent (by decide) hnearest.contains hselection
    haddr).1 hwhole).1
  revert hreaches
  decide

end Scene

end HexEditor
