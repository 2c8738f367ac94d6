import HexEditor.Proofs.Grid.Consistency
import HexEditor.Proofs.Patch.Mail
import HexEditor.Proofs.Sync.Group

/-!
# The grid of a view

The grid of a view shows its project and has one listener, so that a move comes to an end
without fail and its effect can be written down (`setCursor_eq`).  What keys and the pointer do
to such a grid leaves everything alone that pumping renews: `Kept` lists it, together with the
traces left in the project and in the group, which are some requests to the store and some
positions of the cursor, of which the last is where the cursor is.
-/

namespace HexEditor

/-- The grid has the one listener that every view has, and is not in the middle of a move. -/
structure Grid.Upkept (g : Grid) : Prop where
  listeners : g.listeners = [.viewUpkeep]
  moving : g.cursor.moving = false

/-- The grid of a view: it shows the project, has the one listener that every view has, and is
not in the middle of a move. -/
structure Grid.OfView (g : Grid) : Prop where
  listeners : g.listeners = [.viewUpkeep]
  source : g.source = some .project
  moving : g.cursor.moving = false

/-- The painted regions are those of the three lists, with the marks of the current span, and
the first list has no region that is taken for one of the others. -/
structure Grid.Painted (g : Grid) : Prop where
  eq : g.overlay.painted =
    (g.overlay.classification ++ g.overlay.synchronized ++ g.overlay.patches).map
      (Region.mark g.cursor.span)
  plain : ∀ r ∈ g.overlay.classification, r.kind = .plain ∧ r.category ≠ .patch ∧
    r.category ≠ .synchronized

namespace Grid

variable {g : Grid}

theorem OfView.upkept (h : g.OfView) : g.Upkept := ⟨h.listeners, h.moving⟩

theorem Painted.remark (h : g.Painted) (cursor : Cursor) :
    ({ g with cursor }.updateActive).Painted :=
  ⟨Overlay.Marked.remark h.eq cursor.span, h.plain⟩

theorem Painted.of_span {cursor : Cursor} (h : g.Painted) (hspan : cursor.span = g.cursor.span) :
    Painted { g with cursor } :=
  ⟨by rw [hspan]; exact h.eq, h.plain⟩

theorem Painted.setSynchronized (h : g.Painted) (regions : List Region) :
    (g.setSynchronized regions).Painted := ⟨rfl, h.plain⟩

theorem Painted.setPatches (h : g.Painted) (regions : List Region) :
    (g.setPatches regions).Painted := ⟨rfl, h.plain⟩

theorem Painted.setClassification {regions : List Region}
    (hplain : ∀ r ∈ regions, r.kind = .plain ∧ r.category ≠ .patch ∧ r.category ≠ .synchronized) :
    (g.setClassification regions).Painted := ⟨rfl, hplain⟩

end Grid

theorem Region.of_plain? {category : Category} {addr size : Nat} {r : Region}
    (h : Region.plain? category addr size = some r) :
    r.category = category ∧ r.addr = addr ∧ r.size = size ∧ r.kind = .plain := by
  unfold Region.plain? at h
  split at h
  · injection h with h
    subst h
    exact ⟨rfl, rfl, rfl, rfl⟩
  · cases h

/-- What is highlighted around the cursor is neither a patch nor a selection of others. -/
theorem ItemMap.highlights_plain (m : ItemMap) (cursor : Nat) :
    ∀ r ∈ m.highlights cursor, r.kind = .plain ∧ r.category ≠ .patch ∧
      r.category ≠ .synchronized := by
  intro r hr
  have hkind : ∀ {category addr size}, Region.plain? category addr size = some r →
      category ≠ .patch → category ≠ .synchronized →
      r.kind = .plain ∧ r.category ≠ .patch ∧ r.category ≠ .synchronized := by
    intro category addr size h hpatch hsync
    obtain ⟨rfl, -, -, hplain⟩ := Region.of_plain? h
    exact ⟨hplain, hpatch, hsync⟩
  unfold ItemMap.highlights at hr
  cases hfloor : m.floor? cursor with
  | none => simp [hfloor] at hr
  | some e =>
      obtain ⟨addr, item⟩ := e
      simp only [hfloor] at hr
      split at hr
      · simp at hr
      · cases item with
        | data _ size sort =>
            refine hkind (Option.mem_toList.1 hr) ?_ ?_ <;> cases sort <;> simp [DataSort.category]
        | block _ _ instructions =>
            obtain ⟨i, -, hi⟩ := List.mem_filterMap.1 hr
            exact hkind hi (by simp) (by simp)

namespace Scene

variable {s t u : Scene}

/-! ## Moving the cursor -/

/-- The cursor in its new place, with what the listener of a view does about a new address. -/
def moved (s : Scene) (addr : Nat) (pane : Option Pane) (nibble : Option Nibble) : Scene :=
  let placed := s.mapGrid fun g =>
    { g with
      blink := if g.focused then g.blink.restart s.around.now else g.blink
      cursor := g.cursor.place addr pane nibble }
  if s.grid.cursor.addr = addr then placed
  else (placed.mapGrid (·.updateActive)).refreshHighlights.publishCursor

/-- The listeners are taken out of the grid and put back; of the views' one the grid takes no
notice meanwhile. -/
theorem dispatch_eq (h : s.grid.listeners = [.viewUpkeep]) :
    dispatch s = .ok s.refreshHighlights.publishCursor := by
  obtain ⟨⟨sheet, metrics, cursor, overlay, blink, source, listeners, pressed, focused⟩, around⟩ := s
  obtain rfl : listeners = [.viewUpkeep] := h
  rfl

/-- Moving the cursor of a view never fails. -/
theorem setCursor_eq (h : s.grid.Upkept) (addr : Nat) (pane : Option Pane) (nibble : Option Nibble) :
    s.setCursor addr pane nibble =
      .ok (if s.grid.cursor.inBounds addr then (true, s.moved addr pane nibble)
        else (false, s)) := by
  unfold setCursor setCursorWith moved
  rw [h.moving, Bool.or_false]
  cases s.grid.cursor.inBounds addr with
  | false => rfl
  | true =>
      simp only [Bool.not_true, Bool.false_eq_true, if_false, if_true]
      obtain ⟨⟨sheet, metrics, ⟨start, stop, old, half, anchor, pane', moving⟩, overlay, blink, source,
        listeners, pressed, focused⟩, around⟩ := s
      obtain ⟨rfl, rfl⟩ := h
      by_cases haddr : old = addr
      · rw [if_neg (not_not_intro haddr), if_pos haddr]
        rfl
      · rw [if_pos haddr, if_neg haddr, dispatch_eq rfl]
        rfl

theorem moved_cursor (s : Scene) (addr : Nat) (pane : Option Pane) (nibble : Option Nibble) :
    (s.moved addr pane nibble).grid.cursor = s.grid.cursor.place addr pane nibble := by
  unfold moved
  dsimp only
  split <;> rfl

theorem moved_project (s : Scene) (addr : Nat) (pane : Option Pane) (nibble : Option Nibble) :
    (s.moved addr pane nibble).around.project = s.around.project := by
  unfold moved
  dsimp only
  split <;> rfl

/-! ## What is left alone -/

/-- The scene `t` comes from `s` by handling keys and the pointer. -/
structure Kept (s t : Scene) : Prop where
  listeners : t.grid.listeners = s.grid.listeners
  source : t.grid.source = s.grid.source
  moving : t.grid.cursor.moving = s.grid.cursor.moving
  painted : s.grid.Painted → t.grid.Painted
  alwaysShow : t.grid.blink.alwaysShow = s.grid.blink.alwaysShow
  patches : t.grid.overlay.patches = s.grid.overlay.patches
  synchronized : t.grid.overlay.synchronized = s.grid.overlay.synchronized
  member : t.around.member = s.around.member
  image : t.around.project.image = s.around.project.image
  store : s.around.project.patches.Evolves t.around.project.patches
  group : ∃ cursors, t.around.group = s.around.group.setCursors s.around.member cursors ∧
    t.grid.cursor.addr = cursors.getLast?.getD s.grid.cursor.addr
  region : t.grid.cursor.start = s.grid.cursor.start ∧ t.grid.cursor.stop = s.grid.cursor.stop
  addr : t.grid.cursor.addr = s.grid.cursor.addr ∨
    s.grid.cursor.inBounds t.grid.cursor.addr = true

namespace Kept

theorem refl (s : Scene) : Kept s s :=
  ⟨rfl, rfl, rfl, id, rfl, rfl, rfl, rfl, rfl, .refl _, ⟨[], rfl, rfl⟩, ⟨rfl, rfl⟩, .inl rfl⟩

theorem upkept (hkept : Kept s t) (h : s.grid.Upkept) : t.grid.Upkept :=
  ⟨hkept.listeners.trans h.listeners, hkept.moving.trans h.moving⟩

theorem ofView (hkept : Kept s t) (h : s.grid.OfView) : t.grid.OfView :=
  ⟨hkept.listeners.trans h.listeners, hkept.source.trans h.source, hkept.moving.trans h.moving⟩

theorem inBounds_eq (h : Kept s t) (addr : Nat) :
    t.grid.cursor.inBounds addr = s.grid.cursor.inBounds addr := by
  unfold Cursor.inBounds
  rw [h.region.1, h.region.2]

theorem trans (hst : Kept s t) (htu : Kept t u) : Kept s u := by
  obtain ⟨first, hfirst, haddr⟩ := hst.group
  obtain ⟨next, hnext, haddr'⟩ := htu.group
  refine ⟨htu.listeners.trans hst.listeners, htu.source.trans hst.source,
    htu.moving.trans hst.moving, htu.painted ∘ hst.painted,
    htu.alwaysShow.trans hst.alwaysShow, htu.patches.trans hst.patches,
    htu.synchronized.trans hst.synchronized, htu.member.trans hst.member,
    htu.image.trans hst.image, hst.store.trans htu.store, ⟨first ++ next, ?_, ?_⟩,
    ⟨htu.region.1.trans hst.region.1, htu.region.2.trans hst.region.2⟩, ?_⟩
  · rw [hnext, hfirst, hst.member, SyncGroup.setCursors_append]
  · rw [haddr', haddr, List.getLast?_append, Option.getD_or]
  · rcases htu.addr with heq | hin
    · rw [heq]
      exact hst.addr
    · exact .inr (hst.inBounds_eq _ ▸ hin)

/-- Starting and ending a selection, and holding the pointer down, concern nobody else. -/
theorem of_anchor (s : Scene) {anchor : Option Nat} :
    Kept s (s.mapGrid fun g => { g with cursor := { g.cursor with anchor } }.updateActive) where
  listeners := rfl
  source := rfl
  moving := rfl
  painted h := h.remark _
  alwaysShow := rfl
  patches := rfl
  synchronized := rfl
  member := rfl
  image := rfl
  store := .refl _
  group := ⟨[], rfl, rfl⟩
  region := ⟨rfl, rfl⟩
  addr := .inl rfl

theorem of_pressed (s : Scene) (on : Bool) :
    Kept s (s.mapGrid fun g => { g with pressed := on }) where
  listeners := rfl
  source := rfl
  moving := rfl
  painted h := ⟨h.eq, h.plain⟩
  alwaysShow := rfl
  patches := rfl
  synchronized := rfl
  member := rfl
  image := rfl
  store := .refl _
  group := ⟨[], rfl, rfl⟩
  region := ⟨rfl, rfl⟩
  addr := .inl rfl

theorem of_moved {addr : Nat} (hin : s.grid.cursor.inBounds addr = true) (pane : Option Pane)
    (nibble : Option Nibble) : Kept s (s.moved addr pane nibble) := by
  have hblink : ∀ now, (if s.grid.focused then s.grid.blink.restart now
      else s.grid.blink).alwaysShow = s.grid.blink.alwaysShow := by
    intro now
    split <;> rfl
  unfold moved
  by_cases haddr : s.grid.cursor.addr = addr
  · rw [if_pos haddr]
    refine ⟨rfl, rfl, rfl, fun h => ?_, hblink _, rfl, rfl, rfl, rfl, .refl _,
      ⟨[], rfl, haddr.symm⟩, ⟨rfl, rfl⟩, .inr hin⟩
    have hspan : (s.grid.cursor.place addr pane nibble).span = s.grid.cursor.span := by
      simp only [Cursor.span, Cursor.selection?, Cursor.place, haddr]
    have hkept := h.of_span hspan
    exact ⟨hkept.eq, hkept.plain⟩
  · rw [if_neg haddr]
    refine ⟨rfl, rfl, rfl, fun _ => ?_, hblink _, rfl, rfl, rfl, rfl, .refl _,
      ⟨[addr], rfl, rfl⟩, ⟨rfl, rfl⟩, .inr hin⟩
    refine Grid.Painted.setClassification ?_
    split
    · exact ItemMap.highlights_plain _ _
    · simp

theorem of_setCursor (h : s.grid.OfView) {addr : Nat} {pane : Option Pane} {nibble : Option Nibble}
    {b : Bool} (hset : s.setCursor addr pane nibble = .ok (b, t)) : Kept s t := by
  rw [setCursor_eq h.upkept] at hset
  split at hset
  · next hin =>
      obtain ⟨-, rfl⟩ := Prod.mk.inj (Except.ok.inj hset)
      exact of_moved hin pane nibble
  · obtain ⟨-, rfl⟩ := Prod.mk.inj (Except.ok.inj hset)
    exact refl s

/-- So does what the store replies. -/
theorem of_evolves {patches : PatchStore} (h : s.around.project.patches.Evolves patches) :
    Kept s { s with
      around := { s.around with project := { s.around.project with patches } } } :=
  ⟨rfl, rfl, rfl, id, rfl, rfl, rfl, rfl, rfl, h, ⟨[], rfl, rfl⟩, ⟨rfl, rfl⟩, .inl rfl⟩

theorem of_write (h : s.grid.OfView) (hs : s.around.project.patches.Sound) {addr : Nat} {value : UInt8}
    {b : Bool} (hwrite : s.write addr value = .ok (b, t)) : Kept s t := by
  obtain ⟨reply, hreply, hevolves⟩ := hs.exists_write addr [value]
  simp only [write, h.source, Project.write, hreply, Checked.ok_bind, Checked.pure_eq_ok] at hwrite
  obtain ⟨-, rfl⟩ := Prod.mk.inj (Except.ok.inj hwrite)
  exact .of_evolves hevolves

end Kept

/-! ## Keys and the pointer -/

namespace Kept

variable {b : Bool}

/-- Everything a view does to its grid keeps the scene as it was found. -/
theorem of_handles (h : s.grid.OfView) (hs : s.around.project.patches.Sound)
    (hhandles : Handles dispatch s t) : Kept s t := by
  refine hhandles.keeps (P := Kept s) ?_ (refl s)
  intro t u hstep hkept
  refine hkept.trans ?_
  cases hstep with
  | press on => exact .of_pressed t on
  | beginSelection => exact .of_anchor t
  | clearSelection => exact .of_anchor t
  | write hwrite => exact .of_write (hkept.ofView h) (hkept.store.sound hs) hwrite
  | setCursor hset => exact .of_setCursor (hkept.ofView h) hset

theorem of_key (h : s.grid.OfView) (hs : s.around.project.patches.Sound) {k : Key}
    {modifiers : Modifiers} (hkey : s.key k modifiers = .ok (b, t)) : Kept s t :=
  of_handles h hs
    (handles_of_rel ((lockstep_handles dispatch s).key ⟨rfl, .refl s⟩ k modifiers) hkey)

theorem of_press (h : s.grid.OfView) (hs : s.around.project.patches.Sound) {p : Point}
    {extend : Bool} (hpress : s.press p extend = .ok (b, t)) : Kept s t :=
  of_handles h hs
    (handles_of_rel ((lockstep_handles dispatch s).press_at ⟨rfl, .refl s⟩ p extend) hpress)

theorem of_drag (h : s.grid.OfView) (hs : s.around.project.patches.Sound) {p : Point}
    (hdrag : s.drag p = .ok (b, t)) : Kept s t :=
  of_handles h hs (handles_of_rel ((lockstep_handles dispatch s).drag ⟨rfl, .refl s⟩ p) hdrag)

theorem of_doubleClick (h : s.grid.OfView) (hs : s.around.project.patches.Sound)
    (hclick : s.doubleClick = .ok (b, t)) : Kept s t :=
  of_handles h hs
    (handles_of_rel ((lockstep_handles dispatch s).doubleClick ⟨rfl, .refl s⟩) hclick)

end Kept

end Scene

end HexEditor
