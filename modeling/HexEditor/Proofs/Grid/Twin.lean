import HexEditor.Proofs.Grid.Upkeep

/-!
# Twin scenes

Two views are twins when everything that decides what keys and the pointer do is the same for
both: the cursor, the sheet, what is painted, and the bytes.  They need not be in the same group,
have the same number, or blink alike.  Keys and the pointer leave twins twins
(`lockstep_twins`), since a store answers from its patches alone and a move ends without fail.
-/

namespace HexEditor

namespace PatchStore

variable {s t : PatchStore}

/-- Equal answers, and the same patches. -/
structure Reply.Alike {α : Type} (x y : Reply α) : Prop where
  answer : x.answer = y.answer
  set : x.store.set = y.store.set

theorem settle_alike (s t : PatchStore) (addr : Nat) (bytes : List UInt8)
    (cleared : PatchSet.Cleared) :
    Checked.Rel Reply.Alike (s.settle addr bytes cleared) (t.settle addr bytes cleared) := by
  cases cleared with
  | spliced set => exact .ok ⟨rfl, rfl⟩
  | room set =>
      refine Checked.Rel.bind (Checked.rel_self (P := Eq) fun _ _ => rfl) ?_
      rintro set _ rfl
      exact .ok ⟨rfl, rfl⟩

/-- Stores with the same patches carry out a write alike. -/
theorem write_alike (h : s.set = t.set) (addr : Nat) (bytes : List UInt8) :
    Checked.Rel Reply.Alike (s.write addr bytes) (t.write addr bytes) := by
  unfold write
  rw [h]
  split
  · exact .ok ⟨rfl, h⟩
  · split
    · exact .ok ⟨rfl, h⟩
    · refine Checked.Rel.bind (Checked.rel_self (P := Eq) fun _ _ => rfl) ?_
      rintro plan _ rfl
      cases plan with
      | error e => exact .ok ⟨rfl, h⟩
      | ok steps =>
          refine Checked.Rel.bind (Checked.rel_self (P := Eq) fun _ _ => rfl) ?_
          rintro cleared _ rfl
          exact settle_alike s t addr bytes cleared

theorem read_congr (h : s.set = t.set) (addr : Nat) : s.read addr = t.read addr := by
  unfold read patchAt?
  rw [h]

end PatchStore

namespace Scene

variable {s t : Scene}

/-- What keys and the pointer do is the same in both scenes. -/
structure Twins (s t : Scene) : Prop where
  left : s.grid.OfView
  right : t.grid.OfView
  cursor : s.grid.cursor = t.grid.cursor
  sheet : s.grid.sheet = t.grid.sheet
  pressed : s.grid.pressed = t.grid.pressed
  overlay : s.grid.overlay = t.grid.overlay
  smart : s.around.smart = t.around.smart
  image : s.around.project.image = t.around.project.image
  items : s.around.project.items = t.around.project.items
  patches : s.around.project.patches.set = t.around.project.patches.set

namespace Twins

/-- Other grids in the places of twins. -/
theorem of_grids (h : Twins s t) {g g' : Grid} (hg : g.OfView) (hg' : g'.OfView)
    (hcursor : g.cursor = g'.cursor) (hsheet : g.sheet = g'.sheet)
    (hpressed : g.pressed = g'.pressed) (hoverlay : g.overlay = g'.overlay) :
    Twins { s with grid := g } { t with grid := g' } :=
  ⟨hg, hg', hcursor, hsheet, hpressed, hoverlay, h.smart, h.image, h.items, h.patches⟩

/-- Another anchor changes which regions are active, and it does so alike. -/
theorem anchor (h : Twins s t) {f : Cursor → Option Nat} :
    Twins (s.mapGrid fun g => { g with cursor := { g.cursor with anchor := f g.cursor } }.updateActive)
      (t.mapGrid fun g => { g with cursor := { g.cursor with anchor := f g.cursor } }.updateActive) := by
  refine h.of_grids ⟨h.left.listeners, h.left.source, h.left.moving⟩
    ⟨h.right.listeners, h.right.source, h.right.moving⟩ ?_ h.sheet h.pressed ?_
  · exact congrArg (fun c : Cursor => { c with anchor := f c }) h.cursor
  · change s.grid.overlay.updateActive _ = t.grid.overlay.updateActive _
    rw [h.overlay, h.cursor]

theorem value (h : Twins s t) (addr : Nat) : s.value addr = t.value addr := by
  unfold Scene.value Project.read
  rw [h.left.source, h.right.source, h.image, PatchStore.read_congr h.patches]

theorem write (h : Twins s t) (addr : Nat) (value : UInt8) :
    Checked.Rel (Alike Twins) (s.write addr value) (t.write addr value) := by
  unfold Scene.write Project.write
  rw [h.left.source, h.right.source]
  refine (Checked.Rel.bind (PatchStore.write_alike h.patches addr [value]) ?_).bind
    (P := fun x y => x.1 = y.1 ∧ x.2.image = y.2.image ∧ x.2.items = y.2.items ∧
      x.2.patches.set = y.2.patches.set) ?_
  · intro x y hreply
    exact .ok ⟨by rw [hreply.answer], h.image, h.items, hreply.set⟩
  · rintro ⟨taken, p⟩ ⟨_, q⟩ ⟨rfl, himage, hitems, hset⟩
    exact .ok ⟨rfl, h.left, h.right, h.cursor, h.sheet, h.pressed, h.overlay, h.smart, himage,
      hitems, hset⟩

theorem moved (h : Twins s t) (addr : Nat) (pane : Option Pane) (nibble : Option Nibble) :
    Twins (s.moved addr pane nibble) (t.moved addr pane nibble) := by
  have hplace : s.grid.cursor.place addr pane nibble = t.grid.cursor.place addr pane nibble := by
    rw [h.cursor]
  unfold Scene.moved
  dsimp only
  rw [h.cursor]
  split
  · exact h.of_grids ⟨h.left.listeners, h.left.source, h.left.moving⟩
      ⟨h.right.listeners, h.right.source, h.right.moving⟩ hplace h.sheet h.pressed h.overlay
  · refine ⟨⟨h.left.listeners, h.left.source, h.left.moving⟩,
      ⟨h.right.listeners, h.right.source, h.right.moving⟩, hplace, h.sheet, h.pressed, ?_, h.smart,
      h.image, h.items, h.patches⟩
    simp only [refreshHighlights, publishCursor, mapGrid, Grid.setClassification, Grid.updateActive,
      h.overlay, h.smart, h.items, hplace]
    rfl

end Twins

/-- Keys and the pointer leave twins twins. -/
theorem lockstep_twins : Lockstep dispatch dispatch Twins where
  cursor h := h.cursor
  sheet h := h.sheet
  pressed h := h.pressed
  regionsUnder h := by
    unfold Grid.regionsUnder
    rw [h.overlay, h.cursor]
  value h := h.value
  press h on := h.of_grids ⟨h.left.listeners, h.left.source, h.left.moving⟩
    ⟨h.right.listeners, h.right.source, h.right.moving⟩ h.cursor h.sheet rfl h.overlay
  beginSelection h := h.anchor (f := fun c => some c.addr)
  clearSelection h := h.anchor (f := fun _ => none)
  write h := h.write
  setCursor := by
    intro s t h addr pane nibble
    change Checked.Rel _ (s.setCursor addr pane nibble) (t.setCursor addr pane nibble)
    rw [setCursor_eq h.left.upkept, setCursor_eq h.right.upkept, h.cursor]
    split
    · exact .ok ⟨rfl, h.moved addr pane nibble⟩
    · exact .ok ⟨rfl, h⟩

end Scene

end HexEditor
