import HexEditor.Proofs.Grid.Twin
import HexEditor.Proofs.View.Follow
import HexEditor.Proofs.View.Request

/-!
# Twin views

What the user does with a view is handled in two stages: first the input itself (`handle`), then,
for most inputs, pumping.  The first stage leaves twins twins (`handle_twins`), whatever groups
they are in, since it does not look at the mail.  The second stage does so as well when neither
view is asked to go elsewhere and nobody else has selected anything (`Settles`).
-/

namespace HexEditor

/-- What the user does with a view. -/
def ViewRequest.isInput : ViewRequest → Bool
  | .key .. | .press .. | .drag _ | .release | .doubleClick | .jumpTo _ | .copy | .paste => true
  | _ => false

namespace Desk

variable {d d' e e' : Desk} {r : ViewRequest}

/-! ## Two stages -/

/-- The desk after an input, not yet pumped. -/
def handle (d : Desk) : ViewRequest → Checked Desk
  | .key k modifiers => return (← d.onGrid (·.key k modifiers)).2
  | .press p extend => return (← d.onGrid (·.press p extend)).2
  | .drag p => return (← d.onGrid (·.drag p)).2
  | .release => return d.release
  | .doubleClick => return (← d.onGrid (·.doubleClick)).2
  | .jumpTo addr =>
    return (← (d.mapGrid (·.clearSelection)).onGrid (·.setCursor addr none none)).2
  | .copy => return (← d.copySelection).2
  | .paste => do
    match d.view.clipboard with
    | none => return d
    | some bytes =>
      let reply ← d.project.patches.write d.view.grid.cursor.addr bytes
      return { d with project := { d.project with patches := reply.store } }
  | _ => return d

/-- Pumps the view, if that is asked for. -/
def finish (pumps : Bool) (d : Desk) : Checked Desk := do
  if pumps then return (← d.pump).2 else return d

theorem onGridThenPump_eq {α : Type} (d : Desk) (op : Scene → Checked (α × Scene)) :
    (do return (← d.onGridThenPump op).2) =
      (do return (← d.onGrid op).2) >>= finish true := by
  unfold onGridThenPump
  cases d.onGrid op with
  | error e => rfl
  | ok done =>
      obtain ⟨answer, d'⟩ := done
      change (do return (← d'.pump >>= fun b => .ok (answer, b.2)).2) = (do return (← d'.pump).2)
      cases d'.pump <;> rfl

/-- Everything the user does is handled in the two stages. -/
theorem perform_eq (hr : r.isInput = true) (d : Desk) :
    d.perform r = d.handle r >>= finish (r.pumps d.view) := by
  cases r with
  | key k modifiers => exact onGridThenPump_eq d _
  | press p extend => exact onGridThenPump_eq d _
  | drag p => exact onGridThenPump_eq d _
  | release => rfl
  | doubleClick => exact onGridThenPump_eq d _
  | jumpTo addr => exact onGridThenPump_eq _ _
  | copy =>
      unfold perform handle
      cases d.copySelection <;> rfl
  | paste =>
      unfold perform handle paste ViewRequest.pumps
      dsimp only
      cases d.view.clipboard with
      | none => rfl
      | some bytes =>
          dsimp only
          cases d.project.patches.write d.view.grid.cursor.addr bytes with
          | error e => rfl
          | ok reply =>
              change (do return (← (Desk.afterReply d reply)).2) = finish true _
              unfold afterReply finish
              dsimp only
              cases pump { d with project := { d.project with patches := reply.store } } <;> rfl
  | _ => cases hr

/-! ## The first stage -/

/-- The first stage only changes the grid and the clipboard, and keeps the scene as keys and the
pointer do. -/
structure Handled (d e : Desk) : Prop where
  kept : Scene.Kept d.scene e.scene
  view : e.view = { d.view with grid := e.view.grid, clipboard := e.view.clipboard }

theorem handled_withScene {s : Scene} (h : Scene.Kept d.scene s) : Handled d (d.withScene s) := by
  refine ⟨?_, rfl⟩
  exact ⟨h.listeners, h.source, h.moving, h.painted, h.alwaysShow, h.patches, h.synchronized, rfl,
    h.image, h.store, h.group, h.region, h.addr⟩

theorem handled_of_onGrid {op : Scene → Checked (Bool × Scene)}
    (hop : ∀ b s, op d.scene = .ok (b, s) → Scene.Kept d.scene s)
    (hdone : (do return (← d.onGrid op).2) = Except.ok e) : Handled d e := by
  obtain ⟨b, hgrid⟩ := Checked.exists_of_return_snd hdone
  obtain ⟨⟨answer, s⟩, hscene, hplaced⟩ := Checked.bind_eq_ok_iff.1 hgrid
  obtain ⟨-, rfl⟩ := Prod.mk.inj (Except.ok.inj hplaced)
  exact handled_withScene (hop _ _ hscene)

theorem handled_of_pressed (d : Desk) (on : Bool) (clipboard : Option (List UInt8)) :
    Handled d { d with view := { d.view with grid := { d.view.grid with pressed := on }, clipboard } } :=
  ⟨.of_pressed d.scene on, rfl⟩

theorem handle_spec (hd : d.Sound) (h : d.view.grid.OfView) (hdone : d.handle r = .ok e) :
    Handled d e := by
  have hrefl : Handled d d := handled_of_pressed d d.view.grid.pressed d.view.clipboard
  cases r with
  | key k modifiers => exact handled_of_onGrid (fun _ _ => .of_key h hd.store) hdone
  | press p extend => exact handled_of_onGrid (fun _ _ => .of_press h hd.store) hdone
  | drag p => exact handled_of_onGrid (fun _ _ => .of_drag h hd.store) hdone
  | release =>
      obtain rfl := Except.ok.inj hdone
      exact handled_of_pressed d false d.view.clipboard
  | doubleClick => exact handled_of_onGrid (fun _ _ => .of_doubleClick h hd.store) hdone
  | jumpTo addr =>
      -- the selection is dropped before the cursor moves
      have hkept : Scene.Kept d.scene (d.mapGrid (·.clearSelection)).scene := .of_anchor d.scene
      have hset := handled_of_onGrid (d := d.mapGrid (·.clearSelection))
        (fun _ _ => .of_setCursor (hkept.ofView h)) hdone
      exact ⟨hkept.trans hset.kept, hset.view⟩
  | copy =>
      obtain ⟨n, hcopy⟩ := Checked.exists_of_return_snd hdone
      obtain ⟨clipboard, rfl⟩ := copySelection_eq hcopy
      exact handled_of_pressed d d.view.grid.pressed clipboard
  | paste =>
      unfold handle at hdone
      dsimp only at hdone
      cases hclip : d.view.clipboard with
      | none =>
          rw [hclip] at hdone
          obtain rfl := Except.ok.inj hdone
          exact hrefl
      | some bytes =>
          rw [hclip] at hdone
          obtain ⟨reply, hwrite, hdone⟩ := Checked.bind_eq_ok_iff.1 hdone
          obtain ⟨reply', hwrite', hevolves⟩ := hd.store.exists_write d.view.grid.cursor.addr bytes
          rw [hwrite] at hwrite'
          obtain rfl := Except.ok.inj hwrite'
          obtain rfl := Except.ok.inj hdone
          exact ⟨.of_evolves hevolves, rfl⟩
  | _ =>
      obtain rfl := Except.ok.inj hdone
      exact hrefl

/-- An input that is not followed by pumping only lets the pointer go or fills the clipboard. -/
theorem handle_of_not_pumps (hr : r.isInput = true) (hpumps : r.pumps d.view = false)
    (hdone : d.handle r = .ok e) :
    ∃ on clipboard, e =
      { d with view := { d.view with grid := { d.view.grid with pressed := on }, clipboard } } := by
  cases r with
  | release =>
      obtain rfl := Except.ok.inj hdone
      exact ⟨false, d.view.clipboard, rfl⟩
  | copy =>
      obtain ⟨n, hcopy⟩ := Checked.exists_of_return_snd hdone
      obtain ⟨clipboard, rfl⟩ := copySelection_eq hcopy
      exact ⟨d.view.grid.pressed, clipboard, rfl⟩
  | paste =>
      have hclip : d.view.clipboard = none := by simpa [ViewRequest.pumps] using hpumps
      unfold handle at hdone
      dsimp only at hdone
      rw [hclip] at hdone
      obtain rfl := Except.ok.inj hdone
      exact ⟨d.view.grid.pressed, d.view.clipboard, rfl⟩
  | key => cases hpumps
  | press => cases hpumps
  | drag => cases hpumps
  | doubleClick => cases hpumps
  | jumpTo => cases hpumps
  | _ => cases hr

/-- Twin scenes, and the same clipboard. -/
structure Twins (d e : Desk) : Prop where
  scene : Scene.Twins d.scene e.scene
  clipboard : d.view.clipboard = e.view.clipboard

namespace Twins

theorem onGrid {op op' : Scene → Checked (Bool × Scene)} (h : Twins d e)
    (hop : Checked.Rel (Scene.Alike Scene.Twins) (op d.scene) (op' e.scene)) :
    Checked.Rel Twins (do return (← d.onGrid op).2) (do return (← e.onGrid op').2) := by
  have hplace : ∀ (f : Desk) (op : Scene → Checked (Bool × Scene)),
      (do return (← f.onGrid op).2) = op f.scene >>= fun x => .ok (f.withScene x.2) := by
    intro f op
    unfold Desk.onGrid
    cases op f.scene <;> rfl
  rw [hplace, hplace]
  refine hop.bind ?_
  rintro x y ⟨-, hxy⟩
  refine .ok ⟨⟨hxy.left, hxy.right, hxy.cursor, hxy.sheet, hxy.pressed, hxy.overlay, ?_, hxy.image,
    hxy.items, hxy.patches⟩, h.clipboard⟩
  exact h.scene.smart

theorem copySelection (h : Twins d e) :
    Checked.Rel Twins (do return (← d.copySelection).2) (do return (← e.copySelection).2) := by
  have hscene := h.scene
  have hcursor : d.view.grid.cursor = e.view.grid.cursor := hscene.cursor
  have hvalue : d.scene.value = e.scene.value := funext hscene.value
  have hclip : ∀ clipboard, Twins { d with view := { d.view with clipboard } }
      { e with view := { e.view with clipboard } } := fun _ => ⟨hscene, rfl⟩
  unfold Desk.copySelection
  rw [hcursor, hvalue]
  cases e.view.grid.cursor.selection? with
  | none => exact .ok (hclip none)
  | some span =>
      dsimp only
      cases span.toList.mapM fun addr => do return (← e.scene.value addr).getD 0 with
      | error f => exact .error f
      | ok bytes => exact .ok (hclip (some bytes))

/-- The first stage leaves twins twins. -/
theorem handle (hr : r.isInput = true) (h : Twins d e) :
    Checked.Rel Twins (d.handle r) (e.handle r) := by
  have hscene := h.scene
  cases r with
  | key k modifiers => exact h.onGrid (Scene.lockstep_twins.key hscene k modifiers)
  | press p extend => exact h.onGrid (Scene.lockstep_twins.press_at hscene p extend)
  | drag p => exact h.onGrid (Scene.lockstep_twins.drag hscene p)
  | release =>
      exact .ok ⟨hscene.of_grids
        ⟨hscene.left.listeners, hscene.left.source, hscene.left.moving⟩
        ⟨hscene.right.listeners, hscene.right.source, hscene.right.moving⟩ hscene.cursor
        hscene.sheet rfl hscene.overlay, h.clipboard⟩
  | doubleClick => exact h.onGrid (Scene.lockstep_twins.doubleClick hscene)
  | jumpTo addr =>
      have hcleared : Twins (d.mapGrid (·.clearSelection)) (e.mapGrid (·.clearSelection)) :=
        ⟨Scene.lockstep_twins.clearSelection hscene, h.clipboard⟩
      exact hcleared.onGrid (Scene.lockstep_twins.setCursor hcleared.scene addr none none)
  | copy => exact h.copySelection
  | paste =>
      have haddr : d.view.grid.cursor.addr = e.view.grid.cursor.addr :=
        congrArg Cursor.addr hscene.cursor
      unfold Desk.handle
      dsimp only
      rw [h.clipboard, haddr]
      cases e.view.clipboard with
      | none => exact .ok h
      | some bytes =>
          refine (PatchStore.write_alike hscene.patches e.view.grid.cursor.addr bytes).bind ?_
          intro x y hreply
          exact .ok ⟨⟨hscene.left, hscene.right, hscene.cursor, hscene.sheet, hscene.pressed,
            hscene.overlay, hscene.smart, hscene.image, hscene.items, hreply.set⟩, h.clipboard⟩
  | _ => cases hr

end Twins

/-! ## The second stage -/

/-- From `d` to `d'` the view has renewed what it paints, nobody else has selected anything, and
nothing else has changed. -/
structure Settles (d d' : Desk) : Prop where
  view : d'.view = { d.view with
    published := d'.view.published
    grid := { d.view.grid with blink := d'.view.grid.blink, overlay := d'.view.grid.overlay } }
  project : d'.project = { d.project with patches := { d.project.patches with
    changes := d'.project.patches.changes } }
  painted : d'.view.grid.Painted
  classification : d'.view.grid.overlay.classification = d.view.grid.overlay.classification
  synchronized : d'.view.grid.overlay.synchronized = []
  patches : d'.view.grid.overlay.patches = d'.project.patchRegions

/-- A view that shows things as they are has nothing to renew. -/
theorem settles_self (hpainted : d.view.grid.Painted)
    (hsync : d.view.grid.overlay.synchronized = [])
    (hpatches : d.view.grid.overlay.patches = d.project.patchRegions) : Settles d d :=
  ⟨rfl, rfl, hpainted, rfl, hsync, hpatches⟩

theorem settles_pumped (h : d.view.InStep d.project d.group)
    (htarget : ∀ addr, d.target? = some addr → addr = d.view.grid.cursor.addr)
    (hothers : d.group.rangesExcept d.view.member = []) : Settles d d.pumped := by
  obtain ⟨hseated, hcurrent, -⟩ := pumped_spec h
  have hrenews := renews_renewed d
  have hstays := pumped_of_target htarget
  refine ⟨?_, ?_, hseated.painted, ?_, ?_, hcurrent.patches⟩
  · rw [hstays, publishSelection_view, hrenews.view]
  · rw [project_pumped]
  · rw [hstays, publishSelection_grid]
    exact hrenews.classification
  · rw [hcurrent.synchronized]
    unfold View.foreignRegions
    rw [(leads_pumped d).member, rangesExcept_pumped, hothers]
    rfl

/-- Twins are twins again after both have renewed what they paint. -/
theorem Twins.settle (h : Twins d e) (hd : Settles d d') (he : Settles e e') : Twins d' e' := by
  have hscene := h.scene
  have hcursor : d'.view.grid.cursor = e'.view.grid.cursor := by
    rw [hd.view, he.view]
    exact hscene.cursor
  have hset : d'.project.patches.set = e'.project.patches.set := by
    rw [hd.project, he.project]
    exact hscene.patches
  have hclassification : d'.view.grid.overlay.classification =
      e'.view.grid.overlay.classification := by
    rw [hd.classification, he.classification]
    exact congrArg Overlay.classification hscene.overlay
  have hpatches : d'.view.grid.overlay.patches = e'.view.grid.overlay.patches := by
    rw [hd.patches, he.patches]
    exact View.patchRegions_congr hset
  have hsync : d'.view.grid.overlay.synchronized = e'.view.grid.overlay.synchronized :=
    hd.synchronized.trans he.synchronized.symm
  -- what is painted is made of the cursor and the three kinds of regions
  have hpainted : d'.view.grid.overlay.painted = e'.view.grid.overlay.painted := by
    rw [hd.painted.eq, he.painted.eq, hcursor, hclassification, hpatches, hsync]
  refine ⟨⟨?_, ?_, hcursor, ?_, ?_, ?_, ?_, ?_, ?_, hset⟩, ?_⟩
  · rw [Desk.scene, hd.view]
    exact ⟨hscene.left.listeners, hscene.left.source, hscene.left.moving⟩
  · rw [Desk.scene, he.view]
    exact ⟨hscene.right.listeners, hscene.right.source, hscene.right.moving⟩
  · rw [Desk.scene, Desk.scene, hd.view, he.view]
    exact hscene.sheet
  · rw [Desk.scene, Desk.scene, hd.view, he.view]
    exact hscene.pressed
  · change d'.view.grid.overlay = e'.view.grid.overlay
    cases hleft : d'.view.grid.overlay
    cases hright : e'.view.grid.overlay
    simp_all
  · rw [Desk.scene, Desk.scene, hd.view, he.view]
    exact hscene.smart
  · rw [Desk.scene, Desk.scene, hd.project, he.project]
    exact hscene.image
  · rw [Desk.scene, Desk.scene, hd.project, he.project]
    exact hscene.items
  · rw [hd.view, he.view]
    exact h.clipboard

end Desk

end HexEditor
