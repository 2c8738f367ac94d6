import HexEditor.Proofs.Grid.Refusal
import HexEditor.Proofs.Plane.Cell
import HexEditor.Proofs.View.Tended

/-!
# Whether a grid has the keyboard

The grid of a view is told when the keyboard comes to it and when the keyboard goes away, and its
cursor blinks in between (`Grid.InFocus`).  Nothing else that is done with a view changes that:
keys, the pointer, replies of the store and pumping restart the blinking at most.  That rests on
the listeners of the grid, since a listener with a script may do anything to it.

A press on a view whose grid is as the view has made it has an outcome (`Desk.exists_press`).
-/

namespace HexEditor

/-- The grid of a view has the keyboard, or has it not, and its cursor blinks if it has. -/
structure Grid.InFocus (on : Bool) (g : Grid) : Prop where
  listeners : g.listeners = [.viewUpkeep]
  focused : g.focused = on
  running : g.blink.running = on

namespace Grid.InFocus

variable {g g' : Grid} {on : Bool}

/-- Only the listeners and the keyboard matter. -/
theorem congr (h : g.InFocus on) (hlisteners : g'.listeners = g.listeners)
    (hfocused : g'.focused = g.focused) (hrunning : g'.blink.running = g.blink.running) :
    g'.InFocus on :=
  ⟨hlisteners.trans h.listeners, hfocused.trans h.focused, hrunning.trans h.running⟩

theorem focusIn (h : g.InFocus on) (now : Nat) : (g.focusIn now).InFocus true :=
  ⟨h.listeners, rfl, rfl⟩

theorem focusOut (h : g.InFocus on) : g.focusOut.InFocus false := ⟨h.listeners, rfl, rfl⟩

theorem setMetrics (h : g.InFocus on) (metrics : CellMetrics) : (g.setMetrics metrics).InFocus on := by
  unfold Grid.setMetrics
  split
  · exact h
  · exact h.congr rfl rfl rfl

theorem setAlwaysShow (h : g.InFocus on) (always : Bool) : (g.setAlwaysShow always).InFocus on := by
  refine h.congr rfl rfl ?_
  unfold Grid.setAlwaysShow Blink.setAlwaysShow
  dsimp only
  split <;> rfl

end Grid.InFocus

namespace Scene

variable {s t : Scene} {on : Bool}

/-! ## Keys and the pointer -/

/-- A move restarts the blinking of a cursor that blinks. -/
theorem placing_inFocus (h : s.grid.InFocus on) (addr : Nat) (pane : Option Pane)
    (nibble : Option Nibble) : (s.placing addr pane nibble).grid.InFocus on := by
  refine ⟨h.listeners, h.focused, ?_⟩
  unfold placing mapGrid
  dsimp only
  split
  · next hfocused => exact hfocused.symm.trans h.focused
  · exact h.running

theorem dispatch_inFocus (hdispatch : dispatch s = .ok t) (h : s.grid.InFocus on) :
    t.grid.InFocus on := by
  obtain rfl := Except.ok.inj ((dispatch_eq h.listeners).symm.trans hdispatch)
  exact h.congr rfl rfl rfl

theorem Step.inFocus (hstep : Step dispatch s t) (h : s.grid.InFocus on) : t.grid.InFocus on := by
  cases hstep with
  | press on => exact h.congr rfl rfl rfl
  | beginSelection => exact h.congr rfl rfl rfl
  | clearSelection => exact h.congr rfl rfl rfl
  | write hwrite =>
      obtain ⟨source, patches, rfl⟩ := write_frame hwrite
      exact h.congr rfl rfl rfl
  | @setCursor addr pane nibble _ _ hset =>
      have hplacing := placing_inFocus h addr pane nibble
      cases placed hset with
      | refused => exact h
      | stayed => exact hplacing.congr rfl rfl rfl
      | moved _ _ _ hnotify =>
          have hmarked : (s.placing addr pane nibble).grid.updateActive.InFocus on :=
            hplacing.congr rfl rfl rfl
          exact (dispatch_inFocus hnotify hmarked).congr rfl rfl rfl

theorem Handles.inFocus (hhandles : Handles dispatch s t) (h : s.grid.InFocus on) :
    t.grid.InFocus on :=
  hhandles.keeps (P := fun u => u.grid.InFocus on) Step.inFocus h

theorem exists_press_upkept (h : s.grid.Upkept) (hrows : s.grid.sheet.RowsFit) (p : Point)
    (extend : Bool) : ∃ b t, s.press p extend = .ok (b, t) ∧ t.grid.Upkept := by
  obtain ⟨hit, hhit⟩ := hrows.exists_hit p
  unfold press pressWith
  rw [hhit, Checked.ok_bind]
  cases hit with
  | none => exact ⟨_, _, rfl, h⟩
  | some cell =>
      obtain ⟨addr, pane⟩ := cell
      let held := s.mapGrid fun g => { g with pressed := true }.anchorFor extend
      have hheld : held.grid.Upkept :=
        ⟨(Grid.anchorFor_frame _ extend).2.2.trans h.listeners,
          (anchorFor_moving _ extend).trans h.moving⟩
      change ∃ b t, held.setCursor addr (some pane) none = .ok (b, t) ∧ _
      rw [setCursor_eq hheld]
      split
      · next hin => exact ⟨_, _, rfl, (Kept.of_moved hin _ _).upkept hheld⟩
      · exact ⟨_, _, rfl, hheld⟩

end Scene

namespace Desk

variable {d e : Desk} {on b : Bool} {α : Type}

/-- The view has the keyboard, or has it not. -/
abbrev InFocus (on : Bool) (d : Desk) : Prop := d.view.grid.InFocus on

/-! ## Pumping -/

theorem pump_inFocus (h : d.InFocus on) (hpump : d.pump = .ok (b, e)) : e.InFocus on := by
  obtain ⟨s, hhandles, rfl⟩ := gone_of_pump hpump
  have hrenewed : d.renewed.InFocus on :=
    renew_grid_keeps (P := Grid.InFocus on) (d := d.emptyInboxes) h
      (fun hg _ => hg.congr rfl rfl rfl) (fun hg always => hg.setAlwaysShow always)
      fun hg _ _ => hg.congr rfl rfl rfl
  unfold InFocus
  rw [publishSelection_grid]
  exact hhandles.inFocus hrenewed

theorem onGridThenPump_inFocus {op : Scene → Checked (α × Scene)} {answer : α} (h : d.InFocus on)
    (hop : ∀ a s, op d.scene = .ok (a, s) → Scene.Handles Scene.dispatch d.scene s)
    (hdone : d.onGridThenPump op = .ok (answer, e)) : e.InFocus on := by
  obtain ⟨⟨a, d'⟩, hgrid, hrest⟩ := Checked.bind_eq_ok_iff.1 hdone
  obtain ⟨⟨a', s⟩, hscene, hplaced⟩ := Checked.bind_eq_ok_iff.1 hgrid
  obtain ⟨⟨b', e'⟩, hpump, hanswer⟩ := Checked.bind_eq_ok_iff.1 hrest
  obtain ⟨-, rfl⟩ := Prod.mk.inj (Except.ok.inj hplaced)
  obtain ⟨-, rfl⟩ := Prod.mk.inj (Except.ok.inj hanswer)
  refine pump_inFocus ?_ hpump
  exact (hop _ _ hscene).inFocus h

theorem key_inFocus {k : Key} {modifiers : Modifiers} (h : d.InFocus on)
    (hdone : d.key k modifiers = .ok (b, e)) : e.InFocus on :=
  onGridThenPump_inFocus h (fun _ _ => Scene.handles_of_rel
    ((Scene.lockstep_handles Scene.dispatch d.scene).key ⟨rfl, .refl d.scene⟩ k modifiers)) hdone

theorem press_inFocus {p : Point} {extend : Bool} (h : d.InFocus on)
    (hdone : d.press p extend = .ok (b, e)) : e.InFocus on :=
  onGridThenPump_inFocus h (fun _ _ => Scene.handles_of_rel
    ((Scene.lockstep_handles Scene.dispatch d.scene).press_at ⟨rfl, .refl d.scene⟩ p extend)) hdone

/-- Pressing the pointer on a view has an outcome. -/
theorem exists_press (h : d.view.grid.Upkept) (hrows : d.view.grid.sheet.RowsFit) (p : Point)
    (extend : Bool) : ∃ b e, d.press p extend = .ok (b, e) := by
  obtain ⟨b, s, hpress, hs⟩ := Scene.exists_press_upkept (s := d.scene) h hrows p extend
  obtain ⟨b', hpump⟩ := pump_eq (d := d.withScene s) hs
  refine ⟨b, (d.withScene s).pumped, ?_⟩
  unfold press onGridThenPump onGrid
  dsimp only
  rw [hpress]
  dsimp only [Checked.ok_bind, Checked.pure_eq_ok]
  rw [hpump]
  rfl

theorem drag_inFocus {p : Point} (h : d.InFocus on) (hdone : d.drag p = .ok (b, e)) :
    e.InFocus on :=
  onGridThenPump_inFocus h (fun _ _ => Scene.handles_of_rel
    ((Scene.lockstep_handles Scene.dispatch d.scene).drag ⟨rfl, .refl d.scene⟩ p)) hdone

theorem doubleClick_inFocus (h : d.InFocus on) (hdone : d.doubleClick = .ok (b, e)) :
    e.InFocus on :=
  onGridThenPump_inFocus h (fun _ _ => Scene.handles_of_rel
    ((Scene.lockstep_handles Scene.dispatch d.scene).doubleClick ⟨rfl, .refl d.scene⟩)) hdone

theorem jumpTo_inFocus {addr : Nat} (h : d.InFocus on) (hdone : d.jumpTo addr = .ok (b, e)) :
    e.InFocus on := by
  have hcleared : (d.mapGrid (·.clearSelection)).InFocus on := h.congr rfl rfl rfl
  exact onGridThenPump_inFocus hcleared
    (fun _ _ hset => (Scene.Handles.refl _).tail (.setCursor hset)) hdone

theorem clearThenPump_inFocus (h : d.InFocus on)
    (hdone : (d.mapGrid (·.clearSelection)).pump = .ok (b, e)) : e.InFocus on := by
  have hcleared : (d.mapGrid (·.clearSelection)).InFocus on := h.congr rfl rfl rfl
  exact pump_inFocus hcleared hdone

/-! ## Editing -/

theorem afterReply_inFocus {reply : PatchStore.Reply α} {answer : Except PatchError α}
    (h : d.InFocus on) (hdone : d.afterReply reply = .ok (answer, e)) : e.InFocus on := by
  obtain ⟨⟨b', e'⟩, hpump, hanswer⟩ := Checked.bind_eq_ok_iff.1 hdone
  obtain ⟨-, rfl⟩ := Prod.mk.inj (Except.ok.inj hanswer)
  exact pump_inFocus (d := { d with project := { d.project with patches := reply.store } }) h hpump

theorem copySelection_inFocus {n : Nat} (h : d.InFocus on)
    (hdone : d.copySelection = .ok (n, e)) : e.InFocus on := by
  obtain ⟨clipboard, rfl⟩ := copySelection_eq hdone
  exact h

theorem paste_inFocus {answer : Except PatchError Unit} (h : d.InFocus on)
    (hdone : d.paste = .ok (answer, e)) : e.InFocus on := by
  unfold paste at hdone
  cases hclip : d.view.clipboard with
  | none =>
      rw [hclip] at hdone
      obtain ⟨-, rfl⟩ := Prod.mk.inj (Except.ok.inj hdone)
      exact h
  | some bytes =>
      rw [hclip] at hdone
      obtain ⟨reply, -, hreply⟩ := Checked.bind_eq_ok_iff.1 hdone
      exact afterReply_inFocus h hreply

theorem mergeSelected_inFocus {answer : Except PatchError Bool} (h : d.InFocus on)
    (hdone : d.mergeSelected = .ok (answer, e)) : e.InFocus on := by
  obtain ⟨runs, -, hdone⟩ := Checked.bind_eq_ok_iff.1 hdone
  obtain ⟨reply, -, hdone⟩ := Checked.bind_eq_ok_iff.1 hdone
  obtain ⟨answer, hreply⟩ := Checked.exists_of_return_map_fst hdone
  exact afterReply_inFocus h hreply

theorem revertSelected_inFocus {answer : Except PatchError Nat} (h : d.InFocus on)
    (hdone : d.revertSelected = .ok (answer, e)) : e.InFocus on := by
  obtain ⟨answer, hreply⟩ := Checked.exists_of_return_map_fst hdone
  exact afterReply_inFocus h hreply

theorem activate_inFocus {action : ViewAction} {answer : Except PatchError Unit}
    (h : d.InFocus on) (hdone : d.activate action = .ok (answer, e)) : e.InFocus on := by
  cases action with
  | copy =>
      obtain ⟨⟨n, d'⟩, hcopy, hrest⟩ := Checked.bind_eq_ok_iff.1 hdone
      obtain ⟨⟨b', e'⟩, hpump, hanswer⟩ := Checked.bind_eq_ok_iff.1 hrest
      obtain ⟨-, rfl⟩ := Prod.mk.inj (Except.ok.inj hanswer)
      exact pump_inFocus (copySelection_inFocus h hcopy) hpump
  | paste => exact paste_inFocus h hdone
  | split addr cut =>
      obtain ⟨reply, -, hreply⟩ := Checked.bind_eq_ok_iff.1 hdone
      exact afterReply_inFocus h hreply
  | editComment addr => exact afterReply_inFocus h hdone
  | setComment addr comment => exact afterReply_inFocus h hdone
  | revert addr =>
      obtain ⟨answer, hreply⟩ := Checked.exists_of_return_map_fst hdone
      exact afterReply_inFocus h hreply
  | mergeSelected =>
      obtain ⟨answer, hmerge⟩ := Checked.exists_of_return_map_fst hdone
      exact mergeSelected_inFocus h hmerge
  | revertSelected =>
      obtain ⟨answer, hrevert⟩ := Checked.exists_of_return_map_fst hdone
      exact revertSelected_inFocus h hrevert

end Desk

/-! ## All requests -/

/-- Whether the request tells the grid that the keyboard comes or goes. -/
def ViewRequest.refocuses : ViewRequest → Bool
  | .focusIn _ | .focusOut => true
  | _ => false

namespace Desk

variable {d e : Desk} {on : Bool} {r : ViewRequest}

theorem release_inFocus (h : d.InFocus on) : d.release.InFocus on := h.congr rfl rfl rfl

theorem tick_inFocus (h : d.InFocus on) (now : Nat) : (d.tick now).2.InFocus on :=
  h.congr rfl rfl (Blink.tick_keeps _ now).1

/-- No other request changes whether the view has the keyboard. -/
theorem perform_inFocus (h : d.InFocus on) (hr : r.refocuses = false)
    (hdone : d.perform r = .ok e) : e.InFocus on := by
  cases r with
  | key k modifiers =>
      obtain ⟨b, hkey⟩ := Checked.exists_of_return_snd hdone
      exact key_inFocus h hkey
  | press p extend =>
      obtain ⟨b, hpress⟩ := Checked.exists_of_return_snd hdone
      exact press_inFocus h hpress
  | drag p =>
      obtain ⟨b, hdrag⟩ := Checked.exists_of_return_snd hdone
      exact drag_inFocus h hdrag
  | release =>
      obtain rfl := Except.ok.inj hdone
      exact release_inFocus h
  | doubleClick =>
      obtain ⟨b, hclick⟩ := Checked.exists_of_return_snd hdone
      exact doubleClick_inFocus h hclick
  | jumpTo addr =>
      obtain ⟨b, hjump⟩ := Checked.exists_of_return_snd hdone
      exact jumpTo_inFocus h hjump
  | focusIn now => cases hr
  | focusOut => cases hr
  | tick now =>
      obtain rfl := Except.ok.inj hdone
      exact tick_inFocus h now
  | setSmart on =>
      obtain rfl := Except.ok.inj hdone
      exact h.congr rfl rfl rfl
  | copy =>
      obtain ⟨n, hcopy⟩ := Checked.exists_of_return_snd hdone
      exact copySelection_inFocus h hcopy
  | paste =>
      obtain ⟨answer, hpaste⟩ := Checked.exists_of_return_snd hdone
      exact paste_inFocus h hpaste
  | mergeSelected =>
      obtain ⟨answer, hmerge⟩ := Checked.exists_of_return_snd hdone
      exact mergeSelected_inFocus h hmerge
  | revertSelected =>
      obtain ⟨answer, hrevert⟩ := Checked.exists_of_return_snd hdone
      exact revertSelected_inFocus h hrevert
  | activate action =>
      obtain ⟨answer, hact⟩ := Checked.exists_of_return_snd hdone
      exact activate_inFocus h hact
  | pump =>
      obtain ⟨b, hpump⟩ := Checked.exists_of_return_snd hdone
      exact pump_inFocus h hpump

/-- A new view has not got the keyboard. -/
theorem openView_inFocus {p : Project} {g : SyncGroup} {options : ViewOptions} {now : Nat}
    (hopen : openView p g options now = .ok d) : d.InFocus false := by
  obtain ⟨region, -, hopen⟩ := Checked.bind_eq_ok_iff.1 hopen
  obtain ⟨grid, hgrid, hret⟩ := Checked.bind_eq_ok_iff.1 hopen
  obtain rfl := Except.ok.inj hret
  obtain ⟨sheet, -, rfl⟩ := Scene.setRegion_cursor hgrid
  have hcreated : ∀ cursor overlay, Grid.InFocus false ({
      ((Grid.create options.metrics).setBlinkInterval options.blinkInterval) with
      sheet, source := some .project, cursor, overlay }.listen .viewUpkeep) :=
    fun _ _ => ⟨rfl, rfl, rfl⟩
  exact ((hcreated _ _).setAlwaysShow _).congr rfl rfl rfl

end Desk

end HexEditor
