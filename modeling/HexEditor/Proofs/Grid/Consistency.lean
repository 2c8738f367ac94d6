import HexEditor.Proofs.Grid.Given

/-!
# A grid stays consistent

The parts of a grid say some things twice: the cursor knows the bounds of the sheet, the painted
list repeats the three lists with the marks of the current span, and whether the cursor is shown
repeats the focus.  Every command keeps all of that in order, also while a move is under way and
the listeners are at work, so that it is enough to know the same of whoever is told about the
move (`Performed.orderly`).  After a whole command no move is under way any more, and that is what
a run of commands leaves behind, whatever its listeners did (`run_consistent`).
-/

namespace HexEditor

/-! ## The painted list -/

/-- The painted regions are those of the three lists, with the marks of a span. -/
def Overlay.Marked (o : Overlay) (span : Span) : Prop :=
  o.painted = (o.classification ++ o.synchronized ++ o.patches).map (Region.mark span)

/-- A new span only changes the marks. -/
theorem Overlay.Marked.remark {o : Overlay} {old : Span} (h : o.Marked old) (span : Span) :
    (o.updateActive span).Marked span := by
  change o.painted.map (Region.mark span) = _
  rw [h, List.map_map]
  rfl

/-- The blink timer ticks without starting or stopping. -/
theorem Blink.tick_keeps (b : Blink) (now : Nat) :
    (b.tick now).2.running = b.running ∧ (b.tick now).2.shown = b.shown ∧
      (b.tick now).2.alwaysShow = b.alwaysShow := by
  unfold tick
  split
  · exact ⟨rfl, rfl, rfl⟩
  · split
    · exact ⟨rfl, rfl, rfl⟩
    · dsimp only
      split <;> exact ⟨rfl, rfl, rfl⟩

namespace Grid

/-- What holds of a grid at any time. -/
structure Orderly (g : Grid) : Prop where
  bounds : g.cursor.start = g.sheet.start ∧ g.cursor.stop = g.sheet.stop
  cursor_mem : g.sheet.start < g.sheet.stop → g.sheet.contains g.cursor.addr = true
  anchor_mem : g.sheet.start < g.sheet.stop →
    ∀ anchor, g.cursor.anchor = some anchor → g.sheet.contains anchor = true
  painted : g.overlay.painted =
    (g.overlay.classification ++ g.overlay.synchronized ++ g.overlay.patches).map
      (Region.mark g.cursor.span)
  running : g.blink.running = g.focused
  shown : g.blink.shown = (g.focused || g.blink.alwaysShow)

/-- What holds of a grid between commands. -/
structure Consistent (g : Grid) : Prop extends g.Orderly where
  still : g.cursor.moving = false

namespace Orderly

variable {g : Grid} {cursor : Cursor}

theorem create (metrics : CellMetrics) : (Grid.create metrics).Orderly :=
  ⟨⟨rfl, rfl⟩, fun h => absurd h (Nat.lt_irrefl 0), fun h => absurd h (Nat.lt_irrefl 0), rfl, rfl,
    rfl⟩

/-- What is not said twice can change freely. -/
theorem congr (h : g.Orderly) {g' : Grid} (hregion : g'.sheet.start = g.sheet.start ∧
      g'.sheet.stop = g.sheet.stop)
    (hcursor : g'.cursor = g.cursor) (hoverlay : g'.overlay = g.overlay)
    (hblink : g'.blink = g.blink) (hfocused : g'.focused = g.focused) : g'.Orderly := by
  have hcontains : g'.sheet.contains = g.sheet.contains := by
    funext addr
    unfold Sheet.contains
    rw [hregion.1, hregion.2]
  refine ⟨?_, ?_, ?_, ?_, ?_, ?_⟩
  · rw [hcursor, hregion.1, hregion.2]
    exact h.bounds
  · rw [hregion.1, hregion.2, hcontains, hcursor]
    exact h.cursor_mem
  · rw [hregion.1, hregion.2, hcontains, hcursor]
    exact h.anchor_mem
  · rw [hoverlay, hcursor]
    exact h.painted
  · rw [hblink, hfocused]
    exact h.running
  · rw [hblink, hfocused]
    exact h.shown

/-- Another cursor within the same bounds needs other marks. -/
theorem with_cursor (h : g.Orderly) (hbounds : cursor.start = g.cursor.start ∧
      cursor.stop = g.cursor.stop)
    (hcursor : g.sheet.start < g.sheet.stop → g.sheet.contains cursor.addr = true)
    (hanchor : g.sheet.start < g.sheet.stop →
      ∀ anchor, cursor.anchor = some anchor → g.sheet.contains anchor = true) :
    ({ g with cursor }.updateActive).Orderly where
  bounds := ⟨hbounds.1.trans h.bounds.1, hbounds.2.trans h.bounds.2⟩
  cursor_mem := hcursor
  anchor_mem := hanchor
  painted := Overlay.Marked.remark h.painted cursor.span
  running := h.running
  shown := h.shown

/-- Another cursor with the same span needs no other marks. -/
theorem of_span (h : g.Orderly) (hbounds : cursor.start = g.cursor.start ∧
      cursor.stop = g.cursor.stop)
    (haddr : cursor.addr = g.cursor.addr) (hanchor : cursor.anchor = g.cursor.anchor) :
    Orderly { g with cursor } where
  bounds := ⟨hbounds.1.trans h.bounds.1, hbounds.2.trans h.bounds.2⟩
  cursor_mem hne := haddr ▸ h.cursor_mem hne
  anchor_mem hne := hanchor ▸ h.anchor_mem hne
  painted := by
    have hspan : cursor.span = g.cursor.span := by
      simp only [Cursor.span, Cursor.selection?, haddr, hanchor]
    change g.overlay.painted = _
    rw [h.painted, hspan]
  running := h.running
  shown := h.shown

theorem with_overlay (h : g.Orderly) {overlay : Overlay}
    (hoverlay : overlay.Marked g.cursor.span) : Orderly { g with overlay } :=
  ⟨h.bounds, h.cursor_mem, h.anchor_mem, hoverlay, h.running, h.shown⟩

theorem with_blink (h : g.Orderly) {blink : Blink} {focused : Bool}
    (hrunning : blink.running = focused) (hshown : blink.shown = (focused || blink.alwaysShow)) :
    Orderly { g with blink, focused } :=
  ⟨h.bounds, h.cursor_mem, h.anchor_mem, h.painted, hrunning, hshown⟩

/-- A move begins a new interval where the timer runs. -/
theorem blink_of_focus (h : g.Orderly) (now : Nat) :
    Orderly { g with blink := if g.focused then g.blink.restart now else g.blink } := by
  refine h.with_blink ?_ ?_
  · split
    · next hon => exact hon.symm
    · exact h.running
  · split <;> exact h.shown

theorem beginSelection (h : g.Orderly) : g.beginSelection.Orderly := by
  refine h.with_cursor ⟨rfl, rfl⟩ h.cursor_mem ?_
  rintro hne _ ⟨⟩
  exact h.cursor_mem hne

theorem clearSelection (h : g.Orderly) : g.clearSelection.Orderly :=
  h.with_cursor ⟨rfl, rfl⟩ h.cursor_mem nofun

theorem setRegion (h : g.Orderly) {source : ByteSource} {start size : Nat} {grid : Grid}
    (hregion : g.setRegion source start size = .ok grid) : grid.Orderly := by
  obtain ⟨sheet, -, rfl⟩ := Scene.setRegion_cursor hregion
  refine ⟨⟨rfl, rfl⟩, ?_, fun _ => nofun, Overlay.Marked.remark h.painted _, h.running, h.shown⟩
  intro hne
  have hlt : sheet.start < sheet.stop := hne
  change (decide (sheet.start ≤ sheet.start) && decide (sheet.start < sheet.stop)) = true
  simpa using hlt

theorem tick (h : g.Orderly) (now : Nat) : (g.tick now).2.Orderly := by
  obtain ⟨hrunning, hshown, halways⟩ := g.blink.tick_keeps now
  have hlast := hshown.trans h.shown
  rw [← halways] at hlast
  exact h.with_blink (hrunning.trans h.running) hlast

theorem setAlwaysShow (h : g.Orderly) (on : Bool) : (g.setAlwaysShow on).Orderly := by
  refine h.with_blink ?_ ?_
  · unfold Blink.setAlwaysShow
    split <;> exact h.running
  · have hrunning := h.running
    have hshown := h.shown
    unfold Blink.setAlwaysShow
    split
    · next hon =>
        rw [hon] at hrunning
        rw [← hrunning] at hshown ⊢
        exact hshown
    · next hoff =>
        rw [Bool.not_eq_true] at hoff
        rw [hoff] at hrunning
        rw [← hrunning]
        rfl

/-- A change of the grid keeps it in order. -/
theorem change (h : g.Orderly) {c : Command} {f : Grid → Grid} (hf : c.change? = some f) :
    (f g).Orderly := by
  cases c with
  | setMetrics metrics =>
      cases hf
      simp only [Grid.setMetrics]
      split
      · exact h
      · exact h.congr ⟨rfl, rfl⟩ rfl rfl rfl rfl
  | release => cases hf; exact h.congr ⟨rfl, rfl⟩ rfl rfl rfl rfl
  | beginSelection => cases hf; exact h.beginSelection
  | clearSelection => cases hf; exact h.clearSelection
  | focusIn now => cases hf; exact h.with_blink rfl rfl
  | focusOut =>
      cases hf
      have hblink : Orderly { g with blink := g.blink.focusOut, focused := false } :=
        h.with_blink rfl rfl
      exact hblink.congr ⟨rfl, rfl⟩ rfl rfl rfl rfl
  | tick now => cases hf; exact h.tick now
  | setAlwaysShow on => cases hf; exact h.setAlwaysShow on
  | setBlinkInterval interval => cases hf; exact h.with_blink h.running h.shown
  | setClassification regions => cases hf; exact h.with_overlay rfl
  | setSynchronized regions => cases hf; exact h.with_overlay rfl
  | setPatches regions => cases hf; exact h.with_overlay rfl
  | listen name script => cases hf; exact h.congr ⟨rfl, rfl⟩ rfl rfl rfl rfl
  | _ => cases hf

end Orderly

end Grid

namespace Scene

variable {notify : Notify} {s t : Scene}

/-! ## Commands -/

theorem placing_orderly (h : s.grid.Orderly) {addr : Nat} (pane : Option Pane)
    (nibble : Option Nibble) (hin : s.grid.cursor.inBounds addr = true) :
    ((s.placing addr pane nibble).mapGrid (·.updateActive)).grid.Orderly := by
  have hblink := h.blink_of_focus s.around.now
  refine hblink.with_cursor ⟨rfl, rfl⟩ (fun _ => ?_) h.anchor_mem
  change (decide (s.grid.sheet.start ≤ addr) && decide (addr < s.grid.sheet.stop)) = true
  rw [← h.bounds.1, ← h.bounds.2]
  exact hin

theorem Step.orderly (hnotify : ∀ {u v}, notify u = .ok v → u.grid.Orderly → v.grid.Orderly)
    (hstep : Step notify s t) (h : s.grid.Orderly) : t.grid.Orderly := by
  cases hstep with
  | press on => exact h.congr ⟨rfl, rfl⟩ rfl rfl rfl rfl
  | beginSelection => exact h.beginSelection
  | clearSelection => exact h.clearSelection
  | write hwrite =>
      obtain ⟨source, patches, rfl⟩ := write_frame hwrite
      exact h.congr ⟨rfl, rfl⟩ rfl rfl rfl rfl
  | setCursor hset =>
      cases placed hset with
      | refused => exact h
      | stayed hin _ haddr =>
          have hblink := h.blink_of_focus s.around.now
          exact hblink.of_span ⟨rfl, rfl⟩ haddr.symm rfl
      | moved hin _ _ hu =>
          exact (hnotify hu (placing_orderly h _ _ hin)).of_span ⟨rfl, rfl⟩ rfl rfl

/-- A command keeps the grid in order, as far as whoever is told about its moves does. -/
theorem Performed.orderly (hnotify : ∀ {u v}, notify u = .ok v → u.grid.Orderly → v.grid.Orderly)
    {c : Command} (hc : Performed notify s c t) (h : s.grid.Orderly) : t.grid.Orderly := by
  cases hc with
  | handled _ hhandles =>
      exact hhandles.keeps (P := fun u => u.grid.Orderly) (Step.orderly hnotify) h
  | region hregion => exact h.setRegion hregion
  | changed hf => exact h.change hf
  | looked => exact h
  | logTaken => exact h

/-- The listeners keep what every command that cannot move the cursor keeps, if it does not depend
on what is highlighted nor on who listens. -/
theorem dispatch_keeps {P : Grid → Prop}
    (hperformed : ∀ {u v : Scene} {c : Command}, Performed .never u c v → P u.grid → P v.grid)
    (hupkeep : ∀ {g : Grid} (regions : List Region), P g → P (g.setClassification regions))
    (hlisteners : ∀ {g : Grid} (listeners : List Listener), P g → P { g with listeners })
    (hdispatch : dispatch s = .ok t) (h : P s.grid) : P t.grid := by
  obtain ⟨u, hu, hret⟩ := Checked.bind_eq_ok_iff.1 hdispatch
  obtain rfl := Except.ok.inj hret
  have hcall : ∀ {v w : Scene} {l : Listener}, l ∈ s.grid.listeners → v.call l = .ok w →
      P v.grid → P w.grid := by
    intro v w l _ hw hv
    cases l with
    | viewUpkeep =>
        obtain rfl := Except.ok.inj hw
        exact hupkeep _ hv
    | script name commands =>
        obtain ⟨answers, x, hall, rfl⟩ := call_script hw
        have hkept : P x.grid :=
          performAll_keeps (P := fun u => P u.grid) (fun _ hc => hperformed hc) hall hv
        exact hkept
  have hkept := Checked.foldlM_keeps (P := fun u => P u.grid) hcall hu (hlisteners [] h)
  exact hlisteners _ hkept

/-- The listeners keep the grid in order. -/
theorem dispatch_orderly (hdispatch : dispatch s = .ok t) (h : s.grid.Orderly) :
    t.grid.Orderly := by
  refine dispatch_keeps (P := Grid.Orderly) (fun hc hu => ?_) (fun _ hg => hg.with_overlay rfl)
    (fun _ hg => hg.congr ⟨rfl, rfl⟩ rfl rfl rfl rfl) hdispatch h
  refine hc.orderly ?_ hu
  rintro u _ ⟨⟩
  exact id

/-- Whatever is done to a new grid, and whatever its listeners do to it meanwhile, leaves it
consistent, with the regions and the listeners that it was given last. -/
theorem run_consistent {metrics : CellMetrics} {around : Surroundings} {commands : List Command}
    {answers : List Answer}
    (h : performAllWith dispatch { grid := .create metrics, around } commands = .ok (answers, t)) :
    t.grid.Consistent ∧
      Given.Leads { called := around.log.map ListenerCall.name } commands t.given := by
  have hconsistent : t.grid.Consistent := by
    refine performAll_keeps (P := fun u => u.grid.Consistent) ?_ h ⟨.create metrics, rfl⟩
    intro u v c _ hc hu
    exact ⟨hc.orderly dispatch_orderly hu.toOrderly, hc.moving.trans hu.still⟩
  exact ⟨hconsistent, performAll_leads h nofun⟩

/-- A grid with a listener that paints, refuses to be moved, and takes another listener in. -/
theorem run_consistent_painting :
    ∃ answers t, performAllWith dispatch { grid := .create {} }
        [.setRegion .addressPattern 16 4,
          .listen "first" [.setPatches [], .setCursor 16 none none, .listen "second" []],
          .setCursor 18 none none, .focusIn 5] = .ok (answers, t) ∧ t.grid.Consistent := by
  obtain ⟨answers, t, h⟩ : ∃ answers t, performAllWith dispatch { grid := .create {} }
      [.setRegion .addressPattern 16 4,
        .listen "first" [.setPatches [], .setCursor 16 none none, .listen "second" []],
        .setCursor 18 none none, .focusIn 5] = .ok (answers, t) := ⟨_, _, rfl⟩
  exact ⟨answers, t, h, (run_consistent h).1⟩

end Scene

end HexEditor
