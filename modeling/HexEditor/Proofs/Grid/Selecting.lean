import HexEditor.Proofs.Grid.Answering
import HexEditor.Proofs.Grid.Refusal

/-!
# A selection reaches from where it began

The keys, a move by a distance, a press and a drag can each extend a selection.  They set the anchor
at different moments, and the move that follows may be refused, but all of them prepare that move in
the same way: an anchor that is there stays, and where there is none it is set to where the cursor
is (`exists_extended`).  The first of them therefore decides where the selection begins, and however
the cursor goes from there, back across the anchor too, the selection lies between the two
(`Selects.anchor`).

The listeners must not ask anything of the grid while they are called, since a listener may well set
an anchor of its own.
-/

namespace HexEditor

/-- The selection reaches from `a` to the cursor.  It is as long as there are addresses in it, and
its length can be computed: the last address is not before the first one, and the length is at most
that of the region. -/
structure Cursor.SelectsFrom (c : Cursor) (a : Nat) : Prop where
  selection : c.selection? = some (.hull a c.addr)
  ordered : (Span.hull a c.addr).first ≤ (Span.hull a c.addr).last
  count : c.selectedCount = (Span.hull a c.addr).toList.length
  within : c.selectedCount ≤ c.stop - c.start

/-- The anchor of a consistent grid is where its selection begins. -/
theorem Grid.Orderly.selectsFrom {g : Grid} (h : g.Orderly)
    (hregion : g.sheet.start < g.sheet.stop) {a : Nat} (hanchor : g.cursor.anchor = some a) :
    g.cursor.SelectsFrom a := by
  have hselection : g.cursor.selection? = some (.hull a g.cursor.addr) := by
    rw [Cursor.selection?, hanchor, Option.map_some]
  have hordered : (Span.hull a g.cursor.addr).first ≤ (Span.hull a g.cursor.addr).last :=
    Nat.le_trans (Nat.min_le_left ..) (Nat.le_max_left ..)
  have hcount : g.cursor.selectedCount = (Span.hull a g.cursor.addr).count := by
    rw [Cursor.selectedCount, hselection, Option.map_some, Option.getD_some]
  refine ⟨hselection, hordered, ?_, ?_⟩
  · rw [hcount, Span.count, Span.toList, List.length_range']
    omega
  · have hcursor_mem := Sheet.contains_iff.1 (h.cursor_mem hregion)
    have hanchor_mem := Sheet.contains_iff.1 (h.anchor_mem hregion a hanchor)
    rw [hcount, h.bounds.1, h.bounds.2]
    simp only [Span.count, Span.hull]
    omega

namespace Scene

variable {s t u : Scene} {c : Command}

/-! ## Listeners that ask nothing -/

/-- No listener asks anything of the grid when it is called. -/
def Quiet (s : Scene) : Prop := ∀ l ∈ s.grid.listeners, l.commands = []

/-- Such a listener answers, and changes at most what is painted. -/
theorem exists_call {l : Listener} (h : l.commands = []) (s : Scene) :
    ∃ overlay around, s.call l = .ok { grid := { s.grid with overlay }, around } := by
  cases l with
  | viewUpkeep => exact ⟨_, _, rfl⟩
  | script name commands =>
      obtain rfl : commands = [] := h
      exact ⟨s.grid.overlay, _, rfl⟩

/-- A consistent grid with a region that is not empty, and whose listeners ask nothing of it. -/
structure Ready (s : Scene) : Prop where
  consistent : s.grid.Consistent
  region : s.grid.sheet.start < s.grid.sheet.stop
  quiet : s.Quiet

/-! ## A prepared move -/

/-- What is there after a move that extended the selection or ended it: the cursor is at `addr`, and
the pointer is held down or not. -/
structure After (s : Scene) (extend pressed : Bool) (addr : Nat) (t : Scene) : Prop where
  sheet : t.grid.sheet = s.grid.sheet
  quiet : t.Quiet
  pressed : t.grid.pressed = pressed
  anchor : t.grid.cursor.anchor =
    if extend then some (s.grid.cursor.anchor.getD s.grid.cursor.addr) else none
  addr : t.grid.cursor.addr = addr

theorem After.ready {extend pressed : Bool} {addr : Nat} {a : Answer}
    (h : s.After extend pressed addr t) (hs : s.Ready) (hc : s.perform c = .ok (a, t)) :
    t.Ready where
  consistent := perform_consistent hs.consistent hc
  region := by
    rw [h.sheet]
    exact hs.region
  quiet := h.quiet

/-- The scene before a move that extends the selection or ends it. -/
def prepared (s : Scene) (extend pressed : Bool) : Scene :=
  s.mapGrid fun g => { g with pressed }.anchorFor extend

theorem prepared_cursor (s : Scene) (extend pressed : Bool) :
    (s.prepared extend pressed).grid.cursor = { s.grid.cursor with
      anchor := if extend then some (s.grid.cursor.anchor.getD s.grid.cursor.addr) else none } :=
  Grid.anchorFor_cursor _ extend

theorem prepared_after (h : s.Quiet) (extend pressed : Bool) :
    s.After extend pressed s.grid.cursor.addr (s.prepared extend pressed) := by
  obtain ⟨hsheet, hpressed, hlisteners⟩ := { s.grid with pressed }.anchorFor_frame extend
  have hcursor := s.prepared_cursor extend pressed
  refine ⟨hsheet, ?_, hpressed, congrArg Cursor.anchor hcursor, ?_⟩
  · intro l hl
    refine h l ?_
    rw [← hlisteners]
    exact hl
  · rw [hcursor]

/-- A prepared move answers. -/
theorem exists_prepared (h : s.Ready) (extend pressed : Bool) (addr : Nat) (pane : Option Pane)
    (nibble : Option Nibble) :
    ∃ t, (s.prepared extend pressed).setCursor addr pane nibble =
        .ok (s.grid.cursor.inBounds addr, t) ∧
      s.After extend pressed (if s.grid.cursor.inBounds addr then addr else s.grid.cursor.addr)
        t := by
  have hprepared := prepared_after h.quiet extend pressed
  have hcursor := s.prepared_cursor extend pressed
  have hin : (s.prepared extend pressed).grid.cursor.inBounds addr =
      s.grid.cursor.inBounds addr := by
    rw [hcursor]
    rfl
  have hstill : (s.prepared extend pressed).grid.cursor.moving = false := by
    rw [hcursor]
    exact h.consistent.still
  have hcall : ∀ l u, (s.prepared extend pressed).CalledByMove addr pane nibble l u →
      s.After extend pressed addr u → ∃ v, u.call l = .ok v ∧ s.After extend pressed addr v := by
    intro l u hl hu
    obtain ⟨overlay, around, hcalled⟩ := exists_call (hprepared.quiet l hl.called.mem) u
    exact ⟨_, hcalled, hu.sheet, hu.quiet, hu.pressed, hu.anchor, hu.addr⟩
  obtain ⟨t, ht, hend⟩ := exists_setCursor addr pane nibble hstill hcall
    ⟨hprepared.sheet, hprepared.quiet, hprepared.pressed, hprepared.anchor, rfl⟩
    ⟨hprepared.sheet, nofun, hprepared.pressed, hprepared.anchor, rfl⟩
    (fun u hu => ⟨hu.sheet, List.forall_mem_append.2 ⟨hprepared.quiet, hu.quiet⟩, hu.pressed,
      hu.anchor, hu.addr⟩)
  rw [hin] at ht hend
  refine ⟨t, ht, ?_⟩
  split at hend
  · next htaken =>
      rw [if_pos htaken]
      exact hend
  · next hrefused =>
      rw [if_neg hrefused, hend]
      exact hprepared

/-! ## Extending a selection -/

/-- The command extends a selection. -/
inductive Extends (s : Scene) : Command → Prop
  | key {k : Key} {modifiers : Modifiers} {delta : Int} (hk : keyDelta? k = some delta)
      (hshift : modifiers.shift = true) : s.Extends (.key k modifiers)
  | moveBy (delta : Int) : s.Extends (.moveBy delta true)
  | press {p : Point} {target : Nat × Pane} (hhit : s.grid.sheet.hit? p = .ok (some target)) :
      s.Extends (.press p true)
  | drag {p : Point} {target : Nat × Pane} (hpressed : s.grid.pressed = true)
      (hhit : s.grid.sheet.hit? p = .ok (some target)) : s.Extends (.drag p)

/-- The command is a drag that misses: nothing is held down, or the pointer is on no cell. -/
inductive Misses (s : Scene) : Command → Prop
  | released {p : Point} (h : s.grid.pressed = false) : s.Misses (.drag p)
  | nowhere {p : Point} (hhit : s.grid.sheet.hit? p = .ok none) : s.Misses (.drag p)

theorem perform_of_misses (h : s.Misses c) : s.perform c = .ok (.flag false, s) := by
  obtain ⟨p, rfl, hdrag⟩ : ∃ p, c = .drag p ∧ s.dragWith dispatch p = .ok (false, s) := by
    cases h with
    | @released p hpressed =>
        refine ⟨p, rfl, ?_⟩
        unfold dragWith
        rw [hpressed]
        rfl
    | @nowhere p hhit =>
        refine ⟨p, rfl, ?_⟩
        unfold dragWith
        split
        · rfl
        · rw [hhit]
          rfl
  rw [perform, performWith, hdrag]
  rfl

/-- A move by a distance that extends answers, also where there is no address to go to. -/
theorem exists_moveBy (h : s.Ready) (delta : Int) :
    ∃ b addr t, s.moveBy delta true = .ok (b, t) ∧ s.After true s.grid.pressed addr t := by
  have hprepared := prepared_after h.quiet true s.grid.pressed
  cases htarget : target? (s.mapGrid (·.anchorFor true)).grid.cursor.addr delta with
  | none =>
      have hmove : s.moveBy delta true = .ok (false, s.prepared true s.grid.pressed) := by
        unfold moveBy moveByWith
        dsimp only
        rw [htarget]
        rfl
      exact ⟨false, _, _, hmove, hprepared⟩
  | some addr =>
      have hmove : s.moveBy delta true =
          (s.prepared true s.grid.pressed).setCursor addr none none := by
        unfold moveBy moveByWith
        dsimp only
        rw [htarget]
        rfl
      obtain ⟨t, ht, hafter⟩ := exists_prepared h true s.grid.pressed addr none none
      exact ⟨_, _, t, hmove.trans ht, hafter⟩

/-- A drag onto a cell takes the cursor there. -/
theorem exists_drag (h : s.Ready) (hpressed : s.grid.pressed = true) {p : Point} {addr : Nat}
    {pane : Pane} (hhit : s.grid.sheet.hit? p = .ok (some (addr, pane))) :
    ∃ t, s.perform (.drag p) = .ok (.flag true, t) ∧ s.After true s.grid.pressed addr t := by
  have hdrag : s.dragWith dispatch p =
      (s.prepared true s.grid.pressed).setCursor addr (some pane) none := by
    unfold dragWith
    rw [if_neg (by rw [hpressed]; decide), hhit]
    rfl
  obtain ⟨t, ht, hafter⟩ := exists_prepared h true s.grid.pressed addr (some pane) none
  rw [h.consistent.toOrderly.inBounds_of_hit hhit] at ht hafter
  refine ⟨t, ?_, hafter⟩
  rw [perform, performWith, hdrag, ht]
  rfl

/-- A press on a cell takes the cursor there, and the pointer is held down from then on. -/
theorem exists_press (h : s.Ready) (extend : Bool) {p : Point} {addr : Nat} {pane : Pane}
    (hhit : s.grid.sheet.hit? p = .ok (some (addr, pane))) :
    ∃ t, s.perform (.press p extend) = .ok (.flag true, t) ∧ s.After extend true addr t := by
  have hpress : s.pressWith dispatch p extend =
      (s.prepared extend true).setCursor addr (some pane) none := by
    unfold pressWith
    rw [hhit]
    rfl
  obtain ⟨t, ht, hafter⟩ := exists_prepared h extend true addr (some pane) none
  rw [h.consistent.toOrderly.inBounds_of_hit hhit] at ht hafter
  refine ⟨t, ?_, hafter⟩
  rw [perform, performWith, hpress, ht]
  rfl

/-- A command that extends a selection answers.  An anchor stays, and where there is none it is set
to where the cursor is. -/
theorem exists_extended (h : s.Ready) (hc : s.Extends c) :
    ∃ a pressed addr t, s.perform c = .ok (a, t) ∧ s.After true pressed addr t := by
  cases hc with
  | @key k modifiers delta hk hshift =>
      obtain ⟨b, addr, t, ht, hafter⟩ := exists_moveBy h delta
      have hkey : s.keyWith dispatch k modifiers =
          (do return (true, (← s.moveBy delta modifiers.shift).2)) := by
        cases k with
        | space => cases hk
        | text ch => cases hk
        | _ =>
            obtain rfl := Option.some.inj hk
            rfl
      refine ⟨.flag true, _, addr, t, ?_, hafter⟩
      rw [perform, performWith, hkey, hshift, ht]
      rfl
  | moveBy delta =>
      obtain ⟨b, addr, t, ht, hafter⟩ := exists_moveBy h delta
      refine ⟨.flag b, _, addr, t, ?_, hafter⟩
      show performWith.flag (s.moveBy delta true) = .ok (.flag b, t)
      rw [ht]
      rfl
  | @press p target hhit =>
      obtain ⟨t, ht, hafter⟩ := exists_press h true hhit
      exact ⟨_, _, _, t, ht, hafter⟩
  | @drag p target hpressed hhit =>
      obtain ⟨t, ht, hafter⟩ := exists_drag h hpressed hhit
      exact ⟨_, _, _, t, ht, hafter⟩

/-! ## Runs -/

/-- The scene `t` comes from `s` by commands of which `n` extend a selection, and all others are
drags that miss. -/
inductive Selects : Nat → Scene → Scene → Prop
  | done {s : Scene} : Selects 0 s s
  | extended {n : Nat} {s t u : Scene} {c : Command} {a : Answer} (hc : s.Extends c)
      (hp : s.perform c = .ok (a, t)) (h : Selects n t u) : Selects (n + 1) s u
  | missed {n : Nat} {s t u : Scene} {c : Command} {a : Answer} (hc : s.Misses c)
      (hp : s.perform c = .ok (a, t)) (h : Selects n t u) : Selects n s u

/-- An anchor that is there stays through all of them, and the first one that extends sets it
where there is none. -/
theorem Selects.anchor {n : Nat} (h : Selects n s t) (hs : s.Ready) :
    t.Ready ∧
      (∀ a, s.grid.cursor.anchor = some a → t.grid.cursor.anchor = some a) ∧
      (0 < n →
        t.grid.cursor.anchor = some (s.grid.cursor.anchor.getD s.grid.cursor.addr)) := by
  induction h with
  | done => exact ⟨hs, fun _ ha => ha, fun hn => absurd hn (Nat.lt_irrefl 0)⟩
  | @extended n s t u c a hc hp _ ih =>
      obtain ⟨a', pressed, addr, t', ht', hafter⟩ := exists_extended hs hc
      obtain ⟨rfl, rfl⟩ := Prod.mk.inj (Except.ok.inj (ht'.symm.trans hp))
      obtain ⟨hready, hstays, -⟩ := ih (hafter.ready hs hp)
      have hanchor := hstays _ hafter.anchor
      refine ⟨hready, ?_, fun _ => hanchor⟩
      intro a ha
      rw [ha] at hanchor
      exact hanchor
  | missed hc hp _ ih =>
      rw [perform_of_misses hc] at hp
      obtain ⟨rfl, rfl⟩ := Prod.mk.inj (Except.ok.inj hp)
      exact ih hs

/-- Drags with the pointer held down answer, and end on the last cell that was hit. -/
theorem exists_drags (h : s.Ready) (hpressed : s.grid.pressed = true) {points : List Point}
    {hits : List (Option (Nat × Pane))} (hhits : points.mapM s.grid.sheet.hit? = .ok hits) :
    ∃ answers t, s.performAllWith dispatch (points.map .drag) = .ok (answers, t) ∧
      Selects (hits.filterMap id).length s t ∧
      t.grid.cursor.addr =
        ((hits.filterMap id).getLast?.map Prod.fst).getD s.grid.cursor.addr := by
  induction points generalizing s hits with
  | nil =>
      obtain rfl := Except.ok.inj hhits
      exact ⟨[], s, rfl, .done, rfl⟩
  | cons p rest ih =>
      rw [List.mapM_cons] at hhits
      obtain ⟨hit, hhit, hmore⟩ := Checked.bind_eq_ok_iff.1 hhits
      obtain ⟨hits, hrest, hret⟩ := Checked.bind_eq_ok_iff.1 hmore
      obtain rfl := Except.ok.inj hret
      cases hit with
      | none =>
          have hmisses : s.Misses (.drag p) := .nowhere hhit
          have hdrag := perform_of_misses hmisses
          obtain ⟨answers, t, hall, hselects, haddr⟩ := ih h hpressed hrest
          exact ⟨_, t, performAllWith_cons.2 ⟨_, s, answers, hdrag, hall, rfl⟩,
            .missed hmisses hdrag hselects, haddr⟩
      | some target =>
          obtain ⟨t, hdrag, hafter⟩ := exists_drag h hpressed hhit
          have hready := hafter.ready h hdrag
          rw [← hafter.sheet] at hrest
          obtain ⟨answers, u, hall, hselects, haddr⟩ :=
            ih hready (hafter.pressed.trans hpressed) hrest
          refine ⟨_, u, performAllWith_cons.2 ⟨_, t, answers, hdrag, hall, rfl⟩,
            .extended (.drag hpressed hhit) hdrag hselects, ?_⟩
          have hcells : (some target :: hits).filterMap id = target :: hits.filterMap id := rfl
          rw [haddr, hafter.addr, hcells, List.getLast?_cons]
          cases (hits.filterMap id).getLast? <;> rfl

/-- Where there is no selection, any number of commands that extend one select what lies between the
cursor before them and the cursor after them, however often their moves are refused and whatever
drags miss in between.  After a press, drags select from the pressed cell to the last one that they
hit. -/
theorem selection_is_hull (h : s.Ready) :
    (s.grid.cursor.anchor = none → ∀ n t, Selects n s t →
      (∀ c, t.Extends c ∨ t.Misses c → ∃ a u, t.perform c = .ok (a, u)) ∧
      (0 < n → t.grid.cursor.SelectsFrom s.grid.cursor.addr)) ∧
    ∀ p addr pane, s.grid.sheet.hit? p = .ok (some (addr, pane)) →
      ∀ (points : List Point) (hits : List (Option (Nat × Pane))) (last : Nat × Pane),
        points.mapM s.grid.sheet.hit? = .ok hits → (hits.filterMap id).getLast? = some last →
        ∃ answers t,
          s.performAllWith dispatch (.press p false :: points.map .drag) = .ok (answers, t) ∧
            t.grid.cursor.addr = last.1 ∧ t.grid.cursor.SelectsFrom addr := by
  constructor
  · intro hnone n t hselects
    obtain ⟨hready, -, hanchor⟩ := hselects.anchor h
    constructor
    · rintro c (hc | hc)
      · obtain ⟨a, -, -, u, hu, -⟩ := exists_extended hready hc
        exact ⟨a, u, hu⟩
      · exact ⟨_, _, perform_of_misses hc⟩
    · intro hn
      have hfirst := hanchor hn
      rw [hnone] at hfirst
      exact hready.consistent.toOrderly.selectsFrom hready.region hfirst
  · intro p addr pane hhit points hits last hhits hlast
    obtain ⟨t, hpress, hafter⟩ := exists_press h false hhit
    have hready := hafter.ready h hpress
    rw [← hafter.sheet] at hhits
    obtain ⟨answers, u, hall, hselects, haddr⟩ := exists_drags hready hafter.pressed hhits
    obtain ⟨hend, -, hanchor⟩ := hselects.anchor hready
    have hhit : 0 < (hits.filterMap id).length :=
      List.length_pos_of_mem (List.mem_of_getLast? hlast)
    have hfirst := hanchor hhit
    rw [hafter.anchor, hafter.addr] at hfirst
    refine ⟨_, u, performAllWith_cons.2 ⟨_, t, answers, hpress, hall, rfl⟩, ?_, ?_⟩
    · rw [haddr, hlast]
      rfl
    · exact hend.consistent.toOrderly.selectsFrom hend.region hfirst

/-- The cursor on the third of sixteen cells, and a listener that asks nothing. -/
def thirdOfSixteen : Scene where
  grid := (Grid.sixteenCells 2 none).listen (.script "first" [])

theorem thirdOfSixteen_ready : thirdOfSixteen.Ready where
  consistent := by
    have hconsistent : (Grid.sixteenCells 2 none).Consistent :=
      Grid.sixteenCells_consistent (by decide) (by decide)
    exact ⟨hconsistent.change (c := .listen "first" []) rfl, rfl⟩
  region := by decide
  quiet := by
    intro l hl
    obtain rfl := List.mem_singleton.1 hl
    rfl

/-- After a drag that misses, a selection is begun to the left, refused at the start of the region,
and taken across its anchor. -/
theorem selection_is_hull_crossing :
    ∃ answers t, thirdOfSixteen.performAllWith dispatch [.drag ⟨0, 0⟩,
        .key .left { shift := true }, .moveBy (-5) true, .moveBy 4 true] = .ok (answers, t) ∧
      t.grid.cursor.addr = 5 ∧ t.grid.cursor.SelectsFrom 2 := by
  obtain ⟨answers, t, h, haddr⟩ : ∃ answers t, thirdOfSixteen.performAllWith dispatch
      [.drag ⟨0, 0⟩, .key .left { shift := true }, .moveBy (-5) true, .moveBy 4 true] =
        .ok (answers, t) ∧ t.grid.cursor.addr = 5 := ⟨_, _, rfl, rfl⟩
  have hselects : Selects 3 thirdOfSixteen t := by
    obtain ⟨_, _, _, hdrag, hrest, -⟩ := performAllWith_cons.1 h
    obtain ⟨_, _, _, hkey, hrest, -⟩ := performAllWith_cons.1 hrest
    obtain ⟨_, _, _, hback, hrest, -⟩ := performAllWith_cons.1 hrest
    obtain ⟨_, _, _, hacross, hrest, -⟩ := performAllWith_cons.1 hrest
    obtain ⟨-, rfl⟩ := Prod.mk.inj (Except.ok.inj hrest)
    exact .missed (.released rfl) hdrag <| .extended (.key rfl rfl) hkey <|
      .extended (.moveBy _) hback <| .extended (.moveBy _) hacross .done
  have hmain := (selection_is_hull thirdOfSixteen_ready).1 rfl 3 t hselects
  exact ⟨answers, t, h, haddr, hmain.2 (by decide)⟩

end Scene

end HexEditor
