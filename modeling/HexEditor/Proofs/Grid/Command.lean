import HexEditor.Proofs.Grid.Lockstep
import Mathlib.Logic.Relation

/-!
# What one command does

Commands come in a few kinds.  Some move the cursor: they are made of the steps that handling
keys and the pointer is made of, and of nothing else (`Handles`).  Some change the grid and
answer at most what they changed.  Some only look.  That leaves a new region and the log, which
are kinds of their own.  `Performed` has one constructor for each kind, and `performed` says that
nothing else happens, so that whatever holds of the steps and of the changes holds of every
command.

While a move is under way, the steps cannot tell anybody anything: it then makes no difference
who would be told (`performWith_eq`).
-/

namespace HexEditor

/-! ## The kinds of commands -/

namespace Command

/-- Whether the command can move the cursor. -/
def moves : Command → Bool
  | .setCursor .. | .moveBy .. | .press .. | .drag .. | .doubleClick | .key .. | .typeText _
  | .setByte _ | .setNibble _ => true
  | _ => false

/-- The change of the grid that the command consists in. -/
def change? : Command → Option (Grid → Grid)
  | .setMetrics metrics => some (·.setMetrics metrics)
  | .release => some (·.release)
  | .beginSelection => some (·.beginSelection)
  | .clearSelection => some (·.clearSelection)
  | .focusIn now => some (·.focusIn now)
  | .focusOut => some (·.focusOut)
  | .tick now => some fun g => (g.tick now).2
  | .setAlwaysShow on => some (·.setAlwaysShow on)
  | .setBlinkInterval interval => some (·.setBlinkInterval interval)
  | .setClassification regions => some (·.setClassification regions)
  | .setSynchronized regions => some (·.setSynchronized regions)
  | .setPatches regions => some (·.setPatches regions)
  | .listen name script => some (·.listen (.script name script))
  | _ => none

/-- Whether the command only looks at the scene. -/
def looks : Command → Bool
  | .value _ | .values .. | .regionsUnder | .rows .. | .marks => true
  | _ => false

end Command

namespace Scene

variable {notify notify' : Notify} {s t u : Scene}

/-! ## One move -/

section Moves

variable {addr : Nat} {pane : Option Pane} {nibble : Option Nibble} {b : Bool}

/-- The scene while a move is under way, with the cursor in its new place. -/
def placing (s : Scene) (addr : Nat) (pane : Option Pane) (nibble : Option Nibble) : Scene :=
  s.mapGrid fun g =>
    { g with
      blink := if g.focused then g.blink.restart s.around.now else g.blink
      cursor := { g.cursor.place addr pane nibble with moving := true } }

/-- The end of a move. -/
def settled (s : Scene) : Scene :=
  s.mapGrid fun g => { g with cursor := { g.cursor with moving := false } }

/-- How a move comes out: it is refused, or the cursor stays on its address, or everybody has
been told about its new one. -/
inductive Placed (notify : Notify) (s : Scene) (addr : Nat) (pane : Option Pane)
    (nibble : Option Nibble) : Bool → Scene → Prop
  | refused (h : s.grid.cursor.inBounds addr = false ∨ s.grid.cursor.moving = true) :
      Placed notify s addr pane nibble false s
  | stayed (hin : s.grid.cursor.inBounds addr = true) (hstill : s.grid.cursor.moving = false)
      (haddr : s.grid.cursor.addr = addr) :
      Placed notify s addr pane nibble true (s.placing addr pane nibble).settled
  | moved {t : Scene} (hin : s.grid.cursor.inBounds addr = true)
      (hstill : s.grid.cursor.moving = false) (haddr : s.grid.cursor.addr ≠ addr)
      (h : notify ((s.placing addr pane nibble).mapGrid (·.updateActive)) = .ok t) :
      Placed notify s addr pane nibble true t.settled

theorem setCursorWith_refused
    (h : s.grid.cursor.inBounds addr = false ∨ s.grid.cursor.moving = true) :
    s.setCursorWith notify addr pane nibble = .ok (false, s) := by
  have hguard : (!s.grid.cursor.inBounds addr || s.grid.cursor.moving) = true := by
    rcases h with h | h
    · rw [h]
      rfl
    · rw [h, Bool.or_true]
  unfold setCursorWith
  rw [if_pos hguard]
  rfl

theorem setCursorWith_stayed (hin : s.grid.cursor.inBounds addr = true)
    (hstill : s.grid.cursor.moving = false) (haddr : s.grid.cursor.addr = addr) :
    s.setCursorWith notify addr pane nibble = .ok (true, (s.placing addr pane nibble).settled) := by
  have hguard : ¬(!s.grid.cursor.inBounds addr || s.grid.cursor.moving) = true := by
    rw [hin, hstill]
    decide
  unfold setCursorWith
  rw [if_neg hguard, if_neg (by simpa using haddr)]
  rfl

theorem setCursorWith_moved (hin : s.grid.cursor.inBounds addr = true)
    (hstill : s.grid.cursor.moving = false) (haddr : s.grid.cursor.addr ≠ addr) :
    s.setCursorWith notify addr pane nibble =
      (do return (true,
        (← notify ((s.placing addr pane nibble).mapGrid (·.updateActive))).settled)) := by
  have hguard : ¬(!s.grid.cursor.inBounds addr || s.grid.cursor.moving) = true := by
    rw [hin, hstill]
    decide
  unfold setCursorWith
  rw [if_neg hguard, if_pos (by simpa using haddr)]
  rfl

theorem placed (h : s.setCursorWith notify addr pane nibble = .ok (b, t)) :
    Placed notify s addr pane nibble b t := by
  by_cases hguard : s.grid.cursor.inBounds addr = false ∨ s.grid.cursor.moving = true
  · rw [setCursorWith_refused hguard] at h
    obtain ⟨rfl, rfl⟩ := Prod.mk.inj (Except.ok.inj h)
    exact .refused hguard
  · obtain ⟨hin, hstill⟩ := not_or.1 hguard
    rw [Bool.not_eq_false] at hin
    rw [Bool.not_eq_true] at hstill
    by_cases haddr : s.grid.cursor.addr = addr
    · rw [setCursorWith_stayed hin hstill haddr] at h
      obtain ⟨rfl, rfl⟩ := Prod.mk.inj (Except.ok.inj h)
      exact .stayed hin hstill haddr
    · rw [setCursorWith_moved hin hstill haddr] at h
      obtain ⟨u, hu, hret⟩ := Checked.bind_eq_ok_iff.1 h
      obtain ⟨rfl, rfl⟩ := Prod.mk.inj (Except.ok.inj hret)
      exact .moved hin hstill haddr hu

end Moves

/-! ## The steps of a move -/

/-- The scene `t` comes from `s` by the steps that handling keys and the pointer is made of. -/
def Handles (notify : Notify) : Scene → Scene → Prop := Relation.ReflTransGen (Step notify)

namespace Handles

theorem refl (s : Scene) : Handles notify s s := Relation.ReflTransGen.refl

theorem tail (h : Handles notify s t) (hstep : Step notify t u) : Handles notify s u :=
  Relation.ReflTransGen.tail h hstep

/-- What each step keeps is kept by all of them together. -/
theorem keeps {P : Scene → Prop} (h : Handles notify s t)
    (hstep : ∀ {t u}, Step notify t u → P t → P u) (hs : P s) : P t := by
  induction h with
  | refl => exact hs
  | tail _ hlast ih => exact hstep hlast ih

end Handles

theorem lockstep_handles (notify : Notify) (s : Scene) :
    Lockstep notify notify fun t u => t = u ∧ Handles notify s t :=
  lockstep_self (fun hstep h => h.tail hstep) fun _ _ _ _ => rfl

/-- What keeps the scenes that the steps lead to in lockstep is made of the steps. -/
theorem handles_of_rel {α : Type} {a : α} {x : Checked (α × Scene)}
    (hrel : Checked.Rel (Alike fun t u => t = u ∧ Handles notify s t) x x)
    (h : x = .ok (a, t)) : Handles notify s t := (hrel.of_ok h h).2.2

/-! ## What a command does -/

/-- The scene `t` comes from `s` by carrying out a command. -/
inductive Performed (notify : Notify) (s : Scene) : Command → Scene → Prop
  | handled {c : Command} {t : Scene} (hmoves : c.moves = true) (h : Handles notify s t) :
      Performed notify s c t
  | region {source : ByteSource} {start size : Nat} {grid : Grid}
      (h : s.grid.setRegion source start size = .ok grid) :
      Performed notify s (.setRegion source start size) { s with grid }
  | changed {c : Command} {f : Grid → Grid} (h : c.change? = some f) :
      Performed notify s c (s.mapGrid f)
  | looked {c : Command} (hlooks : c.looks = true) : Performed notify s c s
  | logTaken : Performed notify s .takeLog { s with around := { s.around with log := [] } }

/-- A command does what is of its kind, and nothing else. -/
theorem performed {c : Command} {a : Answer} (h : s.performWith notify c = .ok (a, t)) :
    Performed notify s c t := by
  have L := lockstep_handles notify s
  have hself : s = s ∧ Handles notify s s := ⟨rfl, .refl s⟩
  -- a command that answers whether it was taken
  have hflag : ∀ {c : Command} {x : Checked (Bool × Scene)}, c.moves = true →
      Checked.Rel (Alike fun t u => t = u ∧ Handles notify s t) x x →
      performWith.flag x = .ok (a, t) → Performed notify s c t := by
    intro c x hmoves hx hflag
    obtain ⟨b, hb⟩ := Checked.exists_of_return_map_fst hflag
    exact .handled hmoves (handles_of_rel hx hb)
  have hdone : ∀ {c : Command} {f : Grid → Grid}, c.change? = some f →
      performWith.done s f = .ok (a, t) → Performed notify s c t := by
    intro c f hchange hdone
    obtain ⟨-, rfl⟩ := Prod.mk.inj (Except.ok.inj hdone)
    exact .changed hchange
  have hlook : ∀ {α : Type} {c : Command} {x : Checked α} {f : α → Answer}, c.looks = true →
      (do return (f (← x), s)) = Except.ok (a, t) → Performed notify s c t := by
    intro α c x f hlooks hx
    obtain ⟨v, -, hv⟩ := Checked.bind_eq_ok_iff.1 hx
    obtain ⟨-, rfl⟩ := Prod.mk.inj (Except.ok.inj hv)
    exact .looked hlooks
  cases c with
  | setRegion source start size =>
      obtain ⟨grid, hgrid, hret⟩ := Checked.bind_eq_ok_iff.1 h
      obtain ⟨-, rfl⟩ := Prod.mk.inj (Except.ok.inj hret)
      exact .region hgrid
  | setMetrics metrics =>
      obtain ⟨-, rfl⟩ := Prod.mk.inj (Except.ok.inj h)
      exact .changed (f := (·.setMetrics metrics)) rfl
  | setCursor addr pane nibble => exact hflag rfl (L.setCursor hself addr pane nibble) h
  | moveBy delta extend => exact hflag rfl (L.moveBy hself delta extend) h
  | press p extend => exact hflag rfl (L.press_at hself p extend) h
  | drag p => exact hflag rfl (L.drag hself p) h
  | doubleClick => exact hflag rfl (L.doubleClick hself) h
  | key k modifiers => exact hflag rfl (L.key hself k modifiers) h
  | setByte value => exact hflag rfl (L.setByte hself value) h
  | setNibble value => exact hflag rfl (L.setNibble hself value) h
  | typeText text =>
      obtain ⟨⟨used, u⟩, hused, hret⟩ := Checked.bind_eq_ok_iff.1 h
      obtain ⟨-, rfl⟩ := Prod.mk.inj (Except.ok.inj hret)
      exact .handled rfl (handles_of_rel (L.typeText hself text) hused)
  | release => exact hdone rfl h
  | beginSelection => exact hdone rfl h
  | clearSelection => exact hdone rfl h
  | focusIn now => exact hdone rfl h
  | focusOut => exact hdone rfl h
  | setAlwaysShow on => exact hdone rfl h
  | setBlinkInterval interval => exact hdone rfl h
  | setClassification regions => exact hdone rfl h
  | setSynchronized regions => exact hdone rfl h
  | setPatches regions => exact hdone rfl h
  | listen name script => exact hdone rfl h
  | tick now =>
      obtain ⟨-, rfl⟩ := Prod.mk.inj (Except.ok.inj h)
      exact .changed (f := fun g => (g.tick now).2) rfl
  | value addr => exact hlook rfl h
  | values addr count => exact hlook rfl h
  | rows first stop => exact hlook rfl h
  | regionsUnder => exact hlook (x := pure s.grid.regionsUnder) rfl h
  | marks => exact hlook (x := pure s.grid.marks?) rfl h
  | takeLog =>
      obtain ⟨-, rfl⟩ := Prod.mk.inj (Except.ok.inj h)
      exact .logTaken

theorem Performed.handles {c : Command} (h : Performed notify s c t) (hmoves : c.moves = true) :
    Handles notify s t := by
  cases h with
  | handled _ h => exact h
  | region => cases hmoves
  | changed h => cases c <;> first | (cases h; done) | cases hmoves
  | looked => exact .refl s
  | logTaken => cases hmoves

theorem performAllWith_cons {c : Command} {rest : List Command} {answers : List Answer} :
    s.performAllWith notify (c :: rest) = .ok (answers, t) ↔
      ∃ a u as, s.performWith notify c = .ok (a, u) ∧
        u.performAllWith notify rest = .ok (as, t) ∧ answers = a :: as := by
  constructor
  · intro h
    obtain ⟨⟨a, u⟩, hc, h⟩ := Checked.bind_eq_ok_iff.1 h
    obtain ⟨⟨as, v⟩, hrest, h⟩ := Checked.bind_eq_ok_iff.1 h
    obtain ⟨rfl, rfl⟩ := Prod.mk.inj (Except.ok.inj h)
    exact ⟨a, u, as, hc, hrest, rfl⟩
  · rintro ⟨a, u, as, hc, hrest, rfl⟩
    rw [performAllWith, hc, Checked.ok_bind]
    dsimp only
    rw [hrest]
    rfl

theorem performAll_length {commands : List Command} {answers : List Answer}
    (h : s.performAllWith notify commands = .ok (answers, t)) :
    answers.length = commands.length := by
  induction commands generalizing s answers with
  | nil =>
      obtain ⟨rfl, -⟩ := Prod.mk.inj (Except.ok.inj h)
      rfl
  | cons c rest ih =>
      obtain ⟨a, u, as, -, hrest, rfl⟩ := performAllWith_cons.1 h
      exact congrArg (· + 1) (ih hrest)

/-- A script that is called is carried out, and its call is put on record. -/
theorem call_script {name : String} {commands : List Command}
    (h : s.call (.script name commands) = .ok t) :
    ∃ answers u, s.performAllWith .never commands = .ok (answers, u) ∧
      t = { u with around := { u.around with log := u.around.log ++
        [.mk name u.grid.cursor.addr u.grid.cursor.moving u.grid.cursor.selection? answers] } } := by
  obtain ⟨⟨answers, u⟩, hall, hret⟩ := Checked.bind_eq_ok_iff.1 h
  exact ⟨answers, u, hall, (Except.ok.inj hret).symm⟩

/-- What every command of a script keeps is kept by the script. -/
theorem performAll_keeps {P : Scene → Prop} {commands : List Command} {answers : List Answer}
    (hstep : ∀ {s t c}, c ∈ commands → Performed notify s c t → P s → P t)
    (h : s.performAllWith notify commands = .ok (answers, t)) (hs : P s) : P t := by
  induction commands generalizing s answers with
  | nil =>
      obtain ⟨-, rfl⟩ := Prod.mk.inj (Except.ok.inj h)
      exact hs
  | cons c rest ih =>
      obtain ⟨a, u, as, hc, hrest, -⟩ := performAllWith_cons.1 h
      exact ih (fun hmem => hstep (List.mem_cons_of_mem c hmem)) hrest
        (hstep List.mem_cons_self (performed hc) hs)

/-! ## While a move is under way -/

/-- A write changes the bytes and nothing else of the scene. -/
theorem write_frame {addr : Nat} {value : UInt8} {b : Bool} (h : s.write addr value = .ok (b, t)) :
    ∃ source patches, t = { s with
      grid := { s.grid with source }
      around := { s.around with project := { s.around.project with patches } } } := by
  unfold write at h
  cases hsource : s.grid.source with
  | none =>
      rw [hsource] at h
      obtain ⟨-, rfl⟩ := Prod.mk.inj (Except.ok.inj h)
      exact ⟨s.grid.source, s.around.project.patches, rfl⟩
  | some source =>
      rw [hsource] at h
      cases source with
      | image m =>
          dsimp only at h
          split at h
          · obtain ⟨-, rfl⟩ := Prod.mk.inj (Except.ok.inj h)
            exact ⟨_, s.around.project.patches, rfl⟩
          · obtain ⟨-, rfl⟩ := Prod.mk.inj (Except.ok.inj h)
            exact ⟨s.grid.source, s.around.project.patches, rfl⟩
      | addressPattern =>
          obtain ⟨-, rfl⟩ := Prod.mk.inj (Except.ok.inj h)
          exact ⟨s.grid.source, s.around.project.patches, rfl⟩
      | project =>
          obtain ⟨⟨taken, project⟩, hproject, hret⟩ := Checked.bind_eq_ok_iff.1 h
          obtain ⟨-, rfl⟩ := Prod.mk.inj (Except.ok.inj hret)
          obtain ⟨reply, -, hreply⟩ := Checked.bind_eq_ok_iff.1 hproject
          obtain ⟨-, rfl⟩ := Prod.mk.inj (Except.ok.inj hreply)
          exact ⟨s.grid.source, reply.store, rfl⟩

/-- Whether a move is under way is the same after a step as before. -/
theorem Step.moving (h : Step notify s t) : t.grid.cursor.moving = s.grid.cursor.moving := by
  cases h with
  | press on => rfl
  | beginSelection => rfl
  | clearSelection => rfl
  | write h =>
      obtain ⟨source, patches, rfl⟩ := write_frame h
      rfl
  | setCursor h =>
      cases placed h with
      | refused => rfl
      | stayed _ hstill _ => exact hstill.symm
      | moved _ hstill _ _ => exact hstill.symm

theorem Handles.moving (h : Handles notify s t) :
    t.grid.cursor.moving = s.grid.cursor.moving :=
  h.keeps (P := fun t => t.grid.cursor.moving = s.grid.cursor.moving)
    (fun hstep ht => hstep.moving.trans ht) rfl

theorem setRegion_cursor {g grid : Grid} {source : ByteSource} {start size : Nat}
    (h : g.setRegion source start size = .ok grid) :
    ∃ sheet, Sheet.create start size g.metrics = .ok sheet ∧
      grid = { g with
        sheet, source := some source
        cursor := (g.cursor.setBounds sheet.start sheet.stop).2 }.updateActive := by
  obtain ⟨sheet, hsheet, hret⟩ := Checked.bind_eq_ok_iff.1 h
  exact ⟨sheet, hsheet, (Except.ok.inj hret).symm⟩

/-- A change of the grid alone leaves the region as it is, and a move under way or not. -/
theorem change?_frame {c : Command} {f : Grid → Grid} (h : c.change? = some f) (g : Grid) :
    (f g).cursor.start = g.cursor.start ∧ (f g).cursor.stop = g.cursor.stop ∧
      (f g).cursor.moving = g.cursor.moving := by
  cases c <;> cases h <;> try exact ⟨rfl, rfl, rfl⟩
  unfold Grid.setMetrics
  dsimp only
  split <;> exact ⟨rfl, rfl, rfl⟩

/-- What a change of the grid alone does to the regions and to the listeners: it replaces one of the
three lists, or brings in a listener, or does neither.  In the last case the regions are marked anew
when the selection begins or ends, and stay as they are otherwise. -/
inductive Changed (g : Grid) : Command → Grid → Prop
  | classification (regions : List Region) :
      Changed g (.setClassification regions) (g.setClassification regions)
  | synchronized (regions : List Region) :
      Changed g (.setSynchronized regions) (g.setSynchronized regions)
  | patches (regions : List Region) : Changed g (.setPatches regions) (g.setPatches regions)
  | listen (name : String) (script : List Command) :
      Changed g (.listen name script) (g.listen (.script name script))
  | marked {c : Command} {g' : Grid} (hoverlay : g'.overlay = g.overlay.updateActive g'.cursor.span)
      (haddr : g'.cursor.addr = g.cursor.addr) (hlisteners : g'.listeners = g.listeners) :
      Changed g c g'
  | unmarked {c : Command} {g' : Grid} (hoverlay : g'.overlay = g.overlay)
      (hcursor : g'.cursor = g.cursor) (hlisteners : g'.listeners = g.listeners) : Changed g c g'

theorem changed_of_change? {c : Command} {f : Grid → Grid} (h : c.change? = some f) (g : Grid) :
    Changed g c (f g) := by
  cases c with
  | setMetrics metrics =>
      cases h
      dsimp only [Grid.setMetrics]
      split <;> exact .unmarked rfl rfl rfl
  | beginSelection => cases h; exact .marked rfl rfl rfl
  | clearSelection => cases h; exact .marked rfl rfl rfl
  | setClassification regions => cases h; exact .classification regions
  | setSynchronized regions => cases h; exact .synchronized regions
  | setPatches regions => cases h; exact .patches regions
  | listen name script => cases h; exact .listen name script
  | _ => first | (cases h; done) | (cases h; exact .unmarked rfl rfl rfl)

/-- No command leaves a move under way, or ends one that was under way before. -/
theorem Performed.moving {c : Command} (h : Performed notify s c t) :
    t.grid.cursor.moving = s.grid.cursor.moving := by
  cases h with
  | handled _ h => exact h.moving
  | region h =>
      obtain ⟨sheet, -, rfl⟩ := setRegion_cursor h
      rfl
  | changed h => exact (change?_frame h s.grid).2.2
  | looked => rfl
  | logTaken => rfl

theorem performAll_moving {commands : List Command} {answers : List Answer}
    (h : s.performAllWith notify commands = .ok (answers, t)) :
    t.grid.cursor.moving = s.grid.cursor.moving :=
  performAll_keeps (P := fun t => t.grid.cursor.moving = s.grid.cursor.moving)
    (fun _ hc ht => hc.moving.trans ht) h rfl

theorem call_moving {l : Listener} (h : s.call l = .ok t) :
    t.grid.cursor.moving = s.grid.cursor.moving := by
  cases l with
  | viewUpkeep =>
      obtain rfl := Except.ok.inj h
      rfl
  | script name commands =>
      obtain ⟨answers, u, hall, rfl⟩ := call_script h
      have hu := performAll_moving hall
      exact hu

theorem lockstep_moving (notify notify' : Notify) :
    Lockstep notify notify' fun t u => t = u ∧ t.grid.cursor.moving = true := by
  refine lockstep_self (fun hstep h => hstep.moving.trans h) ?_
  intro s h addr pane nibble
  rw [setCursorWith_refused (.inr h), setCursorWith_refused (.inr h)]

/-- While a move is under way, nobody is told about anything. -/
theorem performWith_eq (h : s.grid.cursor.moving = true) (c : Command) :
    s.performWith notify c = s.performWith notify' c := by
  have L := lockstep_moving notify notify'
  have hself : s = s ∧ s.grid.cursor.moving = true := ⟨rfl, h⟩
  have heq : ∀ {α : Type} {x y : Checked (α × Scene)},
      Checked.Rel (Alike fun t u => t = u ∧ t.grid.cursor.moving = true) x y → x = y := by
    intro α x y hxy
    exact (hxy.mono fun a b hab => Prod.ext hab.1 hab.2.1).eq
  have hflag : ∀ {x y : Checked (Bool × Scene)},
      Checked.Rel (Alike fun t u => t = u ∧ t.grid.cursor.moving = true) x y →
        performWith.flag x = performWith.flag y :=
    fun hxy => congrArg performWith.flag (heq hxy)
  cases c with
  | setCursor addr pane nibble => exact hflag (L.setCursor hself addr pane nibble)
  | moveBy delta extend => exact hflag (L.moveBy hself delta extend)
  | press p extend => exact hflag (L.press_at hself p extend)
  | drag p => exact hflag (L.drag hself p)
  | doubleClick => exact hflag (L.doubleClick hself)
  | key k modifiers => exact hflag (L.key hself k modifiers)
  | setByte value => exact hflag (L.setByte hself value)
  | setNibble value => exact hflag (L.setNibble hself value)
  | typeText text =>
      have htext := heq (L.typeText hself text)
      simp only [performWith, htext]
  | _ => rfl

end Scene

end HexEditor
