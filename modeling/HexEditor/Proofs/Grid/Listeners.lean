import HexEditor.Proofs.Grid.Given

/-!
# Whom a move calls

A move that takes the cursor to another address calls every listener that is there, once and in
order, and nothing that a listener does disturbs that.  While the listeners are at work a move is
under way, so that none of theirs is taken (`Nested`), and that is also why it makes no
difference whom such a move would call.  Listeners that come in meanwhile are called from the next
move on, behind the others.  `setCursor_calls_once` puts this together, with the moves that call
nobody, and with what becomes of the listeners in a run.
-/

namespace HexEditor

namespace Command

/-- Whether the command answers just whether a move was taken. -/
def asksToMove : Command → Bool
  | .setCursor .. | .moveBy .. | .press .. | .drag .. => true
  | _ => false

def setsRegion : Command → Bool
  | .setRegion .. => true
  | _ => false

def takesLog : Command → Bool
  | .takeLog => true
  | _ => false

/-- The listener that the command brings in. -/
def listener? : Command → Option Listener
  | .listen name script => some (.script name script)
  | _ => none

end Command

/-- The listeners that a call of this one brings in. -/
def Listener.bringsIn (l : Listener) : List Listener := l.commands.filterMap Command.listener?

/-- The record of a call: the move was still under way, and the whole script has answered. -/
def ListenerCall.Of : ListenerCall → Listener → Prop
  | mk name _ moving _ answers, .script name' commands =>
    name = name' ∧ moving = true ∧ answers.length = commands.length
  | _, .viewUpkeep => False

/-- Where the cursor is: the address, the half of the byte, and the pane. -/
def Cursor.position (c : Cursor) : Nat × Option Nibble × Pane := (c.addr, c.nibble, c.pane)

namespace Given

theorem after_listeners (x : Given) (c : Command) :
    (x.after c).listeners = x.listeners ++ c.listener?.toList := by
  cases c with
  | listen name script => rfl
  | _ => exact (List.append_nil _).symm

theorem foldl_after_listeners (x : Given) (commands : List Command) :
    (commands.foldl after x).listeners = x.listeners ++ commands.filterMap Command.listener? := by
  induction commands generalizing x with
  | nil => exact (List.append_nil _).symm
  | cons c rest ih =>
      rw [List.foldl_cons, ih, after_listeners, List.append_assoc]
      cases hc : c.listener? <;> simp [hc]

theorem call_listeners (x : Given) (l : Listener) :
    (x.call l).listeners = x.listeners ++ l.bringsIn := by
  cases l with
  | viewUpkeep => exact (List.append_nil _).symm
  | script name commands => exact foldl_after_listeners x commands

/-- After a round every listener is where it was, and those brought in stand behind. -/
theorem round_listeners (x : Given) :
    x.round.listeners = x.listeners ++ x.listeners.flatMap Listener.bringsIn := by
  have hcalls : ∀ (ls : List Listener) (y : Given),
      (ls.foldl call y).listeners = y.listeners ++ ls.flatMap Listener.bringsIn := by
    intro ls
    induction ls with
    | nil => exact fun y => (List.append_nil _).symm
    | cons l rest ih =>
        intro y
        rw [List.foldl_cons, ih, call_listeners, List.append_assoc, List.flatMap_cons]
  exact hcalls x.listeners x

end Given

namespace Scene

variable {notify : Notify} {s t u v : Scene}

/-! ## Commands within a move -/

/-- A command that comes up while a move is under way: it moves nothing, whoever would be told
about it. -/
structure Nested (c : Command) (u : Scene) : Prop where
  guarded : u.grid.cursor.moving = true
  refused : ∀ notify addr pane nibble, u.setCursorWith notify addr pane nibble = .ok (false, u)
  alone : ∀ notify, u.performWith notify c = u.performWith .never c
  answer : ∀ {a v}, u.performWith .never c = .ok (a, v) → c.asksToMove = true → a = .flag false
  still_guarded : ∀ {a v}, u.performWith .never c = .ok (a, v) → v.grid.cursor.moving = true
  position : ∀ {a v}, u.performWith .never c = .ok (a, v) → c.setsRegion = false →
    v.grid.cursor.position = u.grid.cursor.position

theorem Handles.position (h : Handles notify s t) (hmoving : s.grid.cursor.moving = true) :
    t.grid.cursor.position = s.grid.cursor.position ∧ t.around.log = s.around.log := by
  refine (h.keeps (P := fun t => t.grid.cursor.moving = true ∧
    t.grid.cursor.position = s.grid.cursor.position ∧ t.around.log = s.around.log)
    ?_ ⟨hmoving, rfl, rfl⟩).2
  rintro t u hstep ⟨ht, hkept⟩
  refine ⟨hstep.moving.trans ht, ?_⟩
  cases hstep with
  | press on => exact hkept
  | beginSelection => exact hkept
  | clearSelection => exact hkept
  | write hwrite =>
      obtain ⟨source, patches, rfl⟩ := write_frame hwrite
      exact hkept
  | setCursor hset =>
      rw [setCursorWith_refused (.inr ht)] at hset
      obtain ⟨-, rfl⟩ := Prod.mk.inj (Except.ok.inj hset)
      exact hkept

theorem Performed.position {c : Command} (h : Performed notify s c t)
    (hmoving : s.grid.cursor.moving = true) (hregion : c.setsRegion = false) :
    t.grid.cursor.position = s.grid.cursor.position := by
  cases h with
  | handled _ h => exact (h.position hmoving).1
  | region => cases hregion
  | changed h =>
      cases c <;> cases h <;> try rfl
      next metrics =>
        simp only [mapGrid, Grid.setMetrics]
        split <;> rfl
  | looked => rfl
  | logTaken => rfl

theorem Performed.log {c : Command} (h : Performed notify s c t)
    (hmoving : s.grid.cursor.moving = true) (hlog : c.takesLog = false) :
    t.around.log = s.around.log := by
  cases h with
  | handled _ h => exact (h.position hmoving).2
  | region => rfl
  | changed => rfl
  | looked => rfl
  | logTaken => cases hlog

theorem anchorFor_moving (g : Grid) (extend : Bool) :
    (g.anchorFor extend).cursor.moving = g.cursor.moving := by
  unfold Grid.anchorFor
  split
  · split <;> rfl
  · rfl

/-- Asked to move while a move is under way, the grid answers that it does not. -/
theorem answer_of_moving {c : Command} {a : Answer} (hmoving : s.grid.cursor.moving = true)
    (hasks : c.asksToMove = true) (h : s.performWith notify c = .ok (a, t)) : a = .flag false := by
  have hrefused : ∀ {u : Scene} {addr pane nibble}, u.grid.cursor.moving = true →
      performWith.flag (u.setCursorWith notify addr pane nibble) = .ok (a, t) → a = .flag false := by
    intro u addr pane nibble hu hset
    rw [setCursorWith_refused (.inr hu)] at hset
    exact (Prod.mk.inj (Except.ok.inj hset)).1.symm
  have hanchor : ∀ {g : Grid} {extend}, g.cursor.moving = true →
      (g.anchorFor extend).cursor.moving = true :=
    fun hg => (anchorFor_moving _ _).trans hg
  cases c with
  | setCursor addr pane nibble => exact hrefused hmoving h
  | moveBy delta extend =>
      simp only [performWith, moveByWith] at h
      split at h
      · exact hrefused (hanchor hmoving) h
      · exact (Prod.mk.inj (Except.ok.inj h)).1.symm
  | press p extend =>
      obtain ⟨b, hb⟩ := Checked.exists_of_return_map_fst h
      obtain ⟨hit, hhit, hset⟩ := Checked.bind_eq_ok_iff.1 hb
      simp only [performWith, pressWith, hhit, Checked.ok_bind] at h
      cases hit with
      | none => exact (Prod.mk.inj (Except.ok.inj h)).1.symm
      | some target =>
          have hpressed : ({ s.grid with pressed := true }.anchorFor extend).cursor.moving = true :=
            hanchor hmoving
          exact hrefused hpressed h
  | drag p =>
      simp only [performWith, dragWith] at h
      split at h
      · exact (Prod.mk.inj (Except.ok.inj h)).1.symm
      · cases hhit : s.grid.sheet.hit? p with
        | error e => rw [hhit] at h; cases h
        | ok hit =>
            rw [hhit, Checked.ok_bind] at h
            cases hit with
            | none => exact (Prod.mk.inj (Except.ok.inj h)).1.symm
            | some target => exact hrefused (hanchor hmoving) h
  | _ => cases hasks

theorem nested_of_moving (h : u.grid.cursor.moving = true) (c : Command) : Nested c u where
  guarded := h
  refused _ _ _ _ := setCursorWith_refused (.inr h)
  alone _ := performWith_eq h c
  answer hc hasks := answer_of_moving h hasks hc
  still_guarded hc := (performed hc).moving.trans h
  position hc hregion := (performed hc).position h hregion

/-! ## The commands of a script -/

/-- The command `c` comes up in the scene `u` when a script is carried out from `s`. -/
inductive ComesUpIn : List Command → Scene → Command → Scene → Prop
  | head {c : Command} {rest : List Command} {s : Scene} : ComesUpIn (c :: rest) s c s
  | tail {c d : Command} {rest : List Command} {a : Answer} {s t u : Scene}
      (hc : s.performWith .never c = .ok (a, t)) (h : ComesUpIn rest t d u) :
      ComesUpIn (c :: rest) s d u

/-- The command `c` comes up in the scene `u` when listeners are called one after the other. -/
inductive ComesUp : List Listener → Scene → Command → Scene → Prop
  | here {l : Listener} {rest : List Listener} {c : Command} {s u : Scene}
      (h : ComesUpIn l.commands s c u) : ComesUp (l :: rest) s c u
  | later {l : Listener} {rest : List Listener} {c : Command} {s t u : Scene}
      (hl : s.call l = .ok t) (h : ComesUp rest t c u) : ComesUp (l :: rest) s c u

theorem ComesUpIn.moving {commands : List Command} {c : Command}
    (h : ComesUpIn commands s c u) : u.grid.cursor.moving = s.grid.cursor.moving := by
  induction h with
  | head => rfl
  | tail hc _ ih => exact ih.trans (performed hc).moving

theorem ComesUp.moving {ls : List Listener} {c : Command} (h : ComesUp ls s c u) :
    u.grid.cursor.moving = s.grid.cursor.moving := by
  induction h with
  | here h => exact h.moving
  | later hl _ ih => exact ih.trans (call_moving hl)

/-! ## The calls of a move -/

/-- A script leaves the log alone, as long as it does not take it, and its call is recorded. -/
theorem call_log {l : Listener} (h : s.call l = .ok t) (hmoving : s.grid.cursor.moving = true)
    (hscript : l.isScript = true) (hlog : ∀ c ∈ l.commands, c.takesLog = false) :
    ∃ record, record.Of l ∧ t.around.log = s.around.log ++ [record] := by
  cases l with
  | viewUpkeep => cases hscript
  | script name commands =>
      obtain ⟨answers, u, hall, rfl⟩ := call_script h
      have hu : u.grid.cursor.moving = true ∧ u.around.log = s.around.log := by
        refine performAll_keeps (P := fun u => u.grid.cursor.moving = true ∧
          u.around.log = s.around.log) ?_ hall ⟨hmoving, rfl⟩
        rintro v w c hmem hc ⟨hv, hsame⟩
        exact ⟨hc.moving.trans hv, (hc.log hv (hlog c hmem)).trans hsame⟩
      let record : ListenerCall := .mk name u.grid.cursor.addr u.grid.cursor.moving
        u.grid.cursor.selection? answers
      have hof : record.Of (.script name commands) := ⟨rfl, hu.1, performAll_length hall⟩
      exact ⟨record, hof, congrArg (· ++ [record]) hu.2⟩

theorem foldlM_call_log {ls : List Listener} (h : ls.foldlM call s = .ok t)
    (hmoving : s.grid.cursor.moving = true) (hscripts : ∀ l ∈ ls, l.isScript = true)
    (hlog : ∀ l ∈ ls, ∀ c ∈ l.commands, c.takesLog = false) :
    ∃ records, List.Forall₂ ListenerCall.Of records ls ∧
      t.around.log = s.around.log ++ records := by
  induction ls generalizing s with
  | nil =>
      obtain rfl := Except.ok.inj h
      exact ⟨[], .nil, (List.append_nil _).symm⟩
  | cons l rest ih =>
      rw [List.foldlM_cons] at h
      obtain ⟨u, hu, hrest⟩ := Checked.bind_eq_ok_iff.1 h
      obtain ⟨record, hof, hone⟩ := call_log hu hmoving (hscripts l List.mem_cons_self)
        (hlog l List.mem_cons_self)
      obtain ⟨records, hofs, hmore⟩ := ih hrest ((call_moving hu).trans hmoving)
        (fun l hl => hscripts l (List.mem_cons_of_mem _ hl))
        (fun l hl => hlog l (List.mem_cons_of_mem _ hl))
      refine ⟨record :: records, .cons hof hofs, ?_⟩
      rw [hmore, hone, List.append_assoc, List.singleton_append]

theorem foldlM_call_position {ls : List Listener} (h : ls.foldlM call s = .ok t)
    (hmoving : s.grid.cursor.moving = true)
    (hregion : ∀ l ∈ ls, ∀ c ∈ l.commands, c.setsRegion = false) :
    t.grid.cursor.position = s.grid.cursor.position := by
  refine (Checked.foldlM_keeps (P := fun t => t.grid.cursor.moving = true ∧
    t.grid.cursor.position = s.grid.cursor.position) ?_ h ⟨hmoving, rfl⟩).2
  rintro u v l hmem hcall ⟨hu, hsame⟩
  refine ⟨(call_moving hcall).trans hu, ?_⟩
  cases l with
  | viewUpkeep =>
      obtain rfl := Except.ok.inj hcall
      exact hsame
  | script name commands =>
      obtain ⟨answers, w, hall, rfl⟩ := call_script hcall
      refine (performAll_keeps (P := fun t => t.grid.cursor.moving = true ∧
        t.grid.cursor.position = s.grid.cursor.position) ?_ hall ⟨hu, hsame⟩).2
      rintro x y c hc hxy ⟨hx, hxsame⟩
      exact ⟨hxy.moving.trans hx, (hxy.position hx (hregion _ hmem c hc)).trans hxsame⟩

/-- The scene in which the first listener is called: the cursor is in its new place, and the
list of listeners is empty. -/
def telling (s : Scene) (addr : Nat) (pane : Option Pane) (nibble : Option Nibble) : Scene :=
  ((s.placing addr pane nibble).mapGrid (·.updateActive)).mapGrid fun g => { g with listeners := [] }

/-- What a move that everybody is told about has done. -/
structure Told (s : Scene) (addr : Nat) (pane : Option Pane) (nibble : Option Nibble)
    (t : Scene) : Prop where
  /-- Each listener has been called once, in order. -/
  calls : ∃ records, List.Forall₂ ListenerCall.Of records s.grid.listeners ∧
    t.around.log = s.around.log ++ records
  /-- No listener is lost, and the new ones have come behind the others in order. -/
  listeners : t.grid.listeners = s.grid.listeners ++ s.grid.listeners.flatMap Listener.bringsIn
  nested : ∀ c u, ComesUp s.grid.listeners (s.telling addr pane nibble) c u → Nested c u
  ended : t.grid.cursor.moving = false
  /-- The cursor is where it was sent, unless the region was replaced meanwhile. -/
  position : (∀ l ∈ s.grid.listeners, ∀ c ∈ l.commands, c.setsRegion = false) →
    t.grid.cursor.position = (addr, nibble, pane.getD s.grid.cursor.pane)

theorem told {addr : Nat} {pane : Option Pane} {nibble : Option Nibble}
    (hscripts : ∀ l ∈ s.grid.listeners, l.isScript = true)
    (hlog : ∀ l ∈ s.grid.listeners, ∀ c ∈ l.commands, c.takesLog = false)
    (h : dispatch ((s.placing addr pane nibble).mapGrid (·.updateActive)) = .ok t) :
    Told s addr pane nibble t.settled := by
  have hround := dispatch_given (s := (s.placing addr pane nibble).mapGrid (·.updateActive))
    hscripts h rfl
  obtain ⟨u, hu, hret⟩ := Checked.bind_eq_ok_iff.1 h
  obtain rfl := Except.ok.inj hret
  have hrecords := foldlM_call_log hu rfl hscripts hlog
  refine ⟨hrecords, ?_, ?_, rfl, ?_⟩
  · exact (congrArg Given.listeners hround).trans (Given.round_listeners _)
  · intro c v hcomes
    exact nested_of_moving hcomes.moving c
  · intro hregion
    have hposition := foldlM_call_position hu rfl hregion
    exact hposition

/-- A move calls every listener once, in order, when it takes the cursor to another address, and
nobody otherwise; what a listener does cannot disturb it; and in a whole run no listener is lost
or called twice. -/
theorem setCursor_calls_once (hstill : s.grid.cursor.moving = false)
    (hscripts : ∀ l ∈ s.grid.listeners, l.isScript = true)
    (hlog : ∀ l ∈ s.grid.listeners, ∀ c ∈ l.commands, c.takesLog = false) (addr : Nat)
    (pane : Option Pane) (nibble : Option Nibble) :
    (s.grid.cursor.inBounds addr = false → s.setCursor addr pane nibble = .ok (false, s)) ∧
      (s.grid.cursor.inBounds addr = true → s.grid.cursor.addr = addr →
        ∃ t, s.setCursor addr pane nibble = .ok (true, t) ∧ t.around = s.around ∧
          t.given = s.given ∧ t.grid.cursor.moving = false ∧
          t.grid.cursor.position = (addr, nibble, pane.getD s.grid.cursor.pane)) ∧
      (∀ b t, s.grid.cursor.inBounds addr = true → s.grid.cursor.addr ≠ addr →
        s.setCursor addr pane nibble = .ok (b, t) → b = true ∧ Told s addr pane nibble t) ∧
      ∀ commands answers t, s.performAllWith dispatch commands = .ok (answers, t) →
        Given.Leads s.given commands t.given := by
  refine ⟨?_, ?_, ?_, ?_⟩
  · intro hout
    exact setCursorWith_refused (.inl hout)
  · intro hin haddr
    exact ⟨_, setCursorWith_stayed hin hstill haddr, rfl, rfl, rfl, rfl⟩
  · intro b t hin haddr hset
    rw [setCursor, setCursorWith_moved hin hstill haddr] at hset
    obtain ⟨u, hu, hret⟩ := Checked.bind_eq_ok_iff.1 hset
    obtain ⟨rfl, rfl⟩ := Prod.mk.inj (Except.ok.inj hret)
    exact ⟨rfl, told hscripts hlog hu⟩
  · intro commands answers t h
    exact performAll_leads h hscripts

/-- A listener that would move the cursor back and that brings another one in. -/
theorem setCursor_calls_once_meddling :
    let s : Scene :=
      { grid := { Grid.create {} with
          cursor := { start := 16, stop := 20, addr := 16 }
          listeners := [.script "first" [.setCursor 16 none none, .listen "second" []]] } }
    ∃ t, s.setCursor 18 none (some .low) = .ok (true, t) ∧ Told s 18 none (some .low) t := by
  intro s
  have hscripts : ∀ l ∈ s.grid.listeners, l.isScript = true := by decide
  have hlog : ∀ l ∈ s.grid.listeners, ∀ c ∈ l.commands, c.takesLog = false := by
    intro l hl c hc
    obtain rfl := List.mem_singleton.1 hl
    have hmem : c = .setCursor 16 none none ∨ c = .listen "second" [] := by
      simpa [Listener.commands] using hc
    rcases hmem with rfl | rfl <;> rfl
  obtain ⟨b, t, h⟩ : ∃ b t, s.setCursor 18 none (some .low) = .ok (b, t) := ⟨_, _, rfl⟩
  have hmove := (setCursor_calls_once rfl hscripts hlog 18 none (some .low)).2.2.1
  obtain ⟨rfl, htold⟩ := hmove b t (by decide) (by decide) h
  exact ⟨t, h, htold⟩

end Scene

end HexEditor
