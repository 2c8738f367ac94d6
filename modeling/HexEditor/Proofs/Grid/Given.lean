import HexEditor.Proofs.Grid.Command
import Mathlib.Logic.Function.Iterate

/-!
# What has been given to a grid

A grid is given three lists of regions and some listeners.  What it has of them after a run can
be said without the grid: a command replaces a list, or puts a listener behind the others, or
changes nothing of the kind, and a move that takes the cursor to another address has every
listener that is there by then carry out its script, once and in order (`round`).  `Leads`
replays a run in this way, and `performAll_leads` says that the grid follows the replay.

The names of those that have been called belong to the record, so that nobody is called in a
replay who has not been called in the run.
-/

namespace HexEditor

def ListenerCall.name : ListenerCall → String
  | mk name .. => name

namespace Listener

/-- What the listener carries out when it is called. -/
def commands : Listener → List Command
  | script _ commands => commands
  | viewUpkeep => []

def isScript : Listener → Bool
  | script .. => true
  | viewUpkeep => false

end Listener

/-- What a grid has been given, and who has been called. -/
structure Given where
  classification : List Region := []
  synchronized : List Region := []
  patches : List Region := []
  listeners : List Listener := []
  called : List String := []

namespace Given

/-- What there is after a command, before anybody has been told about a move. -/
def after (x : Given) : Command → Given
  | .setClassification regions => { x with classification := regions }
  | .setSynchronized regions => { x with synchronized := regions }
  | .setPatches regions => { x with patches := regions }
  | .listen name script => { x with listeners := x.listeners ++ [.script name script] }
  | .takeLog => { x with called := [] }
  | _ => x

def record (x : Given) (name : String) : Given := { x with called := x.called ++ [name] }

/-- A listener carries out its script, and is put on record. -/
def call (x : Given) : Listener → Given
  | .script name commands => (commands.foldl after x).record name
  | .viewUpkeep => x

/-- Every listener is called once, in order. -/
def round (x : Given) : Given := x.listeners.foldl call x

/-- A replay of a run: after each command come some rounds, and none where the cursor cannot
have moved. -/
inductive Leads : Given → List Command → Given → Prop
  | nil (x : Given) : Leads x [] x
  | cons {x y : Given} {c : Command} {rest : List Command} (n : Nat)
      (hn : c.moves = false → n = 0) (h : Leads (round^[n] (x.after c)) rest y) :
      Leads x (c :: rest) y

variable {x y : Given}

theorem after_of_moves {c : Command} (h : c.moves = true) : x.after c = x := by
  cases c <;> first | rfl | cases h

/-! ## Listeners that are taken out meanwhile -/

/-- The same with some more listeners in front. -/
def behind (ls : List Listener) (x : Given) : Given := { x with listeners := ls ++ x.listeners }

theorem behind_after (ls : List Listener) (x : Given) (c : Command) :
    (x.behind ls).after c = (x.after c).behind ls := by
  cases c with
  | listen name script => exact congrArg (fun l => { x with listeners := l }) (List.append_assoc ..)
  | _ => rfl

theorem behind_call (ls : List Listener) (x : Given) (l : Listener) :
    (x.behind ls).call l = (x.call l).behind ls := by
  cases l with
  | viewUpkeep => rfl
  | script name commands =>
      exact congrArg (·.record name) (List.foldl_hom (behind ls) (behind_after ls))

/-! ## All listeners are scripts -/

def Scripted (x : Given) : Prop := ∀ l ∈ x.listeners, l.isScript = true

theorem Scripted.after (h : x.Scripted) (c : Command) : (x.after c).Scripted := by
  cases c with
  | listen name script =>
      intro l hl
      rcases List.mem_append.1 hl with hl | hl
      · exact h l hl
      · rw [List.mem_singleton.1 hl]
        rfl
  | _ => exact h

theorem Scripted.call (h : x.Scripted) (l : Listener) : (x.call l).Scripted := by
  cases l with
  | viewUpkeep => exact h
  | script name commands =>
      exact List.foldlRecOn (motive := Scripted) commands Given.after h fun _ hx c _ => hx.after c

theorem Scripted.round (h : x.Scripted) : x.round.Scripted :=
  List.foldlRecOn (motive := Scripted) x.listeners Given.call h fun _ hx l _ => hx.call l

end Given

/-- A loop keeps what each of its turns keeps. -/
theorem Checked.foldlM_keeps {α β : Type} {f : β → α → Checked β} {P : β → Prop} {l : List α}
    {b c : β} (hstep : ∀ {b c a}, a ∈ l → f b a = .ok c → P b → P c)
    (h : l.foldlM f b = .ok c) (hb : P b) : P c := by
  induction l generalizing b with
  | nil =>
      obtain rfl := Except.ok.inj h
      exact hb
  | cons a rest ih =>
      rw [List.foldlM_cons] at h
      obtain ⟨d, hd, hrest⟩ := Checked.bind_eq_ok_iff.1 h
      exact ih (fun hmem => hstep (List.mem_cons_of_mem a hmem)) hrest
        (hstep List.mem_cons_self hd hb)

namespace Scene

variable {notify : Notify} {s t u : Scene}

/-- What the grid of a scene has been given. -/
def given (s : Scene) : Given where
  classification := s.grid.overlay.classification
  synchronized := s.grid.overlay.synchronized
  patches := s.grid.overlay.patches
  listeners := s.grid.listeners
  called := s.around.log.map ListenerCall.name

/-! ## While a move is under way -/

/-- The steps of a move give the grid nothing.  Whoever is told about it may do so. -/
theorem Step.given_eq (h : Step notify s t) :
    t.given = s.given ∨ s.grid.cursor.moving = false ∧ ∃ u v, u.given = s.given ∧
      u.grid.cursor.moving = true ∧ notify u = .ok v ∧ t.given = v.given := by
  cases h with
  | press on => exact .inl rfl
  | beginSelection => exact .inl rfl
  | clearSelection => exact .inl rfl
  | write h =>
      obtain ⟨source, patches, rfl⟩ := write_frame h
      exact .inl rfl
  | setCursor h =>
      cases placed h with
      | refused => exact .inl rfl
      | stayed => exact .inl rfl
      | moved _ hstill _ hnotify =>
          refine .inr ⟨hstill, _, _, ?_, ?_, hnotify, rfl⟩
          · rfl
          · rfl

theorem Handles.given_of_moving (h : Handles notify s t) (hmoving : s.grid.cursor.moving = true) :
    t.given = s.given := by
  refine (h.keeps (P := fun t => t.grid.cursor.moving = true ∧ t.given = s.given)
    ?_ ⟨hmoving, rfl⟩).2
  rintro t u hstep ⟨ht, hgiven⟩
  refine ⟨hstep.moving.trans ht, ?_⟩
  rcases hstep.given_eq with heq | ⟨hstill, -⟩
  · exact heq.trans hgiven
  · rw [ht] at hstill
    cases hstill

/-- What is not made of moves gives the grid what it says. -/
theorem Performed.given_of_not_moves {c : Command} (h : Performed notify s c t)
    (hmoves : c.moves = false) : t.given = s.given.after c := by
  cases h with
  | handled h => rw [h] at hmoves; cases hmoves
  | region h =>
      obtain ⟨sheet, -, rfl⟩ := setRegion_cursor h
      rfl
  | changed h =>
      cases c <;> cases h <;> try rfl
      next metrics =>
        simp only [given, mapGrid, Grid.setMetrics]
        split <;> rfl
  | looked hlooks => cases c <;> first | rfl | cases hlooks
  | logTaken => rfl

theorem Performed.given_of_moving {c : Command} (h : Performed notify s c t)
    (hmoving : s.grid.cursor.moving = true) : t.given = s.given.after c := by
  by_cases hmoves : c.moves = true
  · rw [(h.handles hmoves).given_of_moving hmoving, Given.after_of_moves hmoves]
  · exact h.given_of_not_moves (Bool.not_eq_true _ ▸ hmoves)

theorem performAll_given {commands : List Command} {answers : List Answer}
    (h : s.performAllWith notify commands = .ok (answers, t))
    (hmoving : s.grid.cursor.moving = true) : t.given = commands.foldl Given.after s.given := by
  induction commands generalizing s answers with
  | nil =>
      obtain ⟨-, rfl⟩ := Prod.mk.inj (Except.ok.inj h)
      rfl
  | cons c rest ih =>
      obtain ⟨a, u, as, hc, hrest, -⟩ := performAllWith_cons.1 h
      have hu := performed hc
      rw [List.foldl_cons, ← hu.given_of_moving hmoving]
      exact ih hrest (hu.moving.trans hmoving)

theorem call_given {l : Listener} (hscript : l.isScript = true) (h : s.call l = .ok t)
    (hmoving : s.grid.cursor.moving = true) : t.given = s.given.call l := by
  cases l with
  | viewUpkeep => cases hscript
  | script name commands =>
      obtain ⟨answers, u, hall, rfl⟩ := call_script h
      calc _ = u.given.record name :=
            congrArg (fun names => { u.given with called := names }) List.map_append
        _ = s.given.call (.script name commands) :=
            congrArg (·.record name) (performAll_given hall hmoving)

theorem foldlM_call_given {ls : List Listener} (hscripts : ∀ l ∈ ls, l.isScript = true)
    (h : ls.foldlM call s = .ok t) (hmoving : s.grid.cursor.moving = true) :
    t.given = ls.foldl Given.call s.given := by
  induction ls generalizing s with
  | nil =>
      obtain rfl := Except.ok.inj h
      rfl
  | cons l rest ih =>
      rw [List.foldlM_cons] at h
      obtain ⟨u, hu, hrest⟩ := Checked.bind_eq_ok_iff.1 h
      rw [List.foldl_cons, ← call_given (hscripts l List.mem_cons_self) hu hmoving]
      exact ih (fun l hl => hscripts l (List.mem_cons_of_mem _ hl)) hrest
        ((call_moving hu).trans hmoving)

/-- A dispatch is a round. -/
theorem dispatch_given (hscripts : s.given.Scripted) (h : dispatch s = .ok t)
    (hmoving : s.grid.cursor.moving = true) : t.given = s.given.round := by
  obtain ⟨u, hu, hret⟩ := Checked.bind_eq_ok_iff.1 h
  obtain rfl := Except.ok.inj hret
  -- the listeners are called while the grid has none, and new ones are put behind them
  let ls := s.grid.listeners
  let emptied := s.mapGrid fun g => { g with listeners := [] }
  have hbehind : emptied.given.behind ls = s.given :=
    congrArg (fun l => { s.given with listeners := l }) (List.append_nil ls)
  calc (u.mapGrid fun g => { g with listeners := ls ++ g.listeners }).given
      = u.given.behind ls := rfl
    _ = (ls.foldl Given.call emptied.given).behind ls :=
        congrArg _ (foldlM_call_given hscripts hu hmoving)
    _ = ls.foldl Given.call (emptied.given.behind ls) :=
        (List.foldl_hom (Given.behind ls) (Given.behind_call ls)).symm
    _ = s.given.round := by rw [hbehind]; rfl

/-! ## A whole run -/

/-- A move in several steps makes several rounds. -/
theorem Handles.given_eq (h : Handles dispatch s t) (hscripts : s.given.Scripted) :
    t.given.Scripted ∧ ∃ n, t.given = Given.round^[n] s.given := by
  refine h.keeps (P := fun t => t.given.Scripted ∧ ∃ n, t.given = Given.round^[n] s.given)
    ?_ ⟨hscripts, 0, rfl⟩
  rintro t u hstep ⟨ht, n, hn⟩
  rcases hstep.given_eq with heq | ⟨-, v, w, hv, hmoving, hw, hu⟩
  · rw [heq]
    exact ⟨ht, n, hn⟩
  · have hround : u.given = t.given.round := by
      rw [hu, dispatch_given (by rw [hv]; exact ht) hw hmoving, hv]
    rw [hround]
    refine ⟨ht.round, n + 1, ?_⟩
    rw [Function.iterate_succ_apply', ← hn]

theorem Performed.given_eq {c : Command} (h : Performed dispatch s c t)
    (hscripts : s.given.Scripted) :
    t.given.Scripted ∧ ∃ n, (c.moves = false → n = 0) ∧
      t.given = Given.round^[n] (s.given.after c) := by
  by_cases hmoves : c.moves = true
  · obtain ⟨ht, n, hn⟩ := (h.handles hmoves).given_eq hscripts
    rw [Given.after_of_moves hmoves]
    refine ⟨ht, n, fun hnot => ?_, hn⟩
    rw [hmoves] at hnot
    cases hnot
  · have hgiven := h.given_of_not_moves (Bool.not_eq_true _ ▸ hmoves)
    rw [hgiven]
    exact ⟨hscripts.after c, 0, fun _ => rfl, rfl⟩

/-- A run gives the grid what its replay says. -/
theorem performAll_leads {commands : List Command} {answers : List Answer}
    (h : s.performAllWith dispatch commands = .ok (answers, t))
    (hscripts : s.given.Scripted) :
    Given.Leads s.given commands t.given := by
  induction commands generalizing s answers with
  | nil =>
      obtain ⟨-, rfl⟩ := Prod.mk.inj (Except.ok.inj h)
      exact .nil _
  | cons c rest ih =>
      obtain ⟨a, u, as, hc, hrest, -⟩ := performAllWith_cons.1 h
      obtain ⟨hscripts, n, hn, hgiven⟩ := (performed hc).given_eq hscripts
      refine .cons n hn ?_
      rw [← hgiven]
      exact ih hrest hscripts

end Scene

end HexEditor
