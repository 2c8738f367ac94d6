import HexEditor.Proofs.Grid.Consistency
import HexEditor.Proofs.Grid.Listeners

/-!
# Moves that everybody answers

A move to another address fails only where a listener fails that it calls.  Which listener is called
in which scene depends on what those before it have done (`CalledIn`), so that what is asked of the
listeners is asked of the calls that the move really makes.  If each of them answers and keeps a
property of the scene, then the move answers and ends with that property (`exists_setCursor`).
-/

namespace HexEditor

namespace Scene

variable {s t : Scene} {P : Scene → Prop}

/-- The listener `l` is called in the scene `u` when listeners are called one after the other. -/
inductive CalledIn : List Listener → Scene → Listener → Scene → Prop
  | here {l : Listener} {rest : List Listener} {s : Scene} : CalledIn (l :: rest) s l s
  | later {k l : Listener} {rest : List Listener} {s t u : Scene} (hk : s.call k = .ok t)
      (h : CalledIn rest t l u) : CalledIn (k :: rest) s l u

theorem CalledIn.mem {ls : List Listener} {l : Listener} {u : Scene} (h : CalledIn ls s l u) :
    l ∈ ls := by
  induction h with
  | here => exact List.mem_cons_self
  | later _ _ ih => exact List.mem_cons_of_mem _ ih

theorem exists_foldlM_call {ls : List Listener}
    (hcall : ∀ l u, CalledIn ls s l u → P u → ∃ v, u.call l = .ok v ∧ P v) (hs : P s) :
    ∃ t, ls.foldlM call s = .ok t ∧ P t := by
  induction ls generalizing s with
  | nil => exact ⟨s, rfl, hs⟩
  | cons l rest ih =>
      obtain ⟨u, hu, hkept⟩ := hcall l s .here hs
      obtain ⟨t, ht, hlast⟩ := ih (fun m v hm => hcall m v (.later hu hm)) hkept
      refine ⟨t, ?_, hlast⟩
      rw [List.foldlM_cons, hu]
      exact ht

/-- The listener `l` is called in the scene `u` on a move. -/
structure CalledByMove (s : Scene) (addr : Nat) (pane : Option Pane) (nibble : Option Nibble)
    (l : Listener) (u : Scene) : Prop where
  inBounds : s.grid.cursor.inBounds addr = true
  moved : s.grid.cursor.addr ≠ addr
  called : CalledIn s.grid.listeners (s.telling addr pane nibble) l u

/-- A move answers, whether it is taken or not, as far as the listeners do that it calls, and what
these keep is so at its end. -/
theorem exists_setCursor (addr : Nat) (pane : Option Pane) (nibble : Option Nibble)
    (hstill : s.grid.cursor.moving = false)
    (hcall : ∀ l u, s.CalledByMove addr pane nibble l u → P u → ∃ v, u.call l = .ok v ∧ P v)
    (hstayed : P (s.placing addr pane nibble).settled) (htelling : P (s.telling addr pane nibble))
    (hended : ∀ u, P u →
      P (u.mapGrid fun g => { g with listeners := s.grid.listeners ++ g.listeners }).settled) :
    ∃ t, s.setCursor addr pane nibble = .ok (s.grid.cursor.inBounds addr, t) ∧
      if s.grid.cursor.inBounds addr then P t else t = s := by
  cases hin : s.grid.cursor.inBounds addr with
  | false => exact ⟨s, setCursorWith_refused (.inl hin), rfl⟩
  | true =>
      by_cases hmoved : s.grid.cursor.addr = addr
      · exact ⟨_, setCursorWith_stayed hin hstill hmoved, hstayed⟩
      · obtain ⟨u, hu, hkept⟩ :=
          exists_foldlM_call (fun l v hl => hcall l v ⟨hin, hmoved, hl⟩) htelling
        have hdispatch : dispatch ((s.placing addr pane nibble).mapGrid (·.updateActive)) =
            .ok (u.mapGrid fun g => { g with listeners := s.grid.listeners ++ g.listeners }) :=
          Checked.bind_eq_ok_iff.2 ⟨u, hu, rfl⟩
        refine ⟨_, ?_, hended u hkept⟩
        rw [setCursor, setCursorWith_moved hin hstill hmoved, hdispatch]
        rfl

/-- A command leaves a consistent grid consistent. -/
theorem perform_consistent {c : Command} {a : Answer} (h : s.grid.Consistent)
    (hc : s.perform c = .ok (a, t)) : t.grid.Consistent :=
  ⟨(performed hc).orderly dispatch_orderly h.toOrderly, (performed hc).moving.trans h.still⟩

end Scene

end HexEditor
