import HexEditor.Proofs.View.Company
import Mathlib.Data.List.Induction

/-!
# The echo of a view's own moves

A view that is used while others follow it should do what it does alone.  But a follower announces
its own move when it follows, and that announcement waits in the mail of the view that it has
followed.  If the view is pumped before it moves on, nothing happens, since it is asked to go to
where it is.  If it moves on first, the input that moves it ends with pumping, and the view turns
back to where it was, losing the selection.  `undisturbed_iff` says that this is all that can
happen: everything is as in the run alone, up to the first input that moves the view while an
announcement waits.
-/

namespace HexEditor

/-- What is seen of a view: its cursor, its selection, and the patches. -/
structure Shown where
  cursor : Nat
  nibble : Option Nibble
  pane : Pane
  selection : Option Span
  patches : PatchSet

/-- What is seen of an open view of a workspace. -/
def Workspace.shown? (w : Workspace) (v : Nat) : Option Shown :=
  (w.seat? v).map fun s =>
    { cursor := s.view.grid.cursor.addr
      nibble := s.view.grid.cursor.nibble
      pane := s.view.grid.cursor.pane
      selection := s.view.grid.cursor.selection?
      patches := (w.project s.project).patches.set }

/-- Something that happens while one view is used: the user does something with it, any view is
pumped, or another view joins. -/
inductive Use where
  | input (r : ViewRequest) (h : r.isInput = true)
  | pump (v : Nat)
  | join (options : ViewOptions)

namespace Use

/-- What happens in a workspace where the view that is used has the number `a`. -/
def request (a : Nat) : Use → WorkspaceRequest
  | input r _ => .view a r
  | pump v => .view v .pump
  | join options => .openView 0 0 options

/-- What is left of it when the view is alone. -/
def alone? : Use → Option WorkspaceRequest
  | input r _ => some (.view 0 r)
  | _ => none

end Use

/-- Some views of one project in one group, of which the last one follows the others and is the
one that is used. -/
structure Company where
  project : Project
  sound : project.patches.Sound
  before : List ViewOptions
  options : ViewOptions
  follows : options.follow = true

namespace Company

/-- The number of the view that is used. -/
def number (c : Company) : Nat := c.before.length

/-- The workspace in which the views are opened and then some things happen. -/
def together (c : Company) (uses : List Use) : Checked Workspace :=
  Workspace.run { projects := [c.project] }
    (c.before.map (.openView 0 0) ++ [.openView 0 0 c.options] ++ uses.map (Use.request c.number))

/-- The workspace in which the view that is used is alone. -/
def alone (c : Company) (uses : List Use) : Checked Workspace :=
  Workspace.run { projects := [c.project] }
    ([.openView 0 0 c.options] ++ uses.filterMap Use.alone?)

/-- After whatever happens the view shows what it shows when it is alone. -/
def Undisturbed (c : Company) (uses : List Use) : Prop :=
  ∀ es, es <+: uses →
    Checked.Rel (fun w u => w.shown? c.number = u.shown? 0) (c.together es) (c.alone es)

/-- Some input moves the view while the announcement of another one waits in its mail. -/
def TurnsBack (c : Company) (uses : List Use) : Prop :=
  ∃ es r h w u u', es ++ [.input r h] <+: uses ∧ c.together es = .ok w ∧ c.alone es = .ok u ∧
    c.alone (es ++ [.input r h]) = .ok u' ∧ w.EchoWaits c.number ∧ u'.address? 0 ≠ u.address? 0

end Company

/-! ## Runs -/

namespace Workspace

variable {a : Nat} {w w' u : Workspace} {p : Project}

/-- Paired views show the same. -/
theorem Related.shown (h : Related a w u) : w.shown? a = u.shown? 0 := by
  obtain ⟨s, t, hs, ht, -, hpaired⟩ := h.seats
  have hscene := hpaired.twins.scene
  have hcursor : s.view.grid.cursor = t.view.grid.cursor := hscene.cursor
  have hset : (w.project s.project).patches.set = (u.project t.project).patches.set :=
    hscene.patches
  unfold shown?
  rw [hs, ht, Option.map_some, Option.map_some, hcursor, hset]

theorem address?_of_shown? {v v' : Nat} (h : w.shown? v = u.shown? v') :
    w.address? v = u.address? v' := by
  have haddress : ∀ (w : Workspace) (v : Nat), w.address? v = (w.shown? v).map Shown.cursor := by
    intro w v
    unfold address? shown?
    rw [Option.map_map]
    rfl
  rw [haddress, haddress, h]

/-- Either all views that are to be opened first can be opened, or none can. -/
theorem Gathered.run (h : Gathered p w) (before : List ViewOptions) :
    (∃ w', w.run (before.map (.openView 0 0)) = .ok w' ∧ Gathered p w' ∧
      w'.seats.length = w.seats.length + before.length) ∨
    ∃ e, w.run (before.map (.openView 0 0)) = .error e ∧ Desk.frame p = .error e := by
  induction before generalizing w with
  | nil => exact .inl ⟨w, rfl, h, rfl⟩
  | cons options rest ih =>
      have hopen := openView_eq w options
      rw [Desk.frame_congr h.image] at hopen
      rw [List.map_cons, ← List.singleton_append, run_append, run_singleton, hopen]
      cases hf : Desk.frame p with
      | error e => exact .inr ⟨e, rfl, rfl⟩
      | ok f =>
          rw [hf, Checked.ok_bind] at hopen
          obtain ⟨hgathered, hlength⟩ := h.join hopen
          rw [hf] at ih
          rcases ih hgathered with ⟨w', hrun, hw', hlength'⟩ | ⟨e, -, he⟩
          · refine .inl ⟨w', hrun, hw', ?_⟩
            rw [hlength', hlength, List.length_cons, Nat.add_assoc, Nat.add_comm 1]
          · cases he

end Workspace

namespace Company

variable {c : Company} {w w' u u' : Workspace} {uses : List Use}

theorem together_concat (c : Company) (uses : List Use) (e : Use) :
    c.together (uses ++ [e]) = c.together uses >>= fun w => w.perform (e.request c.number) := by
  unfold together
  rw [List.map_append, List.map_singleton, ← List.append_assoc, Workspace.run_append]
  simp only [Workspace.run_singleton]

theorem alone_concat_input (c : Company) (uses : List Use) {r : ViewRequest}
    (h : r.isInput = true) :
    c.alone (uses ++ [.input r h]) = c.alone uses >>= fun u => u.perform (.view 0 r) := by
  have hone : [Use.input r h].filterMap Use.alone? = [.view 0 r] := rfl
  unfold alone
  rw [List.filterMap_append, hone, ← List.append_assoc, Workspace.run_append]
  simp only [Workspace.run_singleton]

theorem alone_concat_of_none (c : Company) (uses : List Use) {e : Use} (h : e.alone? = none) :
    c.alone (uses ++ [e]) = c.alone uses := by
  unfold alone
  rw [List.filterMap_append, List.filterMap_cons_none h, List.filterMap_nil, List.append_nil]

/-- At the beginning the view and the same view alone are paired. -/
theorem related_nil (c : Company) :
    Checked.Rel (Workspace.Related c.number) (c.together []) (c.alone []) := by
  have hstart := Workspace.gathered_start c.sound
  unfold together alone
  rw [List.map_nil, List.filterMap_nil, List.append_nil, List.append_nil, Workspace.run_append,
    Workspace.run_singleton]
  rcases hstart.run c.before with ⟨w, hrun, hw, hlength⟩ | ⟨e, hrun, hframe⟩
  · rw [hrun, Checked.ok_bind, Workspace.run_singleton]
    have hnumber : w.seats.length = c.number := hlength.trans (Nat.zero_add _)
    rw [← hnumber]
    exact hw.lead hstart rfl c.follows
  · have hopen := Workspace.openView_eq { projects := [c.project] } c.options
    rw [Desk.frame_congr hstart.image, hframe] at hopen
    rw [hrun, hopen]
    exact .error e

/-- The use `e` makes the view turn back after `uses`. -/
def TurnsBackAt (c : Company) (uses : List Use) (e : Use) : Prop :=
  ∃ r h w u w' u', e = .input r h ∧ c.together uses = .ok w ∧ c.alone uses = .ok u ∧
    c.together (uses ++ [e]) = .ok w' ∧ c.alone (uses ++ [e]) = .ok u' ∧
    Workspace.TurnsBack c.number w u u' ∧ w'.address? c.number ≠ u'.address? 0

/-- Whatever happens next, the view and the same view alone stay paired, or the view turns back. -/
theorem related_concat {uses : List Use}
    (h : Checked.Rel (Workspace.Related c.number) (c.together uses) (c.alone uses)) (e : Use) :
    Checked.Rel (Workspace.Related c.number) (c.together (uses ++ [e])) (c.alone (uses ++ [e])) ∨
      c.TurnsBackAt uses e := by
  cases e with
  | input r hr =>
      rw [or_iff_not_imp_right]
      intro hturns
      rw [together_concat, alone_concat_input]
      refine h.results.bind ?_
      rintro w u ⟨hw, hu, hrelated⟩
      refine (hrelated.input hr).results.mono ?_
      rintro w' u' ⟨hw', hu', hquiet, hecho⟩
      refine hquiet fun hturn => hturns ⟨r, hr, w, u, w', u', rfl, hw, hu, ?_, ?_, hturn, hecho hturn⟩
      · rw [together_concat, hw]
        exact hw'
      · rw [alone_concat_input, hu]
        exact hu'
  | pump v =>
      -- the run alone does not take part in this, nor in the next case
      refine .inl ?_
      rw [together_concat, alone_concat_of_none c uses rfl]
      generalize c.together uses = x at h ⊢
      generalize c.alone uses = y at h ⊢
      cases h with
      | error e => exact .error e
      | ok hrelated =>
          obtain ⟨w', hw', hrelated'⟩ := hrelated.pump v
          rw [Checked.ok_bind, Use.request, hw']
          exact .ok hrelated'
  | join options =>
      refine .inl ?_
      rw [together_concat, alone_concat_of_none c uses rfl]
      generalize c.together uses = x at h ⊢
      generalize c.alone uses = y at h ⊢
      cases h with
      | error e => exact .error e
      | ok hrelated =>
          obtain ⟨w', hw', hrelated'⟩ := hrelated.join options
          rw [Checked.ok_bind, Use.request, hw']
          exact .ok hrelated'

/-- Whatever happens, the view and the same view alone stay paired, or at some point the view turns
back. -/
theorem related_or_turnsBackAt (c : Company) (uses : List Use) :
    (∀ es, es <+: uses →
      Checked.Rel (Workspace.Related c.number) (c.together es) (c.alone es)) ∨
    ∃ es e, es ++ [e] <+: uses ∧ c.TurnsBackAt es e := by
  -- from the end of the list, since a run goes on at its end
  induction uses using List.reverseRecOn with
  | nil =>
      refine .inl fun es hes => ?_
      rw [List.prefix_nil.1 hes]
      exact c.related_nil
  | append_singleton uses e ih =>
      rcases ih with hrelated | ⟨es, e', hes, hturns⟩
      · rcases related_concat (hrelated uses (List.prefix_refl _)) e with hnext | hturns
        · refine .inl fun es hes => ?_
          rcases List.prefix_concat_iff.1 hes with rfl | hes
          · exact hnext
          · exact hrelated es hes
        · exact .inr ⟨uses, e, List.prefix_refl _, hturns⟩
      · exact .inr ⟨es, e', hes.trans (List.prefix_append _ _), hturns⟩

/-- Other views that follow a view, and all the pumping, are not seen in what the view shows, unless
it is moved while the announcement of another view, which has followed it, waits in its mail; and
then they are seen. -/
theorem undisturbed_iff (c : Company) (uses : List Use) : c.Undisturbed uses ↔ ¬ c.TurnsBack uses := by
  rcases c.related_or_turnsBackAt uses with hrelated | ⟨es, e, hes, r, hr, w, u, w', u', rfl, hw, hu,
    hw', hu', ⟨hwaits, hmoved⟩, haway⟩
  · refine ⟨fun _ => ?_, fun _ es hes => (hrelated es hes).mono fun w u => Workspace.Related.shown⟩
    rintro ⟨es, r, hr, w, u, u', hes, hw, hu, hu', hwaits, hmoved⟩
    have hrelated' := (hrelated es ((List.prefix_append _ _).trans hes)).of_ok hw hu
    have hperform : u.perform (.view 0 r) = .ok u' := by
      rw [alone_concat_input, hu] at hu'
      exact hu'
    have hnext := hrelated _ hes
    rw [together_concat, hw, hu', Checked.ok_bind] at hnext
    obtain ⟨w', hw', hend⟩ := hnext.exists_ok
    -- the view turns back, and yet it is where it is when it is alone
    obtain ⟨-, haway⟩ := (hrelated'.input hr).of_ok hw' hperform
    exact haway ⟨hwaits, hmoved⟩ (Workspace.address?_of_shown? hend.shown)
  · refine ⟨fun hundisturbed => ?_, fun hnever => ?_⟩
    · have hshown := (hundisturbed _ hes).of_ok hw' hu'
      exact absurd (Workspace.address?_of_shown? hshown) haway
    · exact absurd ⟨es, r, hr, w, u, u', hes, hw, hu, hu', hwaits, hmoved⟩ hnever

theorem Undisturbed.address {c : Company} {uses : List Use} (h : c.Undisturbed uses) :
    Except.map (·.address? c.number) (c.together uses) =
      Except.map (·.address? 0) (c.alone uses) := by
  have hshown := h uses (List.prefix_refl _)
  generalize c.together uses = x at hshown ⊢
  generalize c.alone uses = y at hshown ⊢
  cases hshown with
  | ok hshown => exact congrArg Except.ok (Workspace.address?_of_shown? hshown)
  | error e => rfl

/-- A view jumps to 3, another one follows it, and the view jumps to 7: it is at 3 again. -/
theorem not_undisturbed_jumps : ¬ ∀ (c : Company) (uses : List Use), c.Undisturbed uses := by
  intro hall
  have hback := (hall
    { project := { image := .ofBytes 0 [0, 1, 2, 3, 4, 5, 6, 7] }, sound := PatchStore.sound_default
      before := [], options := {}, follows := rfl }
    [.join {}, .input (.jumpTo 3) rfl, .pump 1, .input (.jumpTo 7) rfl]).address
  have hdiffer : (Except.ok (some 3) : Checked (Option Nat)) = .ok (some 7) := hback
  cases hdiffer

end Company

end HexEditor
