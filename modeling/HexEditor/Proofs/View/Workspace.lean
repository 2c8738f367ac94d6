import HexEditor.Proofs.View.Opening

/-!
# All views of a workspace

In a workspace every view is in step with its project and its group, no two views share a number
that they must not share, and all stores and groups can be relied on (`Sound`).  Whatever happens
concerns one project, one group and one view; the others are told.

To be in step is one of the conditions on a view that last as long as the others tell it of what
they do (`Lasting`).  What is said of workspaces here holds of each such condition (`SoundWith`).
-/

namespace HexEditor

/-- A condition on a view that every new view meets, and that lasts through everything that is
done with the view and everything that it is told of. -/
structure View.Lasting (P : View → Project → SyncGroup → Prop) : Prop where
  opened : ∀ {v p g}, v.Seated p g → v.Current p g → v.grid.cursor.stop ≤ maxAddress → P v p g
  hearsPatches : ∀ {v p g}, P v p g → p.patches.changes.Hears v.patchInbox
  hearsGroup : ∀ {v p g}, P v p g → g.events.Hears v.syncInbox
  registered : ∀ {v p g}, P v p g → ∃ ranges, g.members.get? v.member = some ranges
  of_tells : ∀ {v p q g h}, P v p g → p.patches.Tells v.patchInbox q.patches →
    g.Tells v.member v.syncInbox h → h.members.get? v.member = g.members.get? v.member → P v q h
  part : ∀ {d e : Desk}, d.Sound → P d.view d.project d.group → Desk.Part d e →
    P e.view e.project e.group ∧ Desk.Leads d e

namespace View

/-- What is made of parts keeps the condition, and tells all others. -/
theorem Lasting.parts {P : View → Project → SyncGroup → Prop} {d e : Desk} (hP : Lasting P)
    (hd : d.Sound) (h : P d.view d.project d.group) (hparts : Desk.Parts d e) :
    P e.view e.project e.group ∧ Desk.Leads d e := by
  refine hparts.keeps (P := fun e => P e.view e.project e.group ∧ Desk.Leads d e) ?_ ⟨h, .refl d⟩
  rintro e f hpart ⟨he, hleads⟩
  obtain ⟨hf, hmore⟩ := hP.part (hleads.sound hd) he hpart
  exact ⟨hf, hleads.trans hmore⟩

theorem lasting_inStep : Lasting InStep where
  opened hseated hcurrent _ := hseated.inStep hcurrent
  hearsPatches h := h.hearsPatches
  hearsGroup h := h.hearsGroup
  registered h := ⟨_, h.record⟩
  of_tells h := h.of_tells
  part hd h hpart := ⟨(hpart.steps hd h).inStep, (hpart.steps hd h).leads⟩

end View

namespace Workspace

variable {P : View → Project → SyncGroup → Prop} {w : Workspace} {v i : Nat} {s t : Seat}
  {p : Project} {g : SyncGroup}

/-- The two seats do not share what belongs to one of them. -/
structure Seat.Apart (s t : Seat) : Prop where
  patchInbox : s.project = t.project → s.view.patchInbox ≠ t.view.patchInbox
  member : s.group = t.group → s.view.member ≠ t.view.member
  syncInbox : s.group = t.group → s.view.syncInbox ≠ t.view.syncInbox

theorem Seat.Apart.symm (h : Seat.Apart s t) : Seat.Apart t s :=
  ⟨fun heq => (h.patchInbox heq.symm).symm, fun heq => (h.member heq.symm).symm,
    fun heq => (h.syncInbox heq.symm).symm⟩

/-- Stores and groups can be relied on, and every view meets the condition and is in nobody's
way. -/
structure SoundWith (P : View → Project → SyncGroup → Prop) (w : Workspace) : Prop where
  store : ∀ p ∈ w.projects, p.patches.Sound
  group : ∀ i, (w.group i).Sound
  project_lt : ∀ v s, w.seat? v = some s → s.project < w.projects.length
  view : ∀ v s, w.seat? v = some s → P s.view (w.project s.project) (w.group s.group)
  apart : ∀ v s v' s', v ≠ v' → w.seat? v = some s → w.seat? v' = some s' → Seat.Apart s s'

/-- Every view is in step. -/
abbrev Sound (w : Workspace) : Prop := w.SoundWith View.InStep

theorem Sound.inStep (hw : w.Sound) (v : Nat) (s : Seat) (hs : w.seat? v = some s) :
    s.view.InStep (w.project s.project) (w.group s.group) := hw.view v s hs

/-! ## One part of a workspace -/

theorem project_setProject_self (hi : i < w.projects.length) :
    (w.setProject i p).project i = p := by
  simp [setProject, project, hi]

theorem project_setProject_of_ne {j : Nat} (hne : j ≠ i) :
    (w.setProject i p).project j = w.project j := by
  simp [setProject, project, List.getElem?_set_ne hne.symm]

theorem group_setGroup_self : (w.setGroup i g).group i = g := by
  simp [setGroup, group]

theorem group_setGroup_of_ne {j : Nat} (hne : j ≠ i) :
    (w.setGroup i g).group j = w.group j := by
  simp [setGroup, group, OrderedMap.get?_insert_of_ne hne]

theorem SoundWith.store_project (hw : w.SoundWith P) (i : Nat) : (w.project i).patches.Sound := by
  unfold project
  cases hget : w.projects[i]? with
  | none => exact PatchStore.sound_default
  | some p => exact hw.store p (List.mem_of_getElem? hget)

/-- A project may change if its views are told. -/
theorem SoundWith.setProject (hw : w.SoundWith P) (hP : View.Lasting P) (hp : p.patches.Sound)
    (htells : ∀ v s, w.seat? v = some s → s.project = i →
      (w.project i).patches.Tells s.view.patchInbox p.patches) :
    (w.setProject i p).SoundWith P where
  store q hq := by
    rcases List.mem_or_eq_of_mem_set hq with hq | rfl
    · exact hw.store q hq
    · exact hp
  group := hw.group
  project_lt v s hs := by
    have hlength : (w.setProject i p).projects.length = w.projects.length := List.length_set ..
    rw [hlength]
    exact hw.project_lt v s hs
  view v s hs := by
    by_cases hproject : s.project = i
    · subst hproject
      rw [project_setProject_self (hw.project_lt v s hs)]
      exact hP.of_tells (hw.view v s hs) (htells v s hs rfl) (.refl _ _ _) rfl
    · rw [project_setProject_of_ne hproject]
      exact hw.view v s hs
  apart := hw.apart

/-- A group may change if its views are told and keep their records. -/
theorem SoundWith.setGroup (hw : w.SoundWith P) (hP : View.Lasting P) (hg : g.Sound)
    (htells : ∀ v s, w.seat? v = some s → s.group = i →
      (w.group i).Tells s.view.member s.view.syncInbox g ∧
        g.members.get? s.view.member = (w.group i).members.get? s.view.member) :
    (w.setGroup i g).SoundWith P where
  store := hw.store
  group j := by
    by_cases hj : j = i
    · rw [hj, group_setGroup_self]
      exact hg
    · rw [group_setGroup_of_ne hj]
      exact hw.group j
  project_lt := hw.project_lt
  view v s hs := by
    by_cases hgroup : s.group = i
    · subst hgroup
      rw [group_setGroup_self]
      obtain ⟨htold, hrecord⟩ := htells v s hs rfl
      exact hP.of_tells (hw.view v s hs) (.refl _ _) htold hrecord
    · rw [group_setGroup_of_ne hgroup]
      exact hw.view v s hs
  apart := hw.apart

/-! ## Seats -/

/-- The workspace with another seat under a number. -/
def setSeat (w : Workspace) (v : Nat) (s : Option Seat) : Workspace :=
  { w with seats := w.seats.set v s }

theorem seat?_setSeat_self (hv : v < w.seats.length) (s : Option Seat) :
    (w.setSeat v s).seat? v = s := by
  simp [setSeat, seat?, hv]

theorem seat?_setSeat_of_ne {v' : Nat} (hne : v' ≠ v) (s : Option Seat) :
    (w.setSeat v s).seat? v' = w.seat? v' := by
  simp [setSeat, seat?, List.getElem?_set_ne hne.symm]

theorem lt_of_seat? (hs : w.seat? v = some s) : v < w.seats.length := by
  by_contra hlt
  rw [seat?, List.getElem?_eq_none (not_lt.1 hlt)] at hs
  cases hs

theorem of_seat?_vacated {v' : Nat} (ht : (w.setSeat v none).seat? v' = some t) :
    v' ≠ v ∧ w.seat? v' = some t := by
  have hv' : v' ≠ v := by
    rintro rfl
    have hlt : v' < w.seats.length := by simpa [setSeat] using lt_of_seat? ht
    rw [seat?_setSeat_self hlt] at ht
    cases ht
  exact ⟨hv', by rwa [seat?_setSeat_of_ne hv'] at ht⟩

/-- A seat may be left. -/
theorem SoundWith.vacate (hw : w.SoundWith P) (v : Nat) : (w.setSeat v none).SoundWith P :=
  ⟨hw.store, hw.group, fun v' s hs => hw.project_lt v' s (of_seat?_vacated hs).2,
    fun v' s hs => hw.view v' s (of_seat?_vacated hs).2,
    fun v' s v'' s' hne hs hs' =>
      hw.apart v' s v'' s' hne (of_seat?_vacated hs).2 (of_seat?_vacated hs').2⟩

/-- A view may leave its seat after changes to its project and its group of which the others
have been told. -/
theorem SoundWith.leave {j : Nat} (hw : w.SoundWith P) (hP : View.Lasting P)
    (hp : p.patches.Sound) (hg : g.Sound)
    (hstore : ∀ v' t, v' ≠ v → w.seat? v' = some t → t.project = i →
      (w.project i).patches.Tells t.view.patchInbox p.patches)
    (hgroup : ∀ v' t, v' ≠ v → w.seat? v' = some t → t.group = j →
      (w.group j).Tells t.view.member t.view.syncInbox g ∧
        g.members.get? t.view.member = (w.group j).members.get? t.view.member) :
    (((w.setSeat v none).setProject i p).setGroup j g).SoundWith P := by
  have hproject : ((w.setSeat v none).setProject i p).SoundWith P := by
    refine (hw.vacate v).setProject hP hp fun v' t ht hi => ?_
    obtain ⟨hv', ht⟩ := of_seat?_vacated ht
    exact hstore v' t hv' ht hi
  refine hproject.setGroup hP hg fun v' t ht hj => ?_
  obtain ⟨hv', ht⟩ := of_seat?_vacated ht
  exact hgroup v' t hv' ht hj

/-- A seat may be taken by a view that is in step and in nobody's way. -/
theorem SoundWith.occupy (hw : w.SoundWith P) (hproject : s.project < w.projects.length)
    (hview : P s.view (w.project s.project) (w.group s.group))
    (hapart : ∀ v' s', v' ≠ v → w.seat? v' = some s' → Seat.Apart s s') :
    (w.setSeat v (some s)).SoundWith P := by
  have hseat : ∀ v' s', (w.setSeat v (some s)).seat? v' = some s' →
      v' = v ∧ s' = s ∨ v' ≠ v ∧ w.seat? v' = some s' := by
    intro v' s' hs'
    by_cases hv' : v' = v
    · subst hv'
      have hlt : v' < w.seats.length := by simpa [setSeat] using lt_of_seat? hs'
      rw [seat?_setSeat_self hlt] at hs'
      exact .inl ⟨rfl, (Option.some.inj hs').symm⟩
    · rw [seat?_setSeat_of_ne hv'] at hs'
      exact .inr ⟨hv', hs'⟩
  refine ⟨hw.store, hw.group, fun v' s' hs' => ?_, fun v' s' hs' => ?_,
    fun v' s' v'' s'' hne hs' hs'' => ?_⟩
  · rcases hseat v' s' hs' with ⟨rfl, rfl⟩ | ⟨-, hs'⟩
    · exact hproject
    · exact hw.project_lt v' s' hs'
  · rcases hseat v' s' hs' with ⟨rfl, rfl⟩ | ⟨-, hs'⟩
    · exact hview
    · exact hw.view v' s' hs'
  · rcases hseat v' s' hs' with ⟨rfl, rfl⟩ | ⟨hv', hold⟩
    · rcases hseat v'' s'' hs'' with ⟨rfl, rfl⟩ | ⟨hv'', hold'⟩
      · exact absurd rfl hne
      · exact hapart v'' s'' hv'' hold'
    · rcases hseat v'' s'' hs'' with ⟨rfl, rfl⟩ | ⟨hv'', hold'⟩
      · exact (hapart v' s' hv' hold).symm
      · exact hw.apart v' s' v'' s'' hne hold hold'

/-- A view takes its seat again, or a new one, after something has happened at its desk of
which the others have been told. -/
theorem SoundWith.putBack {d : Desk} (hw : w.SoundWith P) (hP : View.Lasting P)
    (hproject : s.project < w.projects.length) (hd : d.Sound) (hview : P d.view d.project d.group)
    (hapart : ∀ v' t, v' ≠ v → w.seat? v' = some t → Seat.Apart { s with view := d.view } t)
    (hstore : ∀ v' t, v' ≠ v → w.seat? v' = some t → t.project = s.project →
      (w.project s.project).patches.Tells t.view.patchInbox d.project.patches)
    (hgroup : ∀ v' t, v' ≠ v → w.seat? v' = some t → t.group = s.group →
      (w.group s.group).Tells t.view.member t.view.syncInbox d.group ∧
        d.group.members.get? t.view.member = (w.group s.group).members.get? t.view.member) :
    (w.putBack v s d).SoundWith P := by
  -- while the view is away its project and its group change, and then it takes its seat
  have hleft := hw.leave hP hd.store hd.group hstore hgroup
  have hseated := hleft.occupy (v := v) (s := { s with view := d.view }) ?_ ?_ ?_
  · have hseats : (w.seats.set v none).set v (some { s with view := d.view }) =
        w.seats.set v (some { s with view := d.view }) := List.set_set ..
    unfold setSeat Workspace.setGroup Workspace.setProject at hseated
    simp only [hseats] at hseated
    exact ⟨hseated.store, hseated.group, hseated.project_lt, hseated.view, hseated.apart⟩
  · change s.project < (w.projects.set s.project d.project).length
    rwa [List.length_set]
  · have hself : ((w.setSeat v none).setProject s.project d.project).project s.project =
        d.project := project_setProject_self hproject
    rw [group_setGroup_self]
    change P d.view (((w.setSeat v none).setProject s.project d.project).project s.project) _
    rw [hself]
    exact hview
  · intro v' t hv' ht
    exact hapart v' t hv' (of_seat?_vacated ht).2

end Workspace

end HexEditor
