import HexEditor.Proofs.View.Attained
import HexEditor.Proofs.View.Calm

/-!
# Pumping settles

A view that is pumped may go to where another view is and tell all others, who go there when they
are pumped in their turn, and so on; and where the mail of the others would have them go can be
anywhere.  Three rounds, in each of which every view is pumped, bring this to an end.

* In the first round nobody goes anywhere, or from the first one who does on all others are asked
  to go to the same place as it went, and whoever tells more of that tells the same (`FirstRound`).
* So in the second round there is at most one place that anybody is asked to go to; whoever has
  been pumped rests there, even if it is asked again, and has published its selection
  (`SecondRound`).
* In the third round all views are calm, and each of them collects what is left of its mail
  (`ThirdRound`).

After that no pumping changes anything (`pumping_settles`).
-/

namespace HexEditor

/-- An element may be put back in its place. -/
theorem set_of_getElem? {α : Type} {l : List α} {i : Nat} {a : α} (h : l[i]? = some a) :
    l.set i a = l := by
  obtain ⟨hlt, rfl⟩ := List.getElem?_eq_some_iff.1 h
  exact List.set_getElem_self hlt

namespace Desk

variable {d e : Desk} {lead told : Option Nat} {late : Prop}

/-- The view is asked to go to the lead, if anywhere; and it rests there, unless it is late and
still to go there. -/
structure Drawn (lead : Option Nat) (late : Prop) (d : Desk) : Prop where
  asked : ∀ x, d.target? = some x → lead = some x
  rests : ∀ x, lead = some x → d.view.Rests x ∨ d.target? = some x ∧ late

theorem drawn_of_target {x : Nat} (h : d.target? = some x) : d.Drawn (some x) True :=
  ⟨fun _ hy => h.symm.trans hy, fun _ hy => .inr ⟨h.trans hy, trivial⟩⟩

/-- A view that has been pumped is not late. -/
theorem Drawn.pumped (h : d.Drawn lead late) (htarget : d.pumped.target? = none) (late' : Prop) :
    d.pumped.Drawn lead late' := by
  refine ⟨fun x hx => absurd (htarget.symm.trans hx) nofun, fun x hx => .inl ?_⟩
  refine rests_pumped (fun y hy => ?_) ((h.rests x hx).imp_right And.left)
  exact Option.some.inj ((h.asked y hy).symm.trans hx)

theorem Drawn.mono {late' : Prop} (h : d.Drawn lead late) (hlate : late → late') :
    d.Drawn lead late' :=
  ⟨h.asked, fun x hx => (h.rests x hx).imp_right (And.imp_right hlate)⟩

/-- What is told of going to the lead changes nothing in that. -/
theorem Drawn.of_told (h : d.Drawn lead late) (htold : ∀ x, told = some x → lead = some x)
    (hview : e.view = d.view) (htarget : e.target? = told.or d.target?) : e.Drawn lead late := by
  cases told with
  | none =>
      rw [Option.none_or] at htarget
      refine ⟨htarget ▸ h.asked, ?_⟩
      rw [htarget, hview]
      exact h.rests
  | some y =>
      rw [Option.some_or] at htarget
      have hlead := htold y rfl
      refine ⟨?_, ?_⟩
      · intro x hx
        rw [htarget] at hx
        exact hlead.trans hx
      · intro x hx
        rw [htarget, hview]
        refine (h.rests x hx).imp_right ?_
        intro ⟨_, hlate⟩
        exact ⟨hlead.symm.trans hx, hlate⟩

end Desk

namespace Workspace

variable {w w' : Workspace} {v u i : Nat} {s t : Seat} {round done : List Nat}
  {told : Option Nat}

/-- Pumping some views, one after the other. -/
def pumps (round : List Nat) : List WorkspaceRequest := round.map fun v => .view v .pump

/-- The views of the round are those that are open, each of them at least once. -/
def IsRound (w : Workspace) (round : List Nat) : Prop := ∀ v, v ∈ round ↔ (w.seat? v).isSome

/-- All views are in the group `i`. -/
structure Together (i : Nat) (w : Workspace) : Prop where
  sound : w.SoundWith View.Tuned
  group : ∀ v s, w.seat? v = some s → s.group = i

/-! ## Pumping one view -/

/-- The workspace after the view at the seat has been pumped. -/
def pumpedAt (w : Workspace) (v : Nat) (s : Seat) : Workspace := w.putBack v s (w.desk s).pumped

theorem isSome_seat?_pumpedAt (hs : w.seat? v = some s) (u : Nat) :
    ((w.pumpedAt v s).seat? u).isSome = (w.seat? u).isSome := by
  by_cases hu : u = v
  · subst hu
    rw [pumpedAt, seat?_putBack_self (lt_of_seat? hs), hs]
    rfl
  · rw [pumpedAt, seat?_putBack_of_ne hu]

namespace Together

/-- What holds of the desk of the view and of the desks of all others holds of all desks. -/
theorem forall_pumpedAt {Q : Nat → Desk → Prop} (h : w.Together i) (hs : w.seat? v = some s)
    (hself : Q v { (w.desk s).pumped with now := w.now })
    (hother : ∀ u t, u ≠ v → w.seat? u = some t → Q u ((w.pumpedAt v s).desk t)) :
    ∀ u t, (w.pumpedAt v s).seat? u = some t → Q u ((w.pumpedAt v s).desk t) := by
  intro u t ht
  by_cases hu : u = v
  · subst hu
    rw [pumpedAt, seat?_putBack_self (lt_of_seat? hs)] at ht
    obtain rfl := Option.some.inj ht
    rw [pumpedAt, desk_putBack (h.sound.project_lt u s hs)]
    exact hself
  · rw [pumpedAt, seat?_putBack_of_ne hu] at ht
    exact hother u t hu ht

theorem pumpedAt (h : w.Together i) (hs : w.seat? v = some s) :
    (w.pumpedAt v s).Together i where
  sound := h.sound.steps View.lasting_tuned hs (Desk.tuned_pumped (h.sound.view v s hs))
    (Desk.leads_pumped (w.desk s))
  group u t ht := by
    by_cases hu : u = v
    · subst hu
      rw [Workspace.pumpedAt, seat?_putBack_self (lt_of_seat? hs)] at ht
      obtain rfl := Option.some.inj ht
      exact h.group u s hs
    · rw [Workspace.pumpedAt, seat?_putBack_of_ne hu] at ht
      exact h.group u t ht

/-- The others find the group as the view has left it. -/
theorem group_pumpedAt (h : w.Together i) (hs : w.seat? v = some s) (ht : w.seat? u = some t) :
    (w.pumpedAt v s).group t.group = (w.desk s).pumped.group := by
  rw [h.group u t ht, ← h.group v s hs]
  exact group_putBack

theorem target?_pumpedAt (h : w.Together i) (hs : w.seat? v = some s)
    (hasks : (w.desk s).group.Asks s.view.member s.view.syncInbox told (w.desk s).pumped.group)
    (hu : u ≠ v) (ht : w.seat? u = some t) :
    ((w.pumpedAt v s).desk t).target? = told.or (w.desk t).target? := by
  have hapart := h.sound.apart u t v s hu ht hs
  have hgroup : t.group = s.group := (h.group u t ht).trans (h.group v s hs).symm
  have hhears := (h.sound.view u t ht).hearsGroup
  rw [hgroup] at hhears
  have htarget := (hasks _ (hapart.member hgroup) _ (hapart.syncInbox hgroup) hhears).2
  show ((w.pumpedAt v s).group t.group).target? _ _ = told.or ((w.group t.group).target? _ _)
  rw [h.group_pumpedAt hs ht, hgroup]
  exact htarget

/-- After pumping the view is not asked to go anywhere. -/
theorem target?_pumped (h : w.Together i) (hs : w.seat? v = some s) :
    (w.desk s).pumped.target? = none :=
  Desk.pumped_target? (h.sound.view v s hs).hearsGroup

/-! ## Pumping a round -/

/-- What one view after the other carries on holds after the round. -/
theorem run_pumps {K : List Nat → Workspace → Prop}
    (hstep : ∀ {w v s done}, w.Together i → w.seat? v = some s → K done w →
      K (done ++ [v]) (w.pumpedAt v s))
    (done : List Nat) (h : w.Together i) (hopen : ∀ v ∈ round, (w.seat? v).isSome)
    (hK : K done w) : ∃ w', w.run (pumps round) = .ok w' ∧ w'.Together i ∧
      (∀ u, (w'.seat? u).isSome = (w.seat? u).isSome) ∧ K (done ++ round) w' := by
  induction round generalizing w done with
  | nil => exact ⟨w, rfl, h, fun _ => rfl, by simpa using hK⟩
  | cons v rest ih =>
      obtain ⟨s, hs⟩ := Option.isSome_iff_exists.1 (hopen v List.mem_cons_self)
      have hperform := perform_pump hs (h.sound.view v s hs).upkept
      have hseats := isSome_seat?_pumpedAt hs
      obtain ⟨w', hrun, htogether, hseats', hK'⟩ := ih (done ++ [v]) (h.pumpedAt hs)
        (fun u hu => (hseats u).trans (hopen u (List.mem_cons_of_mem v hu))) (hstep h hs hK)
      refine ⟨w', ?_, htogether, fun u => (hseats' u).trans (hseats u), ?_⟩
      · rw [pumps, List.map_cons, run_cons, hperform, Checked.ok_bind]
        exact hrun
      · rw [List.append_cons]
        exact hK'

end Together

/-- All views stay drawn when one of them is pumped; this one is not late any longer. -/
theorem Together.drawn_pumpedAt {lead : Option Nat} {late late' : Nat → Prop} (h : w.Together i)
    (hs : w.seat? v = some s) (hlate : ∀ u ≠ v, late u → late' u)
    (hdrawn : ∀ u t, w.seat? u = some t → (w.desk t).Drawn lead (late u)) :
    ∀ u t, (w.pumpedAt v s).seat? u = some t →
      ((w.pumpedAt v s).desk t).Drawn lead (late' u) := by
  obtain ⟨told, htold, hasks⟩ := (w.desk s).exists_asks
  refine h.forall_pumpedAt (Q := fun u e => e.Drawn lead (late' u)) hs ?_ ?_
  · have hself := (hdrawn v s hs).pumped (h.target?_pumped hs) (late' v)
    exact ⟨hself.asked, hself.rests⟩
  · intro u t hu ht
    have hother := (hdrawn u t ht).mono (hlate u hu)
    have hlead : ∀ x, told = some x → lead = some x :=
      fun x hx => (hdrawn v s hs).asked x (htold x hx)
    exact hother.of_told hlead rfl (h.target?_pumpedAt hs hasks hu ht)

/-! ## The first round -/

/-- Whoever has been pumped is not asked to go anywhere; or there is one place where everybody
rests or is asked to go. -/
def FirstRound (done : List Nat) (w : Workspace) : Prop :=
  (∀ v s, w.seat? v = some s → v ∈ done → (w.desk s).target? = none) ∨
    ∃ x, ∀ v s, w.seat? v = some s → (w.desk s).Drawn (some x) True

theorem FirstRound.pumpedAt (h : w.Together i) (hs : w.seat? v = some s)
    (hround : FirstRound done w) : FirstRound (done ++ [v]) (w.pumpedAt v s) := by
  obtain ⟨told, htold, hasks⟩ := (w.desk s).exists_asks
  have hself := h.target?_pumped hs
  have hothers := fun u t hu ht => h.target?_pumpedAt (u := u) (t := t) hs hasks hu ht
  rcases hround with hquiet | ⟨x, hdrawn⟩
  · cases told with
    | none =>
        left
        refine h.forall_pumpedAt (Q := fun u e => u ∈ done ++ [v] → e.target? = none) hs
          (fun _ => hself) ?_
        intro u t hu ht hmem
        have hdone : u ∈ done := by simpa [hu] using hmem
        rw [hothers u t hu ht, Option.none_or]
        exact hquiet u t ht hdone
    | some x =>
        -- the first one that goes anywhere asks all others to follow
        have hdrawn := Desk.drawn_of_target (htold x rfl)
        refine .inr ⟨x, h.forall_pumpedAt (Q := fun _ e => e.Drawn (some x) True) hs ?_ ?_⟩
        · have hrests := hdrawn.pumped hself True
          exact ⟨hrests.asked, hrests.rests⟩
        · intro u t hu ht
          exact Desk.drawn_of_target ((hothers u t hu ht).trans (Option.some_or ..))
  · exact .inr ⟨x, h.drawn_pumpedAt hs (fun _ _ => id) hdrawn⟩

/-- After the first round there is at most one place to which anybody is asked to go. -/
theorem FirstRound.drawn (hround : FirstRound round w) (hopen : w.IsRound round) :
    ∃ lead, ∀ v s, w.seat? v = some s → (w.desk s).Drawn lead True := by
  rcases hround with hquiet | ⟨x, hdrawn⟩
  · refine ⟨none, fun v s hs => ⟨fun x hx => ?_, nofun⟩⟩
    have hmem : v ∈ round := (hopen v).2 (by rw [hs]; rfl)
    exact absurd ((hquiet v s hs hmem).symm.trans hx) nofun
  · exact ⟨some x, hdrawn⟩

/-! ## The second round -/

/-- There is at most one place to which anybody is asked to go.  Whoever has been pumped rests
there, and has published its selection. -/
def SecondRound (lead : Option Nat) (done : List Nat) (w : Workspace) : Prop :=
  (∀ v s, w.seat? v = some s → (w.desk s).Drawn lead (v ∉ done)) ∧
    ∀ v s, w.seat? v = some s → v ∈ done → s.view.published = s.view.grid.cursor.selection?

theorem SecondRound.pumpedAt {lead : Option Nat} (h : w.Together i) (hs : w.seat? v = some s)
    (hround : SecondRound lead done w) :
    SecondRound lead (done ++ [v]) (w.pumpedAt v s) := by
  obtain ⟨hdrawn, hpublished⟩ := hround
  constructor
  · have hlate : ∀ u ≠ v, u ∉ done → u ∉ done ++ [v] := fun u hu hnot => by simp [hu, hnot]
    exact h.drawn_pumpedAt hs hlate hdrawn
  · refine h.forall_pumpedAt (Q := fun u e => u ∈ done ++ [v] →
      e.view.published = e.view.grid.cursor.selection?) hs ?_ ?_
    · exact fun _ => Desk.publishSelection_published _
    · intro u t hu ht hmem
      have hdone : u ∈ done := by simpa [hu] using hmem
      exact hpublished u t ht hdone

/-- After the second round all views are calm. -/
theorem SecondRound.calm {lead : Option Nat} (hround : SecondRound lead round w)
    (hopen : w.IsRound round) (v : Nat) (s : Seat) (hs : w.seat? v = some s) :
    (w.desk s).Calm := by
  obtain ⟨hdrawn, hpublished⟩ := hround
  have hmem : v ∈ round := (hopen v).2 (by rw [hs]; rfl)
  refine ⟨hpublished v s hs hmem, ?_⟩
  intro x hx
  have hlead := (hdrawn v s hs).asked x hx
  rcases (hdrawn v s hs).rests x hlead with hrests | ⟨-, hlate⟩
  · exact hrests
  · exact absurd hmem hlate

/-! ## The third round -/

/-- All views are calm, and no mail waits for those that have been pumped. -/
def ThirdRound (done : List Nat) (w : Workspace) : Prop :=
  ∀ v s, w.seat? v = some s → (w.desk s).Calm ∧ (v ∈ done → (w.desk s).Drained)

/-- Where others have no mail, none arrives when the view is pumped. -/
theorem Together.drained_pumpedAt (h : w.Together i) (hs : w.seat? v = some s)
    (hcalm : (w.desk s).Calm) (ht : w.seat? u = some t) (hdrained : (w.desk t).Drained) :
    ((w.pumpedAt v s).desk t).Drained := by
  constructor
  · show ((w.pumpedAt v s).project t.project).patches.changes.Cleared t.view.patchInbox
    by_cases hproject : t.project = s.project
    · have hsame : (w.pumpedAt v s).project t.project = (w.desk s).pumped.project := by
        rw [hproject]
        exact project_putBack (h.sound.project_lt v s hs)
      have hcleared := hdrained.patchMail
      rw [hsame, Desk.project_pumped]
      show ((w.project s.project).patches.changes.collect s.view.patchInbox).2.Cleared _
      rw [← hproject]
      exact hcleared.collect _
    · have hsame : (w.pumpedAt v s).project t.project = w.project t.project :=
        project_setProject_of_ne hproject
      rw [hsame]
      exact hdrained.patchMail
  · have hcleared := hdrained.syncMail
    show ((w.pumpedAt v s).group t.group).events.Cleared t.view.syncInbox
    rw [h.group_pumpedAt hs ht, hcalm.pumped.2]
    have hgroup : t.group = s.group := (h.group u t ht).trans (h.group v s hs).symm
    show ((w.group s.group).events.collect s.view.syncInbox).2.Cleared _
    rw [← hgroup]
    exact hcleared.collect _

theorem ThirdRound.pumpedAt (h : w.Together i) (hs : w.seat? v = some s)
    (hround : ThirdRound done w) : ThirdRound (done ++ [v]) (w.pumpedAt v s) := by
  obtain ⟨hcalm, -⟩ := hround v s hs
  have hasks : (w.desk s).group.Asks s.view.member s.view.syncInbox none
      (w.desk s).pumped.group := by
    rw [hcalm.pumped.2]
    exact SyncGroup.asks_collect _ _ _
  refine h.forall_pumpedAt (Q := fun u e => e.Calm ∧ (u ∈ done ++ [v] → e.Drained)) hs ?_ ?_
  · have hcalm' := Desk.calm_pumped (h.target?_pumped hs)
    have hdrained := hcalm.drained_pumped
    exact ⟨⟨hcalm'.published, hcalm'.rests⟩, fun _ => ⟨hdrained.patchMail, hdrained.syncMail⟩⟩
  · intro u t hu ht
    obtain ⟨hcalm', hdrained⟩ := hround u t ht
    refine ⟨⟨hcalm'.published, ?_⟩, fun hmem => ?_⟩
    · rw [h.target?_pumpedAt hs hasks hu ht, Option.none_or]
      exact hcalm'.rests
    · have hdone : u ∈ done := by simpa [hu] using hmem
      exact h.drained_pumpedAt hs hcalm ht (hdrained hdone)

/-! ## When everything has settled -/

theorem setProject_project (w : Workspace) (i : Nat) : w.setProject i (w.project i) = w := by
  have hprojects : w.projects.set i (w.project i) = w.projects := by
    unfold project
    cases hget : w.projects[i]? with
    | none => exact List.set_eq_of_length_le (List.getElem?_eq_none_iff.1 hget)
    | some p => exact set_of_getElem? hget
  unfold setProject
  rw [hprojects]

theorem seats_set_seat (hs : w.seat? v = some s) : w.seats.set v (some s) = w.seats :=
  set_of_getElem? (Option.join_eq_some_iff.1 hs)

/-- Putting back at a seat what is there changes nothing. -/
theorem putBack_desk (hs : w.seat? v = some s)
    (hgroup : w.groups.get? s.group = some (w.group s.group)) :
    w.putBack v s (w.desk s) = w := by
  have hgroups : w.setGroup s.group (w.group s.group) = w := by
    unfold setGroup
    rw [OrderedMap.insert_of_get? hgroup]
  unfold putBack
  show { (w.setProject s.project (w.project s.project)).setGroup s.group (w.group s.group) with
    seats := w.seats.set v (some s), log := w.log } = w
  rw [setProject_project, hgroups, seats_set_seat hs]

/-- The group of a view is among those that have been used. -/
theorem Together.get?_group (h : w.Together i) (hs : w.seat? v = some s) :
    w.groups.get? s.group = some (w.group s.group) := by
  obtain ⟨ranges, hranges⟩ := (h.sound.view v s hs).registered
  unfold Workspace.group at hranges ⊢
  cases hget : w.groups.get? s.group with
  | none =>
      rw [hget] at hranges
      exact absurd hranges nofun
  | some g => rfl

/-- Where pumping any view changes nothing, pumping many does not either. -/
theorem Together.run_of_still (h : w.Together i)
    (hstill : ∀ v s, w.seat? v = some s → (w.desk s).pump = .ok (false, w.desk s))
    (later : List Nat) : w.run (pumps later) = .ok w := by
  induction later with
  | nil => rfl
  | cons v rest ih =>
      have hperform : w.perform (.view v .pump) = .ok w := by
        cases hs : w.seat? v with
        | none =>
            unfold Workspace.perform
            dsimp only
            rw [hs]
            rfl
        | some s =>
            rw [perform_view hs, Desk.perform, hstill v s hs]
            show Except.ok (w.putBack v s (w.desk s)) = .ok w
            rw [putBack_desk hs (h.get?_group hs)]
      rw [pumps, List.map_cons, run_cons, hperform, Checked.ok_bind]
      exact ih

/-- Three rounds of pumping settle everything: whatever has happened to the views of a group
before, every later pumping of any of them reports that nothing has changed, and changes
nothing. -/
theorem pumping_settles {first second third : List Nat} (hw : w.Attained)
    (hgroup : ∀ v s, w.seat? v = some s → s.group = i) (hfirst : w.IsRound first)
    (hsecond : w.IsRound second) (hthird : w.IsRound third) :
    ∃ w', w.run (pumps (first ++ second ++ third)) = .ok w' ∧
      (∀ v, (w.seat? v).isSome → ∃ s, w'.seat? v = some s ∧
        (w'.desk s).pump = .ok (false, w'.desk s)) ∧
      ∀ later, w'.run (pumps later) = .ok w' := by
  have h : w.Together i := ⟨hw.sound, hgroup⟩
  obtain ⟨w₁, hrun₁, h₁, hseats₁, hround₁⟩ := Together.run_pumps (K := FirstRound)
    FirstRound.pumpedAt [] h (fun v hv => (hfirst v).1 hv) (.inl fun _ _ _ hmem => absurd hmem List.not_mem_nil)
  obtain ⟨lead, hdrawn⟩ := hround₁.drawn fun v => by rw [hseats₁]; exact hfirst v
  obtain ⟨w₂, hrun₂, h₂, hseats₂, hround₂⟩ := Together.run_pumps (K := SecondRound lead)
    SecondRound.pumpedAt [] h₁ (fun v hv => by rw [hseats₁]; exact (hsecond v).1 hv)
    ⟨fun v s hs => (hdrawn v s hs).mono fun _ => List.not_mem_nil,
      fun _ _ _ hmem => absurd hmem List.not_mem_nil⟩
  have hseats₂' : ∀ u, (w₂.seat? u).isSome = (w.seat? u).isSome :=
    fun u => (hseats₂ u).trans (hseats₁ u)
  have hcalm := hround₂.calm fun v => by rw [hseats₂']; exact hsecond v
  obtain ⟨w₃, hrun₃, h₃, hseats₃, hround₃⟩ := Together.run_pumps (K := ThirdRound)
    ThirdRound.pumpedAt [] h₂ (fun v hv => by rw [hseats₂']; exact (hthird v).1 hv)
    fun v s hs => ⟨hcalm v s hs, fun hmem => absurd hmem List.not_mem_nil⟩
  have hseats₃' : ∀ u, (w₃.seat? u).isSome = (w.seat? u).isSome :=
    fun u => (hseats₃ u).trans (hseats₂' u)
  have hstill : ∀ v s, w₃.seat? v = some s → (w₃.desk s).pump = .ok (false, w₃.desk s) := by
    intro v s hs
    obtain ⟨hcalm, hdrained⟩ := hround₃ v s hs
    have hmem : v ∈ third := (hthird v).2 (by rw [← hseats₃', hs]; rfl)
    exact hcalm.pump_eq_self (hdrained hmem)
  refine ⟨w₃, ?_, ?_, h₃.run_of_still hstill⟩
  · unfold pumps at hrun₁ hrun₂ hrun₃ ⊢
    rw [List.map_append, List.map_append, run_append, run_append, hrun₁, Checked.ok_bind, hrun₂,
      Checked.ok_bind, hrun₃]
  · intro v hv
    obtain ⟨s, hs⟩ := Option.isSome_iff_exists.1 ((hseats₃' v).trans hv)
    exact ⟨s, hs, hstill v s hs⟩

/-- One of two views has selected something and gone away; the other has not heard of it yet. -/
theorem pumping_settles_jump : ∃ w, Attained w ∧ (∀ v s, w.seat? v = some s → s.group = 0) ∧
    w.IsRound [0, 1] ∧ w.IsRound [1, 0] ∧
      ∃ w', w.run (pumps ([0, 1] ++ [1, 0] ++ [0, 1])) = .ok w' ∧
        (∀ v, (w.seat? v).isSome → ∃ s, w'.seat? v = some s ∧
          (w'.desk s).pump = .ok (false, w'.desk s)) ∧
        ∀ later, w'.run (pumps later) = .ok w' := by
  have hstart : Initial { projects := [{ image := .ofBytes 0 [1, 2, 3] }] } :=
    ⟨by simp, rfl, rfl⟩
  have hopened := (Attained.start hstart).request (r := .openView 0 0 {}) Nat.one_pos rfl
  have hopened' := hopened.request (r := .openView 0 0 {}) Nat.one_pos rfl
  have hselected := hopened'.command (v := 0) (c := .beginSelection) rfl rfl rfl
  have hmoved := hselected.command (v := 0) (c := .setCursor 2 none none) rfl rfl rfl
  obtain ⟨w, a, b, hw, hseats, ha, hb⟩ : ∃ w a b, Attained w ∧ w.seats = [some a, some b] ∧
    a.group = 0 ∧ b.group = 0 := ⟨_, _, _, hmoved, rfl, rfl, rfl⟩
  have hgroup : ∀ v s, w.seat? v = some s → s.group = 0 := by
    intro v s hs
    rw [seat?, hseats] at hs
    rcases v with _ | _ | v
    · exact Option.some.inj hs ▸ ha
    · exact Option.some.inj hs ▸ hb
    · cases hs
  have hround : w.IsRound [0, 1] := by
    intro v
    rw [seat?, hseats]
    rcases v with _ | _ | v <;> simp
  have hround' : w.IsRound [1, 0] := by
    intro v
    rw [← hround v]
    simp [or_comm]
  exact ⟨w, hw, hgroup, hround, hround', pumping_settles hw hgroup hround hround' hround⟩

end Workspace

end HexEditor
