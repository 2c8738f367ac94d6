import HexEditor.Proofs.View.Reachable

/-!
# The members of a group are its open views

A view joins its group when it is opened and leaves it when it is closed.  Nobody else takes part
in a group as long as views are only opened and closed, so that the members of a group can be
counted by the views.  A group knows nothing of views, though: it is the number of a view within
its group that has to be new when the view is opened, and still to be there when it is closed,
for the count to go up and down by one (`Sound`).

What is kept is therefore said of a list of views (`Shown`): they are open, and for every group
they are all that take part in it.
-/

namespace HexEditor.Workspace

variable {w w' : Workspace} {v i project group : Nat} {options : ViewOptions} {p : Project}
  {s : Seat}

/-- The group in which an open view takes part. -/
def groupOf? (w : Workspace) (v : Nat) : Option Nat := (w.seat? v).map (·.group)

/-- The views are open, each in the group of its project, and nobody else takes part in any
group.  Every project can be opened once more. -/
structure Shown (w : Workspace) (views : List Nat) : Prop where
  sound : w.Sound
  nodup : views.Nodup
  seated : ∀ v ∈ views, ∃ s, w.seat? v = some s ∧ s.group = s.project
  members : ∀ i, (w.group i).memberCount = (views.map w.groupOf?).count (some i)
  framed : ∀ i, ∃ f, Desk.frame (w.project i) = .ok f

theorem groupOf?_of_seat? (hs : w.seat? v = some s) : w.groupOf? v = some s.group := by
  unfold groupOf?
  rw [hs]
  rfl

/-! ## Adding a project -/

theorem project_addProject : (w.addProject p).2.project i =
    if i = w.projects.length then p else w.project i := by
  unfold addProject project
  dsimp only
  split
  · next heq => simp [heq]
  · next hne =>
      rcases Nat.lt_or_gt_of_ne hne with hlt | hgt
      · rw [List.getElem?_append_left hlt]
      · have hlength : (w.projects ++ [p]).length ≤ i := by
          rw [List.length_append, List.length_singleton]
          exact hgt
        rw [List.getElem?_eq_none hlength, List.getElem?_eq_none hgt.le]

theorem length_projects_addProject :
    (w.addProject p).2.projects.length = w.projects.length + 1 := List.length_append

theorem SoundWith.addProject {P : View → Project → SyncGroup → Prop} (hw : w.SoundWith P)
    (hp : p.patches.Sound) : (w.addProject p).2.SoundWith P where
  store q hq := by
    rcases List.mem_append.1 hq with hq | hq
    · exact hw.store q hq
    · rwa [List.mem_singleton.1 hq]
  group := hw.group
  project_lt v s hs := by
    rw [length_projects_addProject]
    exact Nat.lt_succ_of_lt (hw.project_lt v s hs)
  view v s hs := by
    rw [project_addProject, if_neg (hw.project_lt v s hs).ne]
    exact hw.view v s hs
  apart := hw.apart

theorem Shown.addProject {views : List Nat} (hw : w.Shown views) (hp : p.patches.Sound)
    (hframe : ∃ f, Desk.frame p = .ok f) : (w.addProject p).2.Shown views where
  sound := hw.sound.addProject hp
  nodup := hw.nodup
  seated := hw.seated
  members := hw.members
  framed i := by
    rw [project_addProject]
    split
    · exact hframe
    · exact hw.framed i

/-! ## Opening a view -/

/-- What opening a view makes of a workspace. -/
structure OpenedView (w : Workspace) (project group v : Nat) (w' : Workspace) : Prop where
  new : w.seat? v = none
  seat : ∃ s, w'.seat? v = some s ∧ s.project = project ∧ s.group = group
  seat_of_ne : ∀ v' ≠ v, w'.seat? v' = w.seat? v'
  joined : (w'.group group).memberCount = (w.group group).memberCount + 1
  group_of_ne : ∀ i ≠ group, w'.group i = w.group i
  image : ∀ i, (w'.project i).image = (w.project i).image
  projects : w'.projects.length = w.projects.length

theorem image_setProject {q : Project} (hproject : i < w.projects.length)
    (himage : q.image = (w.project i).image) (j : Nat) :
    ((w.setProject i q).project j).image = (w.project j).image := by
  by_cases hj : j = i
  · rw [hj, project_setProject_self hproject, himage]
  · rw [project_setProject_of_ne hj]

theorem seat?_length : w.seat? w.seats.length = none := by
  unfold seat?
  rw [List.getElem?_eq_none le_rfl]
  rfl

theorem openView_opened (hw : w.Sound) (hproject : project < w.projects.length)
    (hopen : w.openView project group options = .ok (v, w')) :
    w.OpenedView project group v w' := by
  obtain ⟨d, hdesk, hplace⟩ := Checked.bind_eq_ok_iff.1 hopen
  obtain ⟨rfl, rfl⟩ := Prod.mk.inj (Except.ok.inj hplace)
  have hopened := Desk.openView_spec (hw.store_project project) (hw.group group) hdesk
  have hlt : w.seats.length < w.withSeat.seats.length := by
    unfold withSeat
    rw [List.length_append, List.length_singleton]
    exact Nat.lt_succ_self _
  refine ⟨seat?_length, ⟨_, seat?_putBack_self hlt, rfl, rfl⟩, fun v' hne => ?_, ?_,
    fun i hne => group_setGroup_of_ne hne, ?_, List.length_set ..⟩
  · exact (seat?_putBack_of_ne hne).trans (seat?_withSeat v')
  · exact (congrArg SyncGroup.memberCount group_setGroup_self).trans hopened.memberCount
  · exact image_setProject (w := w) hproject hopened.image

theorem exists_frame_of_openView (hopen : w.openView project group options = .ok (v, w')) :
    ∃ f, Desk.frame (w.project project) = .ok f := by
  obtain ⟨d, hdesk, -⟩ := Checked.bind_eq_ok_iff.1 hopen
  rw [Desk.openView_eq] at hdesk
  obtain ⟨f, hf, -⟩ := Checked.bind_eq_ok_iff.1 hdesk
  exact ⟨f, hf⟩

theorem exists_openView (hframe : ∃ f, Desk.frame (w.project project) = .ok f) (group : Nat)
    (options : ViewOptions) : ∃ v w', w.openView project group options = .ok (v, w') := by
  obtain ⟨f, hf⟩ := hframe
  unfold openView
  rw [Desk.openView_eq, hf]
  exact ⟨_, _, rfl⟩

/-- A new view of a project, in the group of the project, is shown beside the others. -/
theorem Shown.openView {views : List Nat} (hw : w.Shown views)
    (hproject : project < w.projects.length)
    (hopen : w.openView project project options = .ok (v, w')) : w'.Shown (views ++ [v]) := by
  have hopened := openView_opened hw.sound hproject hopen
  obtain ⟨s, hs, hshows, hin⟩ := hopened.seat
  have hne : ∀ v' ∈ views, v' ≠ v := by
    rintro v' hv' rfl
    obtain ⟨t, ht, -⟩ := hw.seated v' hv'
    rw [hopened.new] at ht
    cases ht
  have hsame : ∀ v' ∈ views, w'.seat? v' = w.seat? v' := fun v' hv' =>
    hopened.seat_of_ne v' (hne v' hv')
  have hgroups : views.map w'.groupOf? = views.map w.groupOf? :=
    List.map_congr_left fun v' hv' => congrArg (Option.map Seat.group) (hsame v' hv')
  refine ⟨hw.sound.openView View.lasting_inStep hproject hopen, ?_, ?_, fun i => ?_,
    fun i => ?_⟩
  · refine List.nodup_append.2 ⟨hw.nodup, List.nodup_singleton v, ?_⟩
    rintro v' hv' _ hmem
    exact List.mem_singleton.1 hmem ▸ hne v' hv'
  · intro v' hv'
    rcases List.mem_append.1 hv' with hv' | hv'
    · rw [hsame v' hv']
      exact hw.seated v' hv'
    · rw [List.mem_singleton.1 hv']
      exact ⟨s, hs, hin.trans hshows.symm⟩
  · rw [List.map_append, hgroups, List.count_append, ← hw.members, List.map_singleton,
      groupOf?_of_seat? hs, hin, List.count_singleton]
    by_cases hi : i = project
    · rw [hi, hopened.joined, if_pos (beq_self_eq_true _)]
    · rw [hopened.group_of_ne i hi, if_neg (by simpa using Ne.symm hi), Nat.add_zero]
  · rw [Desk.frame_congr (hopened.image i)]
    exact hw.framed i

/-! ## Closing a view -/

/-- What closing a view makes of a workspace. -/
structure ClosedView (w : Workspace) (v : Nat) (s : Seat) (w' : Workspace) : Prop where
  seat_of_ne : ∀ v' ≠ v, w'.seat? v' = w.seat? v'
  left : (w'.group s.group).memberCount + 1 = (w.group s.group).memberCount
  group_of_ne : ∀ i ≠ s.group, w'.group i = w.group i
  image : ∀ i, (w'.project i).image = (w.project i).image

theorem closeView_closed (hw : w.Sound) (hs : w.seat? v = some s) :
    w.ClosedView v s (w.closeView v) := by
  have hclose : w.closeView v = (((w.setSeat v none).setProject s.project
      (w.desk s).close.1).setGroup s.group (w.desk s).close.2) := by
    unfold Workspace.closeView
    rw [hs]
    rfl
  have hrecord : (w.desk s).group.members.get? s.view.member = _ := (hw.inStep v s hs).record
  rw [hclose]
  refine ⟨fun v' hne => seat?_setSeat_of_ne hne none, ?_, fun i hne => group_setGroup_of_ne hne,
    image_setProject (w := w) (hw.project_lt v s hs) rfl⟩
  rw [group_setGroup_self]
  exact Desk.close_memberCount (w.desk s) hrecord

/-- When one of the views is closed, the others are shown as before. -/
theorem Shown.closeView {views : List Nat} (hw : w.Shown (v :: views)) :
    (w.closeView v).Shown views := by
  obtain ⟨hv, hnodup⟩ := List.nodup_cons.1 hw.nodup
  obtain ⟨s, hs, -⟩ := hw.seated v List.mem_cons_self
  have hclosed := closeView_closed hw.sound hs
  have hsame : ∀ v' ∈ views, (w.closeView v).seat? v' = w.seat? v' := fun v' hv' =>
    hclosed.seat_of_ne v' (ne_of_mem_of_not_mem hv' hv)
  have hgroups : views.map (w.closeView v).groupOf? = views.map w.groupOf? :=
    List.map_congr_left fun v' hv' => congrArg (Option.map Seat.group) (hsame v' hv')
  refine ⟨hw.sound.closeView View.lasting_inStep v, hnodup, fun v' hv' => ?_, fun i => ?_,
    fun i => ?_⟩
  · rw [hsame v' hv']
    exact hw.seated v' (List.mem_cons_of_mem v hv')
  · have hcount := hw.members i
    rw [List.map_cons, groupOf?_of_seat? hs, List.count_cons] at hcount
    rw [hgroups]
    by_cases hi : i = s.group
    · rw [if_pos (by simp [hi])] at hcount
      have hleft := hclosed.left
      rw [← hi] at hleft
      omega
    · rw [if_neg (by simpa using Ne.symm hi)] at hcount
      rw [hclosed.group_of_ne i hi, hcount, Nat.add_zero]
  · rw [Desk.frame_congr (hclosed.image i)]
    exact hw.framed i

/-- The order in which the views are listed does not matter. -/
theorem Shown.of_perm {views others : List Nat} (hw : w.Shown views) (h : views.Perm others) :
    w.Shown others where
  sound := hw.sound
  nodup := h.nodup_iff.1 hw.nodup
  seated v hv := hw.seated v (h.mem_iff.2 hv)
  members i := (hw.members i).trans ((h.map _).count_eq _)
  framed := hw.framed

end HexEditor.Workspace
