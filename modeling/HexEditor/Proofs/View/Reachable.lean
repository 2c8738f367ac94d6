import HexEditor.Proofs.View.Workspace

/-!
# Reachable workspaces

What a request has to leave to the views is what they own: a member that is not a view speaks in
its own name, and a subscriber that is not a view collects its own mail (`Allowed`).  Such
requests keep a workspace sound, so that every workspace reached from one without patches, groups
and views is sound.  In all of them a view can be pumped, and shows things as they are right
after it (`reachable_upToDate`).
-/

namespace HexEditor

/-- The request leaves to the views of the workspace what they own. -/
def WorkspaceRequest.Allowed (w : Workspace) : WorkspaceRequest → Prop
  | .openView project _ _ => project < w.projects.length
  | .patchMail i r => ∀ v s, w.seat? v = some s → s.project = i → r.Spares s.view.patchInbox
  | .group i r => ∀ v s, w.seat? v = some s → s.group = i → r.member? ≠ some s.view.member
  | .groupMail i r => ∀ v s, w.seat? v = some s → s.group = i → r.Spares s.view.syncInbox
  | _ => True

namespace Workspace

variable {P : View → Project → SyncGroup → Prop} {w w' : Workspace} {v i : Nat} {s : Seat}
  {r : WorkspaceRequest}

/-- Nothing has happened yet: there are only projects, without patches. -/
structure Initial (w : Workspace) : Prop where
  patches : ∀ p ∈ w.projects, p.patches = {}
  groups : w.groups = ∅
  seats : w.seats = []

/-- The workspaces that come about by allowed requests. -/
inductive Reachable : Workspace → Prop
  | start {w : Workspace} (h : w.Initial) : Reachable w
  | step {w w' : Workspace} {r : WorkspaceRequest} (hw : Reachable w) (hallowed : r.Allowed w)
      (h : w.perform r = .ok w') : Reachable w'

/-! ## Runs -/

theorem run_append (w : Workspace) (requests more : List WorkspaceRequest) :
    w.run (requests ++ more) = w.run requests >>= fun w => w.run more := List.foldlM_append

theorem run_singleton (w : Workspace) (r : WorkspaceRequest) : w.run [r] = w.perform r := by
  unfold run
  rw [List.foldlM_cons]
  cases w.perform r <;> rfl

theorem run_cons (w : Workspace) (r : WorkspaceRequest) (requests : List WorkspaceRequest) :
    w.run (r :: requests) = w.perform r >>= fun w => w.run requests := List.foldlM_cons

/-! ## What one request keeps -/

theorem sound_of_no_seats (hstore : ∀ p ∈ w.projects, p.patches.Sound) (hgroups : w.groups = ∅)
    (hseats : w.seats = []) : w.SoundWith P := by
  have hseat : ∀ v s, w.seat? v ≠ some s := by
    intro v s hs
    have hlt := lt_of_seat? hs
    rw [hseats] at hlt
    exact absurd hlt (Nat.not_lt_zero v)
  refine ⟨hstore, fun i => ?_, fun v s hs => absurd hs (hseat v s),
    fun v s hs => absurd hs (hseat v s), fun v s _ _ _ hs => absurd hs (hseat v s)⟩
  rw [group, hgroups]
  exact SyncGroup.sound_default

theorem Initial.sound (h : w.Initial) : w.SoundWith P := by
  refine sound_of_no_seats ?_ h.groups h.seats
  intro p hp
  rw [h.patches p hp]
  exact PatchStore.sound_default

theorem SoundWith.desk (hw : w.SoundWith P) (s : Seat) : (w.desk s).Sound :=
  ⟨hw.store_project _, hw.group _⟩

/-- A request to a view keeps the workspace sound. -/
theorem SoundWith.steps {d : Desk} (hw : w.SoundWith P) (hP : View.Lasting P)
    (hs : w.seat? v = some s) (hview : P d.view d.project d.group)
    (hleads : Desk.Leads (w.desk s) d) : (w.putBack v s d).SoundWith P := by
  have hsound := hleads.sound (hw.desk s)
  refine hw.putBack hP (hw.project_lt v s hs) hsound hview ?_ ?_ ?_
  · intro v' t hv' ht
    have hapart := hw.apart v s v' t hv'.symm hs ht
    refine ⟨fun h => ?_, fun h => ?_, fun h => ?_⟩
    · exact hleads.patchInbox ▸ hapart.patchInbox h
    · exact hleads.member ▸ hapart.member h
    · exact hleads.syncInbox ▸ hapart.syncInbox h
  · intro v' t hv' ht hproject
    exact hleads.store _ ((hw.apart v' t v s hv' ht hs).patchInbox hproject)
  · intro v' t hv' ht hgroup
    have hapart := hw.apart v' t v s hv' ht hs
    exact ⟨hleads.group _ (hapart.member hgroup) _ (hapart.syncInbox hgroup),
      hleads.record _ (hapart.member hgroup)⟩

/-- Closing a view keeps the workspace sound. -/
theorem SoundWith.closeView (hw : w.SoundWith P) (hP : View.Lasting P) (v : Nat) :
    (w.closeView v).SoundWith P := by
  unfold Workspace.closeView
  cases hs : w.seat? v with
  | none => exact hw
  | some s =>
      obtain ⟨hstore, hgroup⟩ := Desk.close_sound (hw.desk s)
      refine hw.leave hP hstore hgroup (fun v' t hv' ht hp => ?_) fun v' t hv' ht hg => ?_
      · exact Desk.close_store (w.desk s) ((hw.apart v' t v s hv' ht hs).patchInbox hp)
      · have hapart := hw.apart v' t v s hv' ht hs
        exact ⟨Desk.close_group (w.desk s) (hapart.member hg) (hapart.syncInbox hg),
          Desk.close_record (w.desk s) (hapart.member hg)⟩

/-- The workspace with an empty seat more. -/
def withSeat (w : Workspace) : Workspace := { w with seats := w.seats ++ [none] }

theorem seat?_withSeat (v : Nat) : w.withSeat.seat? v = w.seat? v := by
  unfold seat? withSeat
  rcases Nat.lt_trichotomy v w.seats.length with hlt | rfl | hgt
  · rw [List.getElem?_append_left hlt]
  · simp
  · have hlength : (w.seats ++ [none]).length ≤ v := by
      rw [List.length_append, List.length_singleton]
      exact hgt
    rw [List.getElem?_eq_none hlength, List.getElem?_eq_none hgt.le]

theorem SoundWith.withSeat (hw : w.SoundWith P) : w.withSeat.SoundWith P :=
  ⟨hw.store, hw.group, fun v t ht => hw.project_lt v t (seat?_withSeat v ▸ ht),
    fun v t ht => hw.view v t (seat?_withSeat v ▸ ht),
    fun v t v' t' hne ht ht' =>
      hw.apart v t v' t' hne (seat?_withSeat v ▸ ht) (seat?_withSeat v' ▸ ht')⟩

/-- Opening a view keeps the workspace sound. -/
theorem SoundWith.openView {project group : Nat} {options : ViewOptions} (hw : w.SoundWith P)
    (hP : View.Lasting P) (hproject : project < w.projects.length)
    (hopen : w.openView project group options = .ok (v, w')) : w'.SoundWith P := by
  obtain ⟨d, hdesk, hplace⟩ := Checked.bind_eq_ok_iff.1 hopen
  obtain ⟨rfl, rfl⟩ := Prod.mk.inj (Except.ok.inj hplace)
  have hopened := Desk.openView_spec (hw.store_project project) (hw.group group) hdesk
  have hseat : ∀ v t, w.withSeat.seat? v = some t → w.seat? v = some t :=
    fun v t ht => seat?_withSeat v ▸ ht
  have hnew := hP.opened hopened.inStep.toSeated hopened.current (Desk.openView_bounded hdesk)
  refine hw.withSeat.putBack hP (d := { d with log := w.log }) hproject
    ⟨hopened.sound.store, hopened.sound.group⟩ hnew ?_ ?_ ?_
  · intro v' t hv' ht
    have hview := hw.view v' t (hseat v' t ht)
    obtain ⟨ranges, hrecord⟩ := hP.registered hview
    refine ⟨fun h => ?_, fun h => ?_, fun h => ?_⟩
    -- numbers are given out in order, and those of the open views have been given out before
    · have hlt := (hP.hearsPatches hview).lt (hw.store_project _).fresh
      rw [← h] at hlt
      exact hopened.patchInbox ▸ hlt.ne'
    · have hlt := (hw.group _).member_lt_of_get? hrecord
      rw [← h] at hlt
      exact hopened.member ▸ hlt.ne'
    · have hlt := (hP.hearsGroup hview).lt (hw.group _).fresh
      rw [← h] at hlt
      exact hopened.syncInbox ▸ hlt.ne'
  · exact fun v' t _ _ _ => hopened.store _
  · intro v' t hv' ht hgroup
    obtain ⟨ranges, hrecord⟩ := hP.registered (hw.view v' t (hseat v' t ht))
    have hlt := (hw.group _).member_lt_of_get? hrecord
    rw [hgroup] at hlt
    exact ⟨hopened.group _ _, hopened.record _ hlt.ne⟩

/-- Every allowed request keeps the workspace sound. -/
theorem SoundWith.perform (hw : w.SoundWith P) (hP : View.Lasting P) (hallowed : r.Allowed w)
    (h : w.perform r = .ok w') : w'.SoundWith P := by
  cases r with
  | openView project group options =>
      obtain ⟨v, hopen⟩ := Checked.exists_of_return_snd h
      exact hw.openView hP hallowed hopen
  | closeView v =>
      obtain rfl := Except.ok.inj h
      exact hw.closeView hP v
  | view v r =>
      unfold Workspace.perform at h
      dsimp only at h
      cases hs : w.seat? v with
      | none =>
          rw [hs] at h
          obtain rfl := Except.ok.inj h
          exact hw
      | some s =>
          rw [hs] at h
          obtain ⟨d, hdesk, hplace⟩ := Checked.bind_eq_ok_iff.1 h
          obtain rfl := Except.ok.inj hplace
          have hparts := (Desk.perform_parts (hw.desk s) hdesk).1
          obtain ⟨hview, hleads⟩ := hP.parts (hw.desk s) (hw.view v s hs) hparts
          exact hw.steps hP hs hview hleads
  | patches i r =>
      obtain ⟨reply, hreply, hplace⟩ := Checked.bind_eq_ok_iff.1 h
      obtain rfl := Except.ok.inj hplace
      obtain ⟨reply', hreply', hevolves⟩ := PatchStore.exists_perform (hw.store_project i) r
      rw [hreply] at hreply'
      obtain rfl := Except.ok.inj hreply'
      exact hw.setProject hP (hevolves.sound (hw.store_project i)) fun v s _ _ => hevolves.tells _
  | patchMail i r =>
      obtain rfl := Except.ok.inj h
      have hstore := hw.store_project i
      exact hw.setProject hP ⟨hstore.wellFormed, hstore.fresh.serve r⟩ fun v s hs hproject =>
        .of_changes (Broadcast.serve_delivers _ (hallowed v s hs hproject))
  | group i r =>
      obtain rfl := Except.ok.inj h
      refine hw.setGroup hP ((hw.group i).perform r) fun v s hs hgroup => ?_
      obtain ⟨ranges, hrecord⟩ := hP.registered (hw.view v s hs)
      rw [hgroup] at hrecord
      have hspared := hallowed v s hs hgroup
      exact ⟨SyncGroup.perform_tells (hw.group i) hspared _,
        (SyncGroup.perform_get? (hw.group i) hspared hrecord).trans hrecord.symm⟩
  | groupMail i r =>
      obtain rfl := Except.ok.inj h
      have hg := hw.group i
      exact hw.setGroup hP ⟨hg.member_lt, hg.fresh.serve r⟩ fun v s hs hgroup =>
        ⟨.of_events (Broadcast.serve_delivers _ (hallowed v s hs hgroup)), rfl⟩
  | clock now =>
      obtain rfl := Except.ok.inj h
      exact ⟨hw.store, hw.group, hw.project_lt, hw.view, hw.apart⟩

/-- So every view stays in step. -/
theorem Sound.perform (hw : w.Sound) (hallowed : r.Allowed w) (h : w.perform r = .ok w') :
    w'.Sound := SoundWith.perform hw View.lasting_inStep hallowed h

/-! ## What is kept for ever -/

theorem Reachable.sound (hw : w.Reachable) : w.Sound := by
  induction hw with
  | start h => exact h.sound
  | step _ hallowed h ih => exact ih.perform hallowed h

/-- A request to an open view is carried out at its desk. -/
theorem perform_view (hs : w.seat? v = some s) (r : ViewRequest) :
    w.perform (.view v r) = (w.desk s).perform r >>= fun d => .ok (w.putBack v s d) := by
  unfold Workspace.perform
  dsimp only
  rw [hs]
  rfl

theorem perform_pump (hs : w.seat? v = some s) (h : s.view.grid.Upkept) :
    w.perform (.view v .pump) = .ok (w.putBack v s (w.desk s).pumped) := by
  obtain ⟨b, hpump⟩ := Desk.pump_eq (d := w.desk s) h
  rw [perform_view hs, Desk.perform, hpump]
  rfl

/-! ### What is put back at a seat -/

theorem seat?_putBack_self {d : Desk} (hv : v < w.seats.length) :
    (w.putBack v s d).seat? v = some { s with view := d.view } :=
  seat?_setSeat_self (w := w) hv _

theorem seat?_putBack_of_ne {d : Desk} {v' : Nat} (hne : v' ≠ v) :
    (w.putBack v s d).seat? v' = w.seat? v' :=
  seat?_setSeat_of_ne (w := w) hne _

theorem project_putBack {d : Desk} (hproject : s.project < w.projects.length) :
    (w.putBack v s d).project s.project = d.project := project_setProject_self hproject

theorem group_putBack {d : Desk} : (w.putBack v s d).group s.group = d.group := group_setGroup_self

/-- What is put back at a seat is found there again. -/
theorem desk_putBack {d : Desk} (hproject : s.project < w.projects.length) :
    (w.putBack v s d).desk { s with view := d.view } = { d with now := w.now } := by
  unfold desk
  dsimp only
  rw [project_putBack hproject, group_putBack]
  rfl

/-- In every reachable workspace an open view can be pumped.  Right after that, and after every
other request that ends with pumping, it shows its project and its group as they are. -/
theorem reachable_upToDate (hw : w.Reachable) (hs : w.seat? v = some s) :
    (∃ w', w.perform (.view v .pump) = .ok w') ∧
      ∀ r w', r.pumps s.view = true → w.perform (.view v r) = .ok w' →
        ∃ t, w'.seat? v = some t ∧ t.project = s.project ∧ t.group = s.group ∧
          t.view.member = s.view.member ∧ (w'.desk t).UpToDate := by
  have hsound := hw.sound
  have hstep := hsound.inStep v s hs
  constructor
  · obtain ⟨b, d, hpump, -⟩ := Desk.exists_pumped (hsound.desk s) hstep
    refine ⟨w.putBack v s d, ?_⟩
    rw [perform_view hs, Desk.perform, hpump]
    rfl
  · intro r w' hpumps hdone
    rw [perform_view hs] at hdone
    obtain ⟨d, hdesk, hplace⟩ := Checked.bind_eq_ok_iff.1 hdone
    obtain rfl := Except.ok.inj hplace
    have hpumped := (Desk.perform_spec (hsound.desk s) hstep hdesk).2 hpumps
    refine ⟨_, seat?_putBack_self (lt_of_seat? hs), rfl, rfl, hpumped.leads.member, ?_⟩
    rw [desk_putBack (hsound.project_lt v s hs)]
    have h := hpumped.upToDate
    exact ⟨h.patches, h.synchronized, h.painted, h.alwaysShow, h.record, h.underCursor⟩

theorem reachable_upToDate_second : ∃ w s, Reachable w ∧ w.seat? 1 = some s ∧
    (∃ w', w.perform (.view 1 .pump) = .ok w') ∧
      ∀ r w', r.pumps s.view = true → w.perform (.view 1 r) = .ok w' →
        ∃ t, w'.seat? 1 = some t ∧ t.project = s.project ∧ t.group = s.group ∧
          t.view.member = s.view.member ∧ (w'.desk t).UpToDate := by
  have hstart : Initial { projects := [{ image := .ofBytes 0 [1, 2, 3] }] } :=
    ⟨by simp, rfl, rfl⟩
  have hfirst := Reachable.step (.start hstart) (r := .openView 0 0 {}) Nat.one_pos rfl
  have hsecond := hfirst.step (r := .openView 0 0 {}) Nat.one_pos rfl
  exact ⟨_, _, hsecond, rfl, reachable_upToDate hsecond rfl⟩

end Workspace

end HexEditor
