import HexEditor.Proofs.Grid.Highlighting
import HexEditor.Proofs.View.Tended

/-!
# The highlights follow the cursor

A view highlights the item around its cursor as long as its switch is on.  What is highlighted
depends on the cursor, the switch and the items of the project, and it is computed in three places
only: when the view is opened, when the switch is set, and by the listener that the view gives to
its grid.  So it has to be shown that whatever else can happen leaves those three alone, or moves
the cursor in a way that calls the listener.

What happens to a single view is made of a few parts, and each of them keeps the highlights right
(`Part.keeps`); pumping does, although it may go to where another view is, because going there is a
move like any other.  What happens elsewhere in the workspace cannot touch the grid of a view, and
the items of a project never change.  Hence in every workspace that comes about by requests of any
kind, and by commands to the grids that leave the highlights to the views (`Entrusted`), all views
highlight what they should (`entrusted_highlights`).

Unlike what a view shows of the patches and of the other views, nothing here rests on mail, so no
request has to spare anybody's mailbox.
-/

namespace HexEditor

/-- Only the grid, the switch and the items of the project matter. -/
theorem Scene.Attentive.congr {s t : Scene} (h : s.Attentive) (hgrid : t.grid = s.grid)
    (hsmart : t.around.smart = s.around.smart)
    (hitems : t.around.project.items = s.around.project.items) : t.Attentive := by
  have hhighlights : t.around.highlights = s.around.highlights := by
    funext addr
    unfold Surroundings.highlights
    rw [hsmart, hitems]
  refine ⟨?_, hgrid ▸ h.first, hgrid ▸ h.still⟩
  rw [Scene.Lit, hgrid, hhighlights]
  exact h.lit

namespace Desk

variable {d e f : Desk} {p : Project} {g : SyncGroup} {s : Scene} {b : Bool}

/-- The highlights are right at the end, and the items are those that there were before. -/
structure Keeps (d e : Desk) : Prop where
  sound : e.Sound
  items : e.project.items = d.project.items
  attentive : e.scene.Attentive

theorem Keeps.trans (hde : Keeps d e) (hef : Keeps e f) : Keeps d f :=
  ⟨hef.sound, hef.items.trans hde.items, hef.attentive⟩

/-- What is done to the scene keeps the highlights right if they stay so in the scene. -/
theorem keeps_of_stays (hd : d.Sound) (h : d.scene.Attentive) (hstays : Scene.Stays d.scene s)
    (hmoving : s.grid.cursor.moving = d.view.grid.cursor.moving) : Keeps d (d.withScene s) := by
  have hleads : Leads d (d.withScene s) := .of_scene hstays.store hstays.group
  exact ⟨hleads.sound hd, hstays.items,
    (h.of_stays hstays hmoving).congr rfl hstays.smart.symm rfl⟩

/-- A grid that differs in what the highlights have nothing to do with. -/
theorem keeps_of_grid (hd : d.Sound) (h : d.scene.Attentive) {grid : Grid}
    (hlit : grid.Lit d.scene.around.highlights) (hlisteners : grid.listeners = d.view.grid.listeners)
    (hcursor : grid.cursor = d.view.grid.cursor) :
    Keeps d { d with view := { d.view with grid } } := by
  refine ⟨⟨hd.store, hd.group⟩, rfl, hlit, ?_, ?_⟩
  · exact (congrArg List.head? hlisteners).trans h.first
  · exact (congrArg Cursor.moving hcursor).trans h.still

/-! ## Pumping -/

theorem renewed_lit (h : d.scene.Lit) : d.renewed.view.grid.Lit d.scene.around.highlights :=
  renew_grid_keeps (P := fun g => g.Lit d.scene.around.highlights) (d := d.emptyInboxes) h
    (fun hg regions => hg.setPatches regions) (fun hg _ => hg.of_span rfl rfl rfl rfl)
    fun hg _ _ => hg.setSynchronized _

theorem renewed_keeps (hd : d.Sound) (h : d.scene.Attentive) : Keeps d d.renewed := by
  have hrenews := renews_renewed d
  have hlit := renewed_lit h.lit
  have hitems : d.renewed.project.items = d.project.items := by rw [hrenews.project]
  have hgrid : d.renewed.view.grid.listeners = d.view.grid.listeners ∧
      d.renewed.view.smart = d.view.smart := by
    rw [hrenews.view]
    exact ⟨rfl, rfl⟩
  have hkept := keeps_of_grid hd h hlit hgrid.1 hrenews.cursor
  exact ⟨hrenews.leads.sound hd, hitems, hkept.attentive.congr rfl hgrid.2 hitems⟩

theorem publishSelection_keeps (hd : d.Sound) (h : d.scene.Attentive) :
    Keeps d d.publishSelection := by
  have hitems := congrArg Project.items (publishSelection_project d)
  have hsmart := congrArg View.smart (publishSelection_view d)
  exact ⟨(leads_publishSelection d).sound hd, hitems,
    h.congr (publishSelection_grid d) hsmart hitems⟩

/-- Pumping keeps the highlights right, wherever it goes. -/
theorem pump_keeps (hd : d.Sound) (h : d.scene.Attentive) (hpump : d.pump = .ok (b, e)) :
    Keeps d e := by
  obtain ⟨s, hhandles, rfl⟩ := gone_of_pump hpump
  have hrenewed := renewed_keeps hd h
  have hstays := hhandles.stays hrenewed.attentive.minds hrenewed.attentive.lit hrenewed.sound.store
  have hgone := keeps_of_stays hrenewed.sound hrenewed.attentive hstays hhandles.moving
  exact (hrenewed.trans hgone).trans (publishSelection_keeps hgone.sound hgone.attentive)

/-! ## Requests -/

theorem Part.keeps (hd : d.Sound) (h : d.scene.Attentive) (hpart : Part d e) : Keeps d e := by
  cases hpart with
  | handled hhandles =>
      exact keeps_of_stays hd h (hhandles.stays h.minds h.lit hd.store) hhandles.moving
  | blinked => exact keeps_of_grid hd h (h.lit.of_span rfl rfl rfl rfl) rfl rfl
  | highlighted on =>
      exact ⟨⟨hd.store, hd.group⟩, rfl, ⟨rfl, rfl, h.lit.listeners⟩, h.first, h.still⟩
  | copied => exact ⟨⟨hd.store, hd.group⟩, rfl, h.congr rfl rfl rfl⟩
  | replied hstore => exact ⟨⟨hstore.sound hd.store, hd.group⟩, rfl, h.congr rfl rfl rfl⟩
  | pumped hpump => exact pump_keeps hd h hpump

/-- Every request to a view keeps its highlights right. -/
theorem perform_keeps {r : ViewRequest} (hd : d.Sound) (h : d.scene.Attentive)
    (hdone : d.perform r = .ok e) : Keeps d e := by
  have hparts := (perform_parts hd hdone).1
  refine hparts.keeps (P := Keeps d) ?_ ⟨hd, rfl, h⟩
  intro e f hpart he
  exact he.trans (hpart.keeps he.sound he.attentive)

/-- So does a command to its grid that leaves them to the view. -/
theorem onGrid_keeps {c : Command} {a : Answer} (hd : d.Sound) (h : d.scene.Attentive)
    (hkeeps : c.KeepsHighlights) (hdone : d.onGrid (·.perform c) = .ok (a, e)) : Keeps d e := by
  obtain ⟨⟨answer, s⟩, hperform, hplaced⟩ := Checked.bind_eq_ok_iff.1 hdone
  obtain ⟨-, rfl⟩ := Prod.mk.inj (Except.ok.inj hplaced)
  have hperformed := Scene.performed hperform
  exact keeps_of_stays hd h (hperformed.stays hkeeps h.minds h.lit hd.store) hperformed.moving

/-! ## Opening -/

/-- A new view highlights what it should, and its listener is the first one. -/
theorem settle_attentive (p : Project) (g : SyncGroup) (options : ViewOptions) (now : Nat)
    {grid : Grid} (hlisteners : grid.listeners = []) (hstill : grid.cursor.moving = false) :
    (settle p g options now grid).scene.Attentive := by
  have hgiven : (settle p g options now grid).scene.grid.listeners = [.viewUpkeep] := by
    change grid.listeners ++ [Listener.viewUpkeep] = _
    rw [hlisteners, List.nil_append]
  refine ⟨⟨rfl, rfl, fun l hl => ?_⟩, congrArg List.head? hgiven, hstill⟩
  rw [hgiven, List.mem_singleton] at hl
  rw [hl]
  exact nofun

theorem openView_attentive {options : ViewOptions} {now : Nat}
    (hopen : openView p g options now = .ok d) :
    d.project.items = p.items ∧ d.scene.Attentive := by
  rw [openView_eq] at hopen
  obtain ⟨f, -, hdesk⟩ := Checked.bind_eq_ok_iff.1 hopen
  obtain rfl := Except.ok.inj hdesk
  exact ⟨rfl, settle_attentive p g options now rfl rfl⟩

end Desk

namespace Workspace

variable {w w' : Workspace} {v i : Nat} {s : Seat} {p : Project} {g : SyncGroup} {d : Desk}
  {r : WorkspaceRequest}

/-- Stores and groups can be relied on, and every view highlights what it should. -/
structure Attentive (w : Workspace) : Prop where
  store : ∀ i, (w.project i).patches.Sound
  group : ∀ i, (w.group i).Sound
  view : ∀ v s, w.seat? v = some s → (w.desk s).scene.Attentive

/-- A project is replaced, or it is not there to be. -/
theorem project_setProject (w : Workspace) (i : Nat) (p : Project) (j : Nat) :
    j = i ∧ (w.setProject i p).project j = p ∨ (w.setProject i p).project j = w.project j := by
  by_cases hj : j = i
  · subst hj
    by_cases hlt : j < w.projects.length
    · exact .inl ⟨rfl, project_setProject_self hlt⟩
    · right
      unfold setProject
      rw [List.set_eq_of_length_le (not_lt.1 hlt)]
  · exact .inr (project_setProject_of_ne hj)

namespace Attentive

theorem desk (hw : w.Attentive) (s : Seat) : (w.desk s).Sound := ⟨hw.store _, hw.group _⟩

/-- A project may change as long as its items do not. -/
theorem setProject (hw : w.Attentive) (hp : p.patches.Sound)
    (hitems : p.items = (w.project i).items) : (w.setProject i p).Attentive := by
  have hsame : ∀ j, ((w.setProject i p).project j).items = (w.project j).items := by
    intro j
    rcases project_setProject w i p j with ⟨rfl, hj⟩ | hj
    · rw [hj, hitems]
    · rw [hj]
  refine ⟨fun j => ?_, hw.group, fun v s hs => (hw.view v s hs).congr rfl rfl (hsame s.project)⟩
  rcases project_setProject w i p j with ⟨-, hj⟩ | hj
  · rw [hj]
    exact hp
  · rw [hj]
    exact hw.store j

/-- A group may change. -/
theorem setGroup (hw : w.Attentive) (hg : g.Sound) : (w.setGroup i g).Attentive := by
  refine ⟨hw.store, fun j => ?_, fun v s hs => (hw.view v s hs).congr rfl rfl rfl⟩
  by_cases hj : j = i
  · rw [hj, group_setGroup_self]
    exact hg
  · rw [group_setGroup_of_ne hj]
    exact hw.group j

theorem vacate (hw : w.Attentive) (v : Nat) : (w.setSeat v none).Attentive :=
  ⟨hw.store, hw.group, fun v' s hs => hw.view v' s (of_seat?_vacated hs).2⟩

theorem occupy (hw : w.Attentive) (hs : (w.desk s).scene.Attentive) :
    (w.setSeat v (some s)).Attentive := by
  refine ⟨hw.store, hw.group, fun v' s' hs' => ?_⟩
  by_cases hv' : v' = v
  · subst hv'
    have hlt : v' < w.seats.length := by simpa [setSeat] using lt_of_seat? hs'
    rw [seat?_setSeat_self hlt] at hs'
    obtain rfl := Option.some.inj hs'
    exact hs
  · rw [seat?_setSeat_of_ne hv'] at hs'
    exact hw.view v' s' hs'

/-- A view that highlights what it should may take a seat. -/
theorem putBack (hw : w.Attentive) (hd : d.Sound)
    (hitems : d.project.items = (w.project s.project).items) (hview : d.scene.Attentive) :
    (w.putBack v s d).Attentive := by
  have hplaced := (hw.setProject hd.store hitems).setGroup (i := s.group) hd.group
  have hproject : ((w.setProject s.project d.project).project s.project).items =
      d.project.items := by
    rcases project_setProject w s.project d.project s.project with ⟨-, hj⟩ | hj
    · rw [hj]
    · rw [hj, hitems]
  have hseated := hplaced.occupy (v := v) (s := { s with view := d.view })
    (hview.congr rfl rfl hproject)
  exact ⟨hseated.store, hseated.group, fun v' s' hs' => (hseated.view v' s' hs').congr rfl rfl rfl⟩

theorem closeView (hw : w.Attentive) (v : Nat) : (w.closeView v).Attentive := by
  unfold Workspace.closeView
  cases hs : w.seat? v with
  | none => exact hw
  | some s =>
      obtain ⟨hstore, hgroup⟩ := Desk.close_sound (hw.desk s)
      exact ((hw.vacate v).setProject (p := (w.desk s).close.1) hstore rfl).setGroup hgroup

theorem openView {project group : Nat} {options : ViewOptions} (hw : w.Attentive)
    (hopen : w.openView project group options = .ok (v, w')) : w'.Attentive := by
  obtain ⟨d, hdesk, hplace⟩ := Checked.bind_eq_ok_iff.1 hopen
  obtain ⟨rfl, rfl⟩ := Prod.mk.inj (Except.ok.inj hplace)
  have hsound := (Desk.openView_spec (hw.store project) (hw.group group) hdesk).sound
  obtain ⟨hitems, hview⟩ := Desk.openView_attentive hdesk
  have hroom : w.withSeat.Attentive :=
    ⟨hw.store, hw.group, fun v s hs => hw.view v s (seat?_withSeat v ▸ hs)⟩
  exact hroom.putBack (d := { d with log := w.log }) ⟨hsound.store, hsound.group⟩ hitems
    (hview.congr rfl rfl rfl)

/-- Every request keeps all highlights right. -/
theorem perform (hw : w.Attentive) (h : w.perform r = .ok w') : w'.Attentive := by
  cases r with
  | openView project group options =>
      obtain ⟨v, hopen⟩ := Checked.exists_of_return_snd h
      exact hw.openView hopen
  | closeView v =>
      obtain rfl := Except.ok.inj h
      exact hw.closeView v
  | view v r =>
      cases hs : w.seat? v with
      | none =>
          unfold Workspace.perform at h
          dsimp only at h
          rw [hs] at h
          obtain rfl := Except.ok.inj h
          exact hw
      | some s =>
          rw [perform_view hs] at h
          obtain ⟨d, hdesk, hplace⟩ := Checked.bind_eq_ok_iff.1 h
          obtain rfl := Except.ok.inj hplace
          have hkept := Desk.perform_keeps (hw.desk s) (hw.view v s hs) hdesk
          exact hw.putBack hkept.sound hkept.items hkept.attentive
  | patches i r =>
      obtain ⟨reply, hreply, hplace⟩ := Checked.bind_eq_ok_iff.1 h
      obtain rfl := Except.ok.inj hplace
      obtain ⟨reply', hreply', hevolves⟩ := PatchStore.exists_perform (hw.store i) r
      rw [hreply] at hreply'
      obtain rfl := Except.ok.inj hreply'
      exact hw.setProject (hevolves.sound (hw.store i)) rfl
  | patchMail i r =>
      obtain rfl := Except.ok.inj h
      exact hw.setProject ⟨(hw.store i).wellFormed, (hw.store i).fresh.serve r⟩ rfl
  | group i r =>
      obtain rfl := Except.ok.inj h
      exact hw.setGroup ((hw.group i).perform r)
  | groupMail i r =>
      obtain rfl := Except.ok.inj h
      exact hw.setGroup ⟨(hw.group i).member_lt, (hw.group i).fresh.serve r⟩
  | clock now =>
      obtain rfl := Except.ok.inj h
      exact ⟨hw.store, hw.group, fun v s hs => (hw.view v s hs).congr rfl rfl rfl⟩

end Attentive

/-- The workspaces that come about by requests and by commands to the grids of views, as long as
these leave the highlights to the views. -/
inductive Entrusted : Workspace → Prop
  | start {w : Workspace} (h : w.Initial) : Entrusted w
  | request {w w' : Workspace} {r : WorkspaceRequest} (hw : Entrusted w)
      (h : w.perform r = .ok w') : Entrusted w'
  | command {w : Workspace} {v : Nat} {s : Seat} {c : Command} {a : Answer} {d : Desk}
      (hw : Entrusted w) (hs : w.seat? v = some s) (hkeeps : c.KeepsHighlights)
      (h : (w.desk s).onGrid (·.perform c) = .ok (a, d)) : Entrusted (w.putBack v s d)

theorem Initial.attentive (h : w.Initial) : w.Attentive := by
  have hsound := h.sound (P := View.InStep)
  refine ⟨hsound.store_project, hsound.group, fun v s hs => ?_⟩
  have hlt := lt_of_seat? hs
  rw [h.seats] at hlt
  exact absurd hlt (Nat.not_lt_zero v)

theorem Entrusted.attentive (hw : w.Entrusted) : w.Attentive := by
  induction hw with
  | start h => exact h.attentive
  | request _ h ih => exact ih.perform h
  | command _ hs hkeeps h ih =>
      have hkept := Desk.onGrid_keeps (ih.desk _) (ih.view _ _ hs) hkeeps h
      exact ih.putBack hkept.sound hkept.items hkept.attentive

/-- Whatever has happened, every view highlights the item around its cursor if its switch is on,
and nothing if it is off, with the marks of what is selected now. -/
theorem entrusted_highlights (hw : w.Entrusted) (hs : w.seat? v = some s) :
    s.view.grid.overlay.classification =
        (if s.view.smart then
          (w.project s.project).items.highlights s.view.grid.cursor.addr else []) ∧
      s.view.grid.overlay.painted =
        (s.view.grid.overlay.classification ++ s.view.grid.overlay.synchronized ++
          s.view.grid.overlay.patches).map (Region.mark s.view.grid.cursor.span) := by
  have hview := hw.attentive.view v s hs
  exact ⟨hview.lit.classification, hview.lit.painted⟩

/-- The cursor of a view is moved into a string behind the back of the view. -/
theorem entrusted_highlights_string : ∃ w s, Entrusted w ∧ w.seat? 0 = some s ∧
    s.view.grid.overlay.classification.map Region.extent = [(.string, .plain, 2, 3)] ∧
      s.view.grid.overlay.classification =
          (if s.view.smart then
            (w.project s.project).items.highlights s.view.grid.cursor.addr else []) ∧
        s.view.grid.overlay.painted =
          (s.view.grid.overlay.classification ++ s.view.grid.overlay.synchronized ++
            s.view.grid.overlay.patches).map (Region.mark s.view.grid.cursor.span) := by
  have hstart : Initial { projects :=
      [{ image := .ofBytes 0 [1, 2, 65, 66, 67, 3], items := .ofList [.data 2 3 .string] }] } :=
    ⟨by simp, rfl, rfl⟩
  have hopened := Entrusted.request (.start hstart) (r := .openView 0 0 {}) rfl
  have hmoved := hopened.command (v := 0) (c := .setCursor 3 none none) rfl
    (.other rfl rfl rfl) rfl
  exact ⟨_, _, hmoved, rfl, rfl, entrusted_highlights (v := 0) hmoved rfl⟩

end Workspace

end HexEditor
