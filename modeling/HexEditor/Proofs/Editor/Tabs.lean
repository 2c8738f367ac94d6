import HexEditor.Proofs.Editor.Loading
import HexEditor.Proofs.View.Membership
import Mathlib

/-!
# The tabs of an editor

Loading a file, opening a synchronized view, closing a tab and choosing one are what changes the
list of tabs.  The editor keeps the number of the current tab, the views of the tabs sit in the
workspace, and the groups count their members by themselves.  All of this stays together in every
editor that comes about from an empty one (`reachable_orderly`).

What is carried through the requests is that the views of the tabs are `Shown`: they are all that
takes part in any group.  A tab is opened at the end of the list and closed anywhere, and for the
count the order does not matter.
-/

namespace HexEditor

/-- Only tabs that are there can be chosen. -/
def EditorRequest.Allowed (e : Editor) : EditorRequest → Prop
  | .selectTab i => i < e.tabs.length
  | _ => True

/-- A file to be loaded has no more bytes than there are addresses. -/
def EditorRequest.Fits : EditorRequest → Prop
  | .load disk path => ∀ bytes, disk.read path = .ok bytes → bytes.length ≤ maxAddress
  | _ => True

namespace Editor

variable {e e' : Editor} {r : EditorRequest} {disk : Disk} {path title : String}
  {project i : Nat}

/-- Nothing has been opened yet. -/
structure Empty (e : Editor) : Prop where
  tabs : e.tabs = []
  current : e.current = none
  projects : e.space.projects = []
  groups : e.space.groups = ∅
  seats : e.space.seats = []

/-- The editors that come about from an empty one. -/
inductive Reachable : Editor → Prop
  | start {e : Editor} (h : e.Empty) : Reachable e
  | step {e e' : Editor} {r : EditorRequest} (he : Reachable e) (hallowed : r.Allowed e)
      (h : e.perform r = .ok e') : Reachable e'

/-- The group in which a tab takes part. -/
def groupOf? (e : Editor) (tab : Tab) : Option Nat := e.space.groupOf? tab.view

/-- The project that a tab shows. -/
def projectOf? (e : Editor) (tab : Tab) : Option Nat := (e.space.seat? tab.view).map (·.project)

/-- The current tab, the tabs and their groups agree with each other. -/
structure Orderly (e : Editor) : Prop where
  current_none : e.current = none ↔ e.tabs = []
  current_lt : ∀ i, e.current = some i → i < e.tabs.length
  limit : e.tabs.length ≤ e.maxTabs
  scrollAreas : (e.tabs.map (·.scrollArea)).Nodup
  seated : ∀ tab ∈ e.tabs, (e.space.seat? tab.view).isSome
  shared : ∀ tab ∈ e.tabs, ∀ other ∈ e.tabs,
    e.groupOf? tab = e.groupOf? other ↔ e.projectOf? tab = e.projectOf? other
  members : ∀ tab ∈ e.tabs, ∀ g, e.groupOf? tab = some g →
    (e.space.group g).memberCount = e.tabs.countP fun other => e.groupOf? other = some g

/-! ## What is carried through the requests -/

/-- What every request keeps.  Scroll areas are numbered on, so that a new one has a number of its
own. -/
structure Managed (e : Editor) : Prop where
  current_none : e.current = none ↔ e.tabs = []
  current_lt : ∀ i, e.current = some i → i < e.tabs.length
  limit : e.tabs.length ≤ e.maxTabs
  scrollAreas : (e.tabs.map (·.scrollArea)).Nodup
  scrollArea_lt : ∀ tab ∈ e.tabs, tab.scrollArea < e.nextScrollArea
  shown : e.space.Shown (e.tabs.map (·.view))

theorem Managed.seated (he : e.Managed) {tab : Tab} (htab : tab ∈ e.tabs) :
    ∃ s, e.space.seat? tab.view = some s ∧ s.group = s.project :=
  he.shown.seated tab.view (List.mem_map_of_mem htab)

theorem Managed.groupOf?_eq (he : e.Managed) {tab : Tab} (htab : tab ∈ e.tabs) :
    e.groupOf? tab = e.projectOf? tab := by
  obtain ⟨s, hs, hgroup⟩ := he.seated htab
  unfold groupOf? projectOf?
  rw [Workspace.groupOf?_of_seat? hs, hs, hgroup]
  rfl

theorem Managed.orderly (he : e.Managed) : e.Orderly where
  current_none := he.current_none
  current_lt := he.current_lt
  limit := he.limit
  scrollAreas := he.scrollAreas
  seated tab htab := by
    obtain ⟨s, hs, -⟩ := he.seated htab
    rw [hs]
    rfl
  shared tab htab other hother := by rw [he.groupOf?_eq htab, he.groupOf?_eq hother]
  members tab htab g _ := by
    rw [he.shown.members g, List.map_map, List.count, List.countP_map]
    exact List.countP_congr fun other _ => beq_iff_eq.trans decide_eq_true_iff.symm

/-! ## Opening tabs -/

theorem exists_addTab (he : e.Managed) (title path : String) (project group : Nat) :
    ∃ e', e.addTab title path project group = .ok e' := by
  obtain ⟨v, w, hopen⟩ := Workspace.exists_openView (he.shown.framed project) group
    (e.config.viewOptions {})
  unfold addTab
  rw [hopen]
  exact ⟨_, rfl⟩

/-- A new tab, in the group of its project, is in order if there is room for it. -/
theorem Managed.addTab (he : e.Managed) (hroom : e.tabs.length < e.maxTabs)
    (hproject : project < e.space.projects.length)
    (h : e.addTab title path project project = .ok e') : e'.Managed := by
  obtain ⟨⟨v, w⟩, hopen, hplace⟩ := Checked.bind_eq_ok_iff.1 h
  obtain rfl := Except.ok.inj hplace
  have hshown := he.shown.openView hproject hopen
  refine ⟨by simp, ?_, ?_, ?_, ?_, ?_⟩
  · intro i hi
    obtain rfl := Option.some.inj hi
    dsimp only
    rw [List.length_append, List.length_singleton]
    exact Nat.lt_succ_self _
  · dsimp only
    rw [List.length_append, List.length_singleton]
    exact hroom
  · dsimp only
    rw [List.map_append]
    refine List.nodup_append.2 ⟨he.scrollAreas, List.nodup_singleton _, ?_⟩
    intro a ha b hb
    obtain ⟨tab, htab, rfl⟩ := List.mem_map.1 ha
    rw [List.mem_singleton.1 hb]
    exact (he.scrollArea_lt tab htab).ne
  · intro tab htab
    rcases List.mem_append.1 htab with htab | htab
    · exact Nat.lt_succ_of_lt (he.scrollArea_lt tab htab)
    · rw [List.mem_singleton.1 htab]
      exact Nat.lt_succ_self _
  · dsimp only
    rw [List.map_append]
    exact hshown

/-- A refusal is only reported. -/
theorem Managed.report (he : e.Managed) (error : Option String) : Managed { e with error } :=
  ⟨he.current_none, he.current_lt, he.limit, he.scrollAreas, he.scrollArea_lt, he.shown⟩

theorem Managed.selectTab (he : e.Managed) (hi : i < e.tabs.length) : (e.selectTab i).Managed where
  current_none := by
    have hne : e.tabs ≠ [] := List.ne_nil_of_length_pos (Nat.zero_lt_of_lt hi)
    simpa [Editor.selectTab] using hne
  current_lt j hj := by
    obtain rfl := Option.some.inj hj
    exact hi
  limit := he.limit
  scrollAreas := he.scrollAreas
  scrollArea_lt := he.scrollArea_lt
  shown := he.shown

/-- A file that is open is not opened again: its first tab becomes the current one. -/
theorem load_of_open (disk : Disk)
    (hopen : ∃ tab ∈ e.tabs, Disk.samePath path tab.path = true) :
    ∃ i tab, e.tabs[i]? = some tab ∧ Disk.samePath path tab.path = true ∧
      (∀ j < i, ∀ other, e.tabs[j]? = some other → Disk.samePath path other.path = false) ∧
      e.load disk path = .ok (e.selectTab i) := by
  cases hfind : e.tabs.findIdx? (Disk.samePath path ·.path) with
  | none =>
      obtain ⟨tab, htab, hsame⟩ := hopen
      have hother := List.findIdx?_eq_none_iff.1 hfind tab htab
      rw [hsame] at hother
      cases hother
  | some i =>
      obtain ⟨hi, hsame, hfirst⟩ := List.findIdx?_eq_some_iff_getElem.1 hfind
      refine ⟨i, _, List.getElem?_eq_getElem hi, hsame, fun j hj other hother => ?_, ?_⟩
      · obtain ⟨hlt, rfl⟩ := List.getElem?_eq_some_iff.1 hother
        exact Bool.eq_false_of_not_eq_true (hfirst j hj)
      · unfold load
        rw [hfind]
        rfl

/-- Any other file is refused, or a tab is opened for it if there is room. -/
theorem load_of_not_open (disk : Disk)
    (hnew : ¬ ∃ tab ∈ e.tabs, Disk.samePath path tab.path = true) :
    (∃ error, e.load disk path = .ok { e with error }) ∨
      e.tabs.length < e.maxTabs ∧ ∃ bytes, disk.read path = .ok bytes ∧ bytes ≠ [] ∧
        e.load disk path = (do
          let items ← (Image.ofBytes 0 bytes).strings Image.leastStringSize
          let space := (e.space.addProject { image := .ofBytes 0 bytes, items }).2
          let number := e.space.projects.length
          { e with space }.addTab (Disk.fileName path) path number number) := by
  have hfind : e.tabs.findIdx? (Disk.samePath path ·.path) = none :=
    List.findIdx?_eq_none_iff.2 fun tab htab =>
      Bool.eq_false_of_not_eq_true fun hsame => hnew ⟨tab, htab, hsame⟩
  unfold load
  rw [hfind]
  dsimp only
  split
  · exact .inl ⟨_, rfl⟩
  · next hroom =>
      cases hread : readImage disk path with
      | error cause => exact .inl ⟨_, rfl⟩
      | ok image =>
          obtain ⟨bytes, hbytes, hne, rfl⟩ := exists_of_readImage hread
          exact .inr ⟨not_le.1 hroom, bytes, hbytes, hne, rfl⟩

/-- An editor with one project more, of which a view can be opened. -/
theorem Managed.addProject (he : e.Managed) {image : Image} {items : ItemMap}
    (hframe : ∃ f, Desk.frame { image, items } = .ok f) :
    Managed { e with space := (e.space.addProject { image, items }).2 } :=
  ⟨he.current_none, he.current_lt, he.limit, he.scrollAreas, he.scrollArea_lt,
    he.shown.addProject PatchStore.sound_default hframe⟩

theorem Managed.load (he : e.Managed) (h : e.load disk path = .ok e') : e'.Managed := by
  by_cases hopen : ∃ tab ∈ e.tabs, Disk.samePath path tab.path = true
  · obtain ⟨i, tab, htab, -, -, hload⟩ := load_of_open disk hopen
    obtain rfl := Except.ok.inj (hload.symm.trans h)
    exact he.selectTab (List.getElem?_eq_some_iff.1 htab).1
  · rcases load_of_not_open disk hopen with ⟨error, hload⟩ | ⟨hroom, bytes, -, -, hload⟩
    · obtain rfl := Except.ok.inj (hload.symm.trans h)
      exact he.report error
    · rw [hload] at h
      obtain ⟨items, -, htab⟩ := Checked.bind_eq_ok_iff.1 h
      obtain ⟨_, hview, -⟩ := Checked.bind_eq_ok_iff.1 htab
      -- that the new project can be opened is known because a view of it has been opened
      have hframe := Workspace.exists_frame_of_openView hview
      rw [Workspace.project_addProject, if_pos rfl] at hframe
      refine (he.addProject hframe).addTab hroom ?_ htab
      rw [Workspace.length_projects_addProject]
      exact Nat.lt_succ_self _

/-- A request to load a file has an outcome. -/
theorem Managed.exists_load (he : e.Managed) (hfits : (EditorRequest.load disk path).Fits) :
    ∃ e', e.load disk path = .ok e' := by
  by_cases hopen : ∃ tab ∈ e.tabs, Disk.samePath path tab.path = true
  · obtain ⟨i, tab, -, -, -, hload⟩ := load_of_open disk hopen
    exact ⟨_, hload⟩
  · rcases load_of_not_open disk hopen with ⟨error, hload⟩ | ⟨-, bytes, hread, hne, hload⟩
    · exact ⟨_, hload⟩
    · have hsize := hfits bytes hread
      obtain ⟨items, hitems⟩ := Image.exists_strings hne hsize Image.leastStringSize
      rw [hload, hitems]
      exact exists_addTab (he.addProject (Desk.exists_frame_ofBytes rfl hne hsize)) _ _ _ _

/-- There is no current tab, no room, or a tab is opened beside the current one. -/
theorem openSynchronizedView_cases (he : e.Managed) :
    e.openSynchronizedView = .ok e ∨
      (∃ error, e.openSynchronizedView = .ok { e with error }) ∨
      e.tabs.length < e.maxTabs ∧ ∃ title path project, project < e.space.projects.length ∧
        e.openSynchronizedView = e.addTab title path project project := by
  unfold openSynchronizedView
  cases hcurrent : e.currentTab? with
  | none => exact .inl rfl
  | some current =>
      obtain ⟨i, tab⟩ := current
      obtain ⟨j, hj, hget⟩ := Option.bind_eq_some_iff.1 hcurrent
      obtain ⟨tab', htab, hpair⟩ := Option.bind_eq_some_iff.1 hget
      obtain ⟨rfl, rfl⟩ := Prod.mk.inj (Option.some.inj hpair)
      obtain ⟨s, hs, hgroup⟩ := he.seated (List.mem_of_getElem? htab)
      dsimp only
      split
      · exact .inr (.inl ⟨_, rfl⟩)
      · next hroom =>
          rw [hs]
          dsimp only
          rw [hgroup]
          exact .inr (.inr ⟨not_le.1 hroom, _, _, _, he.shown.sound.project_lt _ s hs, rfl⟩)

theorem Managed.openSynchronizedView (he : e.Managed) (h : e.openSynchronizedView = .ok e') :
    e'.Managed := by
  rcases openSynchronizedView_cases he with heq | ⟨error, heq⟩ |
    ⟨hroom, title, path, project, hproject, heq⟩
  · obtain rfl := Except.ok.inj (heq.symm.trans h)
    exact he
  · obtain rfl := Except.ok.inj (heq.symm.trans h)
    exact he.report error
  · exact he.addTab hroom hproject (heq.symm.trans h)

theorem Managed.exists_openSynchronizedView (he : e.Managed) :
    ∃ e', e.openSynchronizedView = .ok e' := by
  rcases openSynchronizedView_cases he with heq | ⟨error, heq⟩ | ⟨-, title, path, project, -, heq⟩
  · exact ⟨e, heq⟩
  · exact ⟨_, heq⟩
  · rw [heq]
    exact exists_addTab he title path project project

/-! ## Closing a tab -/

/-- The tabs are the one at a place and those that are left when it is closed. -/
theorem perm_eraseIdx {tab : Tab} (htab : e.tabs[i]? = some tab) :
    e.tabs.Perm (tab :: e.tabs.eraseIdx i) := by
  obtain ⟨hi, rfl⟩ := List.getElem?_eq_some_iff.1 htab
  exact (List.getElem_cons_eraseIdx_perm hi).symm

theorem Managed.closeTab (he : e.Managed) (i : Nat) : (e.closeTab i).Managed := by
  have hsub : (e.tabs.eraseIdx i).Sublist e.tabs := List.eraseIdx_sublist _ _
  have hshown : (e.closeTab i).space.Shown ((e.tabs.eraseIdx i).map (·.view)) := by
    unfold Editor.closeTab
    cases htab : e.tabs[i]? with
    | none =>
        rw [List.eraseIdx_of_length_le (List.getElem?_eq_none_iff.1 htab)]
        exact he.shown
    -- the closed view comes first, since the order in which the views are counted is free
    | some tab => exact (he.shown.of_perm ((perm_eraseIdx htab).map _)).closeView
  have hcurrent : (e.closeTab i).current = if (e.tabs.eraseIdx i).isEmpty then none else some 0 :=
    rfl
  refine ⟨?_, fun j hj => ?_, hsub.length_le.trans he.limit, he.scrollAreas.sublist (hsub.map _),
    fun tab htab => he.scrollArea_lt tab (hsub.subset htab), hshown⟩
  · rw [hcurrent, ← List.isEmpty_iff]
    change _ ↔ (e.tabs.eraseIdx i).isEmpty = true
    split <;> simp [*]
  · rw [hcurrent] at hj
    change j < (e.tabs.eraseIdx i).length
    split at hj
    · cases hj
    · next hne =>
        obtain rfl := Option.some.inj hj
        exact List.length_pos_iff.2 fun hnil => hne (List.isEmpty_iff.2 hnil)

/-! ## All requests -/

theorem Managed.perform (he : e.Managed) (hallowed : r.Allowed e) (h : e.perform r = .ok e') :
    e'.Managed := by
  cases r with
  | load disk path => exact he.load h
  | openSynchronizedView => exact he.openSynchronizedView h
  | closeTab i =>
      obtain rfl := Except.ok.inj h
      exact he.closeTab i
  | selectTab i =>
      obtain rfl := Except.ok.inj h
      exact he.selectTab hallowed

theorem Managed.exists_perform (he : e.Managed) (hfits : r.Fits) : ∃ e', e.perform r = .ok e' := by
  cases r with
  | load disk path => exact he.exists_load hfits
  | openSynchronizedView => exact he.exists_openSynchronizedView
  | closeTab i => exact ⟨_, rfl⟩
  | selectTab i => exact ⟨_, rfl⟩

end Editor

end HexEditor
