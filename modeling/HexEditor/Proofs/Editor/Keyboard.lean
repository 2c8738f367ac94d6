import HexEditor.Proofs.Editor.Hold
import HexEditor.Proofs.Editor.Popup

/-!
# Who has the keyboard

In an editor the tabs are on different views, and only the current one is at work.  How each of them
stands to the keyboard can be said from the presses and the field for an address alone
(`KeyboardLog`).  The two notes, of the tab and of the grid of its view, follow that, whatever else
happens (`Editor.Holds`).  So they agree unless the field has taken the keyboard from the canvas and
the canvas has not been pressed since.
-/

namespace HexEditor

/-! ## The views of the tabs -/

namespace Workspace

variable {w w' : Workspace} {v v' : Nat}

theorem seat?_congr (hseats : w'.seats = w.seats) (v : Nat) : w'.seat? v = w.seat? v := by
  unfold seat?
  rw [hseats]

theorem seats_length_putBack (w : Workspace) (v : Nat) (s : Seat) (d : Desk) :
    (w.putBack v s d).seats.length = w.seats.length := List.length_set ..

/-- A new view has the next number, and has not got the keyboard. -/
theorem openView_inFocus {project group : Nat} {options : ViewOptions}
    (hopen : w.openView project group options = .ok (v, w')) :
    v = w.seats.length ∧ w'.seats.length = w.seats.length + 1 ∧
      (∃ s, w'.seat? v = some s ∧ s.view.grid.InFocus false) ∧
      ∀ v' ≠ v, w'.seat? v' = w.seat? v' := by
  obtain ⟨d, hdesk, hplace⟩ := Checked.bind_eq_ok_iff.1 hopen
  obtain ⟨rfl, rfl⟩ := Prod.mk.inj (Except.ok.inj hplace)
  have hlength : w.withSeat.seats.length = w.seats.length + 1 := by
    unfold withSeat
    rw [List.length_append, List.length_singleton]
  have hlt : w.seats.length < w.withSeat.seats.length := hlength ▸ Nat.lt_succ_self _
  refine ⟨rfl, (seats_length_putBack w.withSeat ..).trans hlength,
    ⟨_, seat?_putBack_self hlt, Desk.openView_inFocus hdesk⟩, fun v' hne => ?_⟩
  exact (seat?_putBack_of_ne hne).trans (seat?_withSeat v')

/-- Closing a view leaves the others in their seats. -/
theorem closeView_seats (w : Workspace) (v : Nat) :
    (w.closeView v).seats.length = w.seats.length ∧
      ∀ v' ≠ v, (w.closeView v).seat? v' = w.seat? v' := by
  unfold closeView
  cases w.seat? v with
  | none => exact ⟨rfl, fun _ _ => rfl⟩
  | some s => exact ⟨List.length_set .., fun v' hne => seat?_setSeat_of_ne (w := w) hne none⟩

end Workspace

namespace Editor

variable {e e' : Editor} {t u : OpenTab} {hold hold' : Nat → Hold} {v : Nat} {s : Seat}

/-- In every tab both notes say how it stands to the keyboard.  No two tabs have the same view, and
a view that has yet to be opened will not have the keyboard. -/
structure Holds (hold : Nat → Hold) (e : Editor) : Prop where
  views : (e.tabs.map (·.view)).Nodup
  held : ∀ tab ∈ e.tabs, ∃ s, e.space.seat? tab.view = some s ∧
    tab.hasFocus = (hold tab.view).keys ∧ s.view.grid.InFocus (hold tab.view).told
  free : ∀ v, e.space.seats.length ≤ v → hold v = .free

/-- Only the tabs and the seats matter. -/
theorem Holds.congr (he : e.Holds hold) (htabs : e'.tabs = e.tabs)
    (hseats : e'.space.seats = e.space.seats) : e'.Holds hold := by
  refine ⟨htabs ▸ he.views, fun tab htab => ?_, hseats ▸ he.free⟩
  rw [Workspace.seat?_congr hseats]
  exact he.held tab (htabs ▸ htab)

theorem Holds.openTab (he : e.Holds hold) (ht : e.openTab? = some t) :
    t.Held t.tab.view (hold t.tab.view) := by
  obtain ⟨i, s, -, htab, hs, hdesk⟩ := exists_of_openTab? ht
  obtain ⟨s', hs', hkeys, hgrid⟩ := he.held t.tab (List.mem_of_getElem? htab)
  obtain rfl := Option.some.inj (hs.symm.trans hs')
  refine ⟨rfl, hkeys, ?_⟩
  rw [hdesk]
  exact hgrid

/-- Something has happened to the tab on one view. -/
theorem Holds.change {tabs : List Tab} {d : Desk} (he : e.Holds hold)
    (hs : e.space.seat? v = some s) (hviews : tabs.map (·.view) = e.tabs.map (·.view))
    (hd : d.InFocus (hold' v).told)
    (hkeys : ∀ tab ∈ tabs, tab.view = v → tab.hasFocus = (hold' v).keys)
    (htabs : ∀ tab ∈ tabs, tab.view ≠ v → tab ∈ e.tabs) (hhold : ∀ v' ≠ v, hold' v' = hold v') :
    Holds hold' { e with space := e.space.putBack v s d, tabs } := by
  have hlt := Workspace.lt_of_seat? hs
  refine ⟨hviews ▸ he.views, fun tab htab => ?_, fun v' hle => ?_⟩
  · by_cases hv : tab.view = v
    · rw [hv]
      exact ⟨_, Workspace.seat?_putBack_self hlt, hkeys tab htab hv, hd⟩
    · rw [hhold _ hv, Workspace.seat?_putBack_of_ne hv]
      exact he.held tab (htabs tab htab hv)
  · rw [Workspace.seats_length_putBack] at hle
    rw [hhold v' (hlt.trans_le hle).ne']
    exact he.free v' hle

theorem Holds.putBack {h : Hold} (he : e.Holds hold) (ht : e.openTab? = some t)
    (hu : u.Held t.tab.view h) : (e.putBack u).Holds (Function.update hold t.tab.view h) := by
  obtain ⟨i, s, hcurrent, htab, hs, -⟩ := exists_of_openTab? ht
  have hview : (e.tabs.map (·.view))[i]? = some u.tab.view := by
    rw [List.getElem?_map, htab, hu.view]
    rfl
  have hset : ∀ tab ∈ e.tabs.set i u.tab, tab = u.tab ∨ tab ∈ e.tabs ∧ tab.view ≠ t.tab.view :=
    fun tab hmem => mem_set_of_nodup he.views htab hmem
  have hchanged : Holds (Function.update hold t.tab.view h)
      { e with space := e.space.putBack t.tab.view s u.desk, tabs := e.tabs.set i u.tab } := by
    refine he.change hs ?_ ?_ (fun tab hmem hv => ?_) (fun tab hmem hv => ?_) fun v' hne => ?_
    · rw [List.map_set, set_of_getElem? hview]
    · rw [Function.update_self]
      exact hu.grid
    · rw [Function.update_self]
      rcases hset tab hmem with rfl | ⟨-, hne⟩
      · exact hu.keys
      · exact absurd hv hne
    · rcases hset tab hmem with rfl | ⟨hold, -⟩
      · exact absurd hu.view hv
      · exact hold
    · exact Function.update_of_ne hne ..
  unfold Editor.putBack
  rw [hcurrent]
  dsimp only
  rw [hs]
  exact hchanged.congr rfl rfl

/-- The hold on the keyboard after something has happened to the tab at work. -/
def pass (e : Editor) (f : OpenTab → Hold → Hold) (hold : Nat → Hold) : Nat → Hold :=
  match e.openTab? with
  | some t => Function.update hold t.tab.view (f t (hold t.tab.view))
  | none => hold

theorem Holds.inTab {op : OpenTab → Checked OpenTab} {f : OpenTab → Hold → Hold}
    (he : e.Holds hold) (hop : ∀ {v h t u}, t.Held v h → op t = .ok u → u.Held v (f t h))
    (hdone : e.inTab op = .ok e') : e'.Holds (e.pass f hold) := by
  unfold pass
  cases ht : e.openTab? with
  | none =>
      rw [inTab_of_none ht] at hdone
      obtain rfl := Except.ok.inj hdone
      exact he
  | some t =>
      rw [inTab_of_some ht] at hdone
      obtain ⟨u, hu, hret⟩ := Checked.bind_eq_ok_iff.1 hdone
      obtain rfl := Except.ok.inj hret
      exact he.putBack ht (hop (he.openTab ht) hu)

theorem pass_self (e : Editor) (hold : Nat → Hold) : e.pass (fun _ h => h) hold = hold := by
  unfold pass
  split
  · exact Function.update_eq_self ..
  · rfl

/-! ## Opening and closing tabs -/

theorem Holds.addTab {title path : String} {project group : Nat} (he : e.Holds hold)
    (hadd : e.addTab title path project group = .ok e') : e'.Holds hold := by
  obtain ⟨⟨v, space⟩, hopen, hret⟩ := Checked.bind_eq_ok_iff.1 hadd
  obtain rfl := Except.ok.inj hret
  obtain ⟨rfl, hlength, ⟨s, hs, hgrid⟩, hothers⟩ := Workspace.openView_inFocus hopen
  have hnew : ∀ tab ∈ e.tabs, tab.view ≠ e.space.seats.length := by
    intro tab htab
    obtain ⟨s, hs, -⟩ := he.held tab htab
    exact (Workspace.lt_of_seat? hs).ne
  have hfree := he.free _ le_rfl
  refine ⟨?_, fun tab htab => ?_, fun v hle => ?_⟩
  · rw [List.map_append]
    refine List.nodup_append.2 ⟨he.views, List.nodup_singleton _, ?_⟩
    intro a ha b hb
    obtain ⟨tab, htab, rfl⟩ := List.mem_map.1 ha
    rw [List.mem_singleton.1 hb]
    exact hnew tab htab
  · rcases List.mem_append.1 htab with htab | htab
    · dsimp only
      rw [hothers _ (hnew tab htab)]
      exact he.held tab htab
    · obtain rfl := List.mem_singleton.1 htab
      dsimp only
      rw [hfree]
      exact ⟨s, hs, rfl, hgrid⟩
  · dsimp only at hle
    rw [hlength] at hle
    exact he.free v (Nat.le_of_succ_le hle)

theorem Holds.load {disk : Disk} {path : String} (he : e.Holds hold)
    (hload : e.load disk path = .ok e') : e'.Holds hold := by
  by_cases hopen : ∃ tab ∈ e.tabs, Disk.samePath path tab.path = true
  · obtain ⟨i, -, -, -, -, hselect⟩ := load_of_open disk hopen
    obtain rfl := Except.ok.inj (hselect.symm.trans hload)
    exact he.congr rfl rfl
  · rcases load_of_not_open disk hopen with ⟨error, hrefused⟩ | ⟨-, bytes, -, -, hnew⟩
    · obtain rfl := Except.ok.inj (hrefused.symm.trans hload)
      exact he.congr rfl rfl
    · rw [hnew] at hload
      obtain ⟨items, -, hadd⟩ := Checked.bind_eq_ok_iff.1 hload
      have hplaced : Holds hold
          { e with space := (e.space.addProject { image := .ofBytes 0 bytes, items }).2 } :=
        he.congr rfl rfl
      exact hplaced.addTab hadd

theorem Holds.openSynchronizedView (he : e.Holds hold)
    (hopen : e.openSynchronizedView = .ok e') : e'.Holds hold := by
  unfold Editor.openSynchronizedView at hopen
  split at hopen
  · obtain rfl := Except.ok.inj hopen
    exact he
  · split at hopen
    · obtain rfl := Except.ok.inj hopen
      exact he.congr rfl rfl
    · split at hopen
      · obtain rfl := Except.ok.inj hopen
        exact he
      · exact he.addTab hopen

theorem Holds.closeTab (he : e.Holds hold) (i : Nat) : (e.closeTab i).Holds hold := by
  cases htab : e.tabs[i]? with
  | none =>
      refine he.congr (List.eraseIdx_of_length_le (List.getElem?_eq_none_iff.1 htab)) ?_
      unfold Editor.closeTab
      rw [htab]
  | some closed =>
      have hsub : (e.tabs.eraseIdx i).Sublist e.tabs := List.eraseIdx_sublist _ _
      obtain ⟨hlength, hothers⟩ := e.space.closeView_seats closed.view
      have hspace : (e.closeTab i).space = e.space.closeView closed.view := by
        unfold Editor.closeTab
        rw [htab]
      have hviews := ((perm_eraseIdx htab).map (·.view)).nodup_iff.1 he.views
      refine ⟨he.views.sublist (hsub.map _), fun tab hmem => ?_, ?_⟩
      · have hne : tab.view ≠ closed.view := fun heq =>
          (List.nodup_cons.1 hviews).1 (List.mem_map.2 ⟨tab, hmem, heq⟩)
        rw [hspace, hothers _ hne]
        exact he.held tab (hsub.subset hmem)
      · rw [hspace, hlength]
        exact he.free

theorem Holds.perform {r : EditorRequest} (he : e.Holds hold) (hdone : e.perform r = .ok e') :
    e'.Holds hold := by
  cases r with
  | load disk path => exact he.load hdone
  | openSynchronizedView => exact he.openSynchronizedView hdone
  | closeTab i =>
      obtain rfl := Except.ok.inj hdone
      exact he.closeTab i
  | selectTab i =>
      obtain rfl := Except.ok.inj hdone
      exact he.congr rfl rfl

/-! ## Pumping and popups -/

theorem Holds.pumpAll (he : e.Holds hold) (hdone : e.pumpAll = .ok e') : e'.Holds hold := by
  obtain ⟨space, hspace, hret⟩ := Checked.bind_eq_ok_iff.1 hdone
  obtain rfl := Except.ok.inj hret
  refine Checked.foldlM_keeps (P := fun space => Holds hold { e with space }) ?_ hspace he
  intro space space' tab htab hpump hspace
  obtain ⟨s, hs, hkeys, hgrid⟩ := hspace.held tab htab
  dsimp only at hs
  unfold Workspace.onView? at hpump
  dsimp only at hpump
  rw [hs] at hpump
  obtain ⟨answer, hview, hpump⟩ := Checked.bind_eq_ok_iff.1 hpump
  obtain ⟨⟨b, d⟩, hdesk, hput⟩ := Checked.bind_eq_ok_iff.1 hview
  obtain rfl := Except.ok.inj hput
  obtain rfl := Except.ok.inj hpump
  refine hspace.change hs rfl (Desk.pump_inFocus hgrid hdesk) (fun other hother hv => ?_)
    (fun _ hother _ => hother) fun _ _ => rfl
  rw [← hv]
  obtain ⟨-, -, hkeys, -⟩ := hspace.held other hother
  exact hkeys

theorem Holds.closePopup {topic : Topic} {confirmed : Bool} (he : e.Holds hold)
    (hdone : e.closePopup topic confirmed = .ok e') : e'.Holds hold := by
  have hforget : ∀ {t : OpenTab} {v : Nat} {h : Hold}, t.Held v h → t.forgetPending.Held v h :=
    fun ht => ⟨ht.view, ht.keys, ht.grid⟩
  cases hask : topic.canConfirm with
  | false =>
      obtain ⟨error, hclosed⟩ := closePopup_of_not_canConfirm (e := e) hask confirmed
      obtain rfl := Except.ok.inj (hclosed.symm.trans hdone)
      exact he.congr rfl rfl
  | true =>
      rw [closePopup_of_canConfirm hask] at hdone
      obtain ⟨e₁, hfinish, hret⟩ := Checked.bind_eq_ok_iff.1 hdone
      obtain rfl := Except.ok.inj hret
      have hfinished : e₁.Holds hold := by
        rw [← pass_self e hold]
        refine he.inTab (fun {v h t u} ht hop => ?_) hfinish
        split at hop
        · split at hop
          · exact (hforget ht).activate hop
          · obtain rfl := Except.ok.inj hop
            exact hforget ht
        · obtain rfl := Except.ok.inj hop
          exact hforget ht
      exact hfinished.congr rfl rfl

theorem Holds.openPendingPopup (he : e.Holds hold) : e.openPendingPopup.Holds hold := by
  rcases openPendingPopup_cases e with hsame | ⟨-, _, _, topic, text, -, -, hopened⟩
  · exact hsame.symm ▸ he
  · rw [hopened]
    exact he.congr rfl rfl

theorem Holds.popup {s : EditorStep} (he : e.Holds hold) {confirmed : Bool}
    (hverdict : s.verdict? e = some confirmed) (hdone : e.step s = .ok e') : e'.Holds hold := by
  obtain ⟨topic, -, hstep⟩ := EditorStep.step_of_verdict hverdict
  have hshown := he.congr (s.shown_tabs e) (congrArg Workspace.seats (s.shown_space e))
  exact hshown.closePopup (hstep.symm.trans hdone)

/-! ## An editor of one tab -/

variable {tab : Tab} {f : OpenTab → Checked OpenTab}

/-- There is one tab, which is at work on a view. -/
structure Single (tab : Tab) (s : Seat) (e : Editor) : Prop where
  tabs : e.tabs = [tab]
  current : e.current = some 0
  seat : e.space.seat? tab.view = some s

/-- The tab at work. -/
def single (tab : Tab) (s : Seat) (e : Editor) : OpenTab :=
  { tab, desk := e.space.desk s, input := e.input, error := e.error }

theorem Single.inTab (he : e.Single tab s) (hf : f (e.single tab s) = .ok u)
    (hview : u.tab.view = tab.view) :
    ∃ e', e.inTab f = .ok e' ∧ e'.Single u.tab { s with view := u.desk.view } := by
  have hcurrent : e.currentTab? = some (0, tab) := by
    unfold currentTab?
    rw [he.current, he.tabs]
    rfl
  have ht : e.openTab? = some (e.single tab s) := by
    unfold openTab?
    rw [hcurrent]
    change (e.space.seat? tab.view >>= _) = _
    rw [he.seat]
    rfl
  refine ⟨e.putBack u, ?_, ?_⟩
  · rw [inTab_of_some ht, hf]
    rfl
  · unfold putBack
    rw [hcurrent]
    dsimp only
    rw [he.seat, he.tabs]
    refine ⟨rfl, he.current, ?_⟩
    rw [hview]
    exact Workspace.seat?_putBack_self (Workspace.lt_of_seat? he.seat)

end Editor

/-! ## All steps -/

/-- Whether the step tells a view that the keyboard comes or goes, without its tab. -/
def EditorStep.refocuses : EditorStep → Bool
  | .tab s => s.refocuses
  | _ => false

/-- What a step does to the hold on the keyboard. -/
def EditorStep.pass (s : EditorStep) (e : Editor) (hold : Nat → Hold) : Nat → Hold :=
  match s with
  | .tab s => e.pass (fun t h => s.pass t h) hold
  | _ => hold

namespace Editor

variable {e e' : Editor} {hold : Nat → Hold} {s : EditorStep}

theorem Holds.step (he : e.Holds hold) (hs : s.refocuses = false) (hdone : e.step s = .ok e') :
    e'.Holds (s.pass e hold) := by
  cases s with
  | request r => exact he.perform hdone
  | pumpAll => exact he.pumpAll hdone
  | tab s => exact he.inTab (fun ht hop => ht.step hs hop) hdone
  | openPendingPopup =>
      obtain rfl := Except.ok.inj hdone
      exact he.openPendingPopup
  | showError =>
      obtain rfl := Except.ok.inj hdone
      unfold Editor.showError
      split
      · exact he.congr rfl rfl
      · exact he
  | showAbout =>
      obtain rfl := Except.ok.inj hdone
      exact he.congr rfl rfl
  | popupFrame field events input clicked =>
      cases hverdict : (EditorStep.popupFrame field events input clicked).verdict? e with
      | some confirmed => exact he.popup hverdict hdone
      | none =>
          obtain ⟨popup, -, hshown⟩ := EditorStep.step_of_no_verdict hverdict
          obtain rfl := Except.ok.inj (hshown.symm.trans hdone)
          exact he.congr (EditorStep.shown_tabs _ e)
            (congrArg Workspace.seats (EditorStep.shown_space _ e))
  | dismissPopup =>
      cases hverdict : EditorStep.dismissPopup.verdict? e with
      | some confirmed => exact he.popup hverdict hdone
      | none =>
          obtain rfl := Except.ok.inj
            ((EditorStep.dismissPopup_of_no_verdict hverdict).symm.trans hdone)
          exact he

end Editor

/-- An editor, and how the tab on each view stands to the keyboard, as far as the presses and the
field for an address tell. -/
structure KeyboardLog where
  editor : Editor := {}
  hold : Nat → Hold := fun _ => .free

namespace KeyboardLog

/-- The log after a step. -/
def take (d : KeyboardLog) (s : EditorStep) : Checked KeyboardLog := do
  let editor ← d.editor.step s
  return { editor, hold := s.pass d.editor d.hold }

/-- The logs that come about by any steps when nothing has been opened yet.  A view is told of the
keyboard by its tab alone. -/
inductive Reachable : KeyboardLog → Prop
  | start {e : Editor} (h : e.Empty) : Reachable { editor := e }
  | step {d d' : KeyboardLog} {s : EditorStep} (hd : Reachable d) (hs : s.refocuses = false)
      (h : d.take s = .ok d') : Reachable d'

variable {d d' : KeyboardLog} {tab : Tab}

/-- A step of the only tab. -/
theorem Reachable.single {s : TabStep} {seat : Seat} {u : OpenTab} (hd : d.Reachable)
    (he : d.editor.Single tab seat) (hs : s.refocuses = false)
    (hstep : (d.editor.single tab seat).step s = .ok u) (hview : u.tab.view = tab.view) :
    ∃ d' : KeyboardLog, d'.Reachable ∧
      d'.editor.Single u.tab { seat with view := u.desk.view } := by
  obtain ⟨e, hin, he'⟩ := he.inTab (f := (·.step s)) hstep hview
  have htake : d.take (.tab s) = .ok ⟨e, EditorStep.pass (.tab s) d.editor d.hold⟩ := by
    unfold take
    change (d.editor.inTab _ >>= _) = _
    rw [hin]
    rfl
  exact ⟨_, hd.step (s := .tab s) hs htake, he'⟩

end KeyboardLog

end HexEditor
