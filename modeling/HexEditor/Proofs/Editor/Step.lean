import HexEditor.Editor.Step
import HexEditor.Proofs.Editor.Tabs
import Mathlib

/-!
# What a step does to the actions that wait

An action waits in the tab in which it was chosen, and every tab has a number of its own.  Of all
that can happen to a tab at work only choosing an action lets it wait (`OpenTab.step_slip`), so the
tabs change in few ways: a request opens or closes one at most, a step of a tab changes the current
one, and what is about the popup leaves them alone, until the popup is closed.
-/

namespace HexEditor

/-- Where no two elements have the same key, those that are left when one has been replaced have
other keys. -/
theorem mem_set_of_nodup {α β : Type} {f : α → β} {l : List α} {i : Nat} {a old new : α}
    (hnodup : (l.map f).Nodup) (hi : l[i]? = some old) (ha : a ∈ l.set i new) :
    a = new ∨ a ∈ l ∧ f a ≠ f old := by
  obtain ⟨hlt, hold⟩ := List.getElem?_eq_some_iff.1 hi
  obtain ⟨j, hj, rfl⟩ := List.getElem_of_mem ha
  rw [List.length_set] at hj
  by_cases hij : i = j
  · subst hij
    exact .inl (List.getElem_set_self _)
  · rw [List.getElem_set_ne hij]
    refine .inr ⟨List.getElem_mem hj, fun heq => hij ?_⟩
    have hplaces : (l.map f)[i]? = (l.map f)[j]? := by
      rw [List.getElem?_map, List.getElem?_map, hi, List.getElem?_eq_getElem hj]
      exact congrArg some heq.symm
    rw [← List.length_map f] at hlt
    exact (List.getElem?_inj hlt hnodup).1 hplaces

/-- The number of a tab with the action that waits in it. -/
def Tab.slip (tab : Tab) : Nat × Option ViewAction := (tab.scrollArea, tab.pending)

/-- The action that a step lets wait. -/
def TabStep.parked? : TabStep → Option ViewAction
  | .act action => if action.needsInput || action.needsConfirmation then some action else none
  | _ => none

namespace OpenTab

variable {α : Type} {t u : OpenTab} {slip : Nat × Option ViewAction}

/-! ## A tab at work -/

theorem onDesk_tab {op : Desk → Checked (α × Desk)} {answer : α}
    (h : t.onDesk op = .ok (answer, u)) : u.tab = t.tab := by
  obtain ⟨⟨answer, desk⟩, -, hret⟩ := Checked.bind_eq_ok_iff.1 h
  obtain ⟨-, rfl⟩ := Prod.mk.inj (Except.ok.inj hret)
  rfl

theorem within_tab {op : Desk → Checked (α × Desk)} (h : t.within op = .ok u) : u.tab = t.tab := by
  obtain ⟨⟨answer, u'⟩, hdesk, hret⟩ := Checked.bind_eq_ok_iff.1 h
  obtain rfl := Except.ok.inj hret
  exact onDesk_tab hdesk

theorem report_tab (t : OpenTab) (result : Except PatchError Unit) :
    (t.report result).tab = t.tab := by
  cases result <;> rfl

theorem activate_tab {action : ViewAction} (h : t.activate action = .ok u) : u.tab = t.tab := by
  obtain ⟨⟨result, u'⟩, hdesk, hret⟩ := Checked.bind_eq_ok_iff.1 h
  obtain rfl := Except.ok.inj hret
  rw [report_tab, onDesk_tab hdesk]

theorem jump_tab (h : t.jump = .ok u) : u.tab = t.tab := by
  unfold jump at h
  split at h
  · obtain rfl := Except.ok.inj h
    rfl
  · obtain ⟨⟨isShown, u'⟩, hdesk, hret⟩ := Checked.bind_eq_ok_iff.1 h
    dsimp only at hret
    split at hret
    · obtain rfl := Except.ok.inj hret
      exact onDesk_tab hdesk
    · obtain rfl := Except.ok.inj hret
      have hkept := onDesk_tab hdesk
      exact hkept

/-- The outcome, if there is one, is a tab with this slip. -/
def Leaves (slip : Nat × Option ViewAction) (x : Checked OpenTab) : Prop :=
  ∀ u, x = .ok u → u.tab.slip = slip

theorem leaves_pure (ht : t.tab.slip = slip) : Leaves slip (pure t) := by
  intro u h
  obtain rfl := Except.ok.inj h
  exact ht

theorem leaves_within {op : Desk → Checked (α × Desk)} (ht : t.tab.slip = slip) :
    Leaves slip (t.within op) := by
  intro u h
  rw [within_tab h]
  exact ht

theorem Leaves.bind {x : Checked OpenTab} {f : OpenTab → Checked OpenTab} (hx : Leaves slip x)
    (hf : ∀ u, u.tab.slip = slip → Leaves slip (f u)) : Leaves slip (x >>= f) := by
  intro v h
  obtain ⟨u, hu, hv⟩ := Checked.bind_eq_ok_iff.1 h
  exact hf u (hx u hu) v hv

theorem takeFocus_slip (t : OpenTab) : t.takeFocus.tab.slip = t.tab.slip := by
  unfold takeFocus
  split <;> rfl

theorem pressed_leaves (ht : t.tab.slip = slip) (frame : Rect) (c : Canvas) (p : Point) :
    Leaves slip (t.pressed frame c p) := by
  unfold pressed
  split
  · apply leaves_within
    exact (takeFocus_slip t).trans ht
  · split
    · exact leaves_pure ht
    · exact leaves_pure ht

theorem handlePress_leaves (ht : t.tab.slip = slip) (frame : Rect) (c : Canvas) :
    Leaves slip (t.handlePress frame c) := by
  unfold handlePress
  split
  · split
    · exact pressed_leaves ht _ _ _
    · exact leaves_pure ht
  · exact leaves_pure ht

theorem handleDrag_leaves (ht : t.tab.slip = slip) (c : Canvas) :
    Leaves slip (t.handleDrag c) := by
  unfold handleDrag
  split
  · split
    · exact leaves_within ht
    · exact leaves_pure ht
  · exact leaves_pure ht

theorem handleRelease_slip (t : OpenTab) : t.handleRelease.tab.slip = t.tab.slip := by
  unfold handleRelease
  split <;> rfl

theorem handleDoubleClick_leaves (ht : t.tab.slip = slip) (frame : Rect) :
    Leaves slip (t.handleDoubleClick frame) := by
  unfold handleDoubleClick
  split
  · exact leaves_within ht
  · exact leaves_pure ht

theorem handleSecondaryClick_leaves (ht : t.tab.slip = slip) (frame : Rect) (c : Canvas) :
    Leaves slip (t.handleSecondaryClick frame c) := by
  unfold handleSecondaryClick
  split
  · split
    · exact (leaves_within ht).bind fun u hu => leaves_pure hu
    · exact leaves_pure ht
  · exact leaves_pure ht

theorem handlePointer_leaves (ht : t.tab.slip = slip) (frame : Rect) (c : Canvas) :
    Leaves slip (t.handlePointer frame c) := by
  unfold handlePointer
  apply (handlePress_leaves ht frame c).bind
  intro t₁ h₁
  apply (handleDrag_leaves h₁ c).bind
  intro t₂ h₂
  apply (handleDoubleClick_leaves ((handleRelease_slip t₂).trans h₂) frame).bind
  intro t₃ h₃
  exact handleSecondaryClick_leaves h₃ frame c

theorem handleKeys_tab (h : t.handleKeys = .ok u) : u.tab = t.tab := by
  unfold handleKeys at h
  generalize t.input.keys = keys at h
  induction keys generalizing t with
  | nil =>
      obtain rfl := Except.ok.inj h
      rfl
  | cons k keys ih =>
      obtain ⟨t', hkey, hkeys⟩ := Checked.bind_eq_ok_iff.1 h
      rw [ih hkeys, within_tab hkey]

theorem handleCopy_tab {copied : List String} (h : t.handleCopy = .ok (copied, u)) :
    u.tab = t.tab := by
  unfold handleCopy at h
  split at h
  · obtain ⟨⟨count, t'⟩, hdesk, hret⟩ := Checked.bind_eq_ok_iff.1 h
    dsimp only at hret
    split at hret
    · obtain ⟨-, rfl⟩ := Prod.mk.inj (Except.ok.inj hret)
      exact onDesk_tab hdesk
    · obtain ⟨-, rfl⟩ := Prod.mk.inj (Except.ok.inj hret)
      exact onDesk_tab hdesk
  · obtain ⟨-, rfl⟩ := Prod.mk.inj (Except.ok.inj h)
    rfl

theorem handlePaste_tab (h : t.handlePaste = .ok u) : u.tab = t.tab := by
  unfold handlePaste at h
  split at h
  · obtain ⟨⟨result, u'⟩, hdesk, hret⟩ := Checked.bind_eq_ok_iff.1 h
    obtain rfl := Except.ok.inj hret
    rw [report_tab, onDesk_tab hdesk]
  · obtain rfl := Except.ok.inj h
    rfl

theorem handleEscape_tab (h : t.handleEscape = .ok u) : u.tab = t.tab := by
  unfold handleEscape at h
  split at h
  · exact within_tab h
  · obtain rfl := Except.ok.inj h
    rfl

theorem handleInput_slip {frame : Rect} {topRow : Nat} {copied : List String}
    (h : t.handleInput frame topRow = .ok (copied, u)) : u.tab.slip = t.tab.slip := by
  obtain ⟨t₁, hpointer, h⟩ := Checked.bind_eq_ok_iff.1 h
  have h₁ : t₁.tab.slip = t.tab.slip := handlePointer_leaves rfl _ _ t₁ hpointer
  split at h
  · obtain ⟨-, rfl⟩ := Prod.mk.inj (Except.ok.inj h)
    exact h₁
  · obtain ⟨t₂, hkeys, h⟩ := Checked.bind_eq_ok_iff.1 h
    obtain ⟨⟨texts, t₃⟩, hcopy, h⟩ := Checked.bind_eq_ok_iff.1 h
    obtain ⟨t₄, hpaste, h⟩ := Checked.bind_eq_ok_iff.1 h
    obtain ⟨t₅, hescape, hret⟩ := Checked.bind_eq_ok_iff.1 h
    obtain ⟨-, rfl⟩ := Prod.mk.inj (Except.ok.inj hret)
    calc t₅.tab.slip
        = t₄.tab.slip := by rw [handleEscape_tab hescape]
      _ = t₃.tab.slip := by rw [handlePaste_tab hpaste]
      _ = t₂.tab.slip := by rw [handleCopy_tab hcopy]
      _ = t₁.tab.slip := by rw [handleKeys_tab hkeys]
      _ = t.tab.slip := h₁

theorem showJumpField_slip {hasKeyboard : Bool} (h : t.showJumpField hasKeyboard = .ok u) :
    u.tab.slip = t.tab.slip := by
  unfold showJumpField at h
  dsimp only at h
  split at h
  · split at h
    · rw [jump_tab h]
      rfl
    · obtain rfl := Except.ok.inj h
      rfl
  · split at h
    · rw [jump_tab h]
      rfl
    · obtain rfl := Except.ok.inj h
      rfl

theorem followRow?_slip (t : OpenTab) : t.followRow?.2.tab.slip = t.tab.slip := by
  unfold followRow?
  dsimp only
  split <;> rfl

/-- A step keeps the number of the tab.  If it lets an action wait, that is the one that waits
afterwards, else the one that has waited before. -/
theorem step_slip {s : TabStep} (h : t.step s = .ok u) :
    u.tab.slip = (t.tab.scrollArea, s.parked?.or t.tab.pending) := by
  cases s with
  | act action =>
      unfold step runAction at h
      dsimp only at h
      unfold TabStep.parked?
      dsimp only
      split at h
      · next hwaits =>
          obtain rfl := Except.ok.inj h
          rw [if_pos hwaits]
          rfl
      · next hwaits =>
          rw [activate_tab h, if_neg hwaits]
          rfl
  | view r =>
      obtain ⟨desk, -, hret⟩ := Checked.bind_eq_ok_iff.1 h
      obtain rfl := Except.ok.inj hret
      rfl
  | setMetrics metrics =>
      obtain rfl := Except.ok.inj h
      rfl
  | follow =>
      obtain rfl := Except.ok.inj h
      exact followRow?_slip t
  | jumpField text hasKeyboard input =>
      have hslip := showJumpField_slip h
      exact hslip
  | canvas frame topRow input =>
      obtain ⟨⟨copied, u'⟩, hinput, hret⟩ := Checked.bind_eq_ok_iff.1 h
      obtain rfl := Except.ok.inj hret
      have hslip := handleInput_slip hinput
      exact hslip

end OpenTab

namespace Editor

variable {e e' : Editor} {t : OpenTab} {r : EditorRequest} {topic : Topic} {confirmed : Bool}

/-- The numbers of the tabs with the actions that wait in them. -/
def slips (e : Editor) : List (Nat × Option ViewAction) := e.tabs.map Tab.slip

/-! ## The current tab -/

theorem exists_of_openTab? (ht : e.openTab? = some t) :
    ∃ i s, e.currentTab? = some (i, t.tab) ∧ e.tabs[i]? = some t.tab ∧
      e.space.seat? t.tab.view = some s ∧ t.desk = e.space.desk s := by
  obtain ⟨⟨i, tab⟩, hcurrent, ht⟩ := Option.bind_eq_some_iff.1 ht
  obtain ⟨s, hs, ht⟩ := Option.bind_eq_some_iff.1 ht
  obtain rfl := Option.some.inj ht
  obtain ⟨j, -, hget⟩ := Option.bind_eq_some_iff.1 hcurrent
  obtain ⟨tab', htab, hpair⟩ := Option.bind_eq_some_iff.1 hget
  obtain ⟨rfl, rfl⟩ := Prod.mk.inj (Option.some.inj hpair)
  exact ⟨_, s, hcurrent, htab, hs, rfl⟩

/-- A tab that is put back takes the place of the current one. -/
theorem exists_putBack (ht : e.openTab? = some t) :
    ∃ i, e.tabs[i]? = some t.tab ∧
      ∀ u, (e.putBack u).tabs = e.tabs.set i u.tab ∧ (e.putBack u).popup = e.popup ∧
        (e.putBack u).nextScrollArea = e.nextScrollArea := by
  obtain ⟨i, s, hcurrent, htab, -, -⟩ := exists_of_openTab? ht
  refine ⟨i, htab, fun u => ?_⟩
  unfold putBack
  rw [hcurrent]
  exact ⟨rfl, rfl, rfl⟩

theorem getElem?_slips {i : Nat} {tab : Tab} (htab : e.tabs[i]? = some tab) :
    e.slips[i]? = some tab.slip := by
  unfold slips
  rw [List.getElem?_map, htab]
  rfl

/-- The number of the tab at work, with the action that waits in it. -/
def atWork? (e : Editor) : Option (Nat × Option ViewAction) := e.openTab?.map (·.tab.slip)

theorem inTab_of_none {op : OpenTab → Checked OpenTab} (ht : e.openTab? = none) :
    e.inTab op = .ok e := by
  unfold inTab
  rw [ht]
  rfl

theorem inTab_of_some {op : OpenTab → Checked OpenTab} (ht : e.openTab? = some t) :
    e.inTab op = op t >>= fun u => .ok (e.putBack u) := by
  unfold inTab
  rw [ht]
  rfl

/-! ## Requests -/

theorem addTab_slips {title path : String} {project group : Nat}
    (h : e.addTab title path project group = .ok e') :
    e'.slips = e.slips ++ [(e.nextScrollArea, none)] ∧
      e'.nextScrollArea = e.nextScrollArea + 1 ∧ e'.popup = e.popup := by
  obtain ⟨⟨view, space⟩, -, hret⟩ := Checked.bind_eq_ok_iff.1 h
  obtain rfl := Except.ok.inj hret
  exact ⟨List.map_append, rfl, rfl⟩

/-- The tabs of `e'` are some of those of `e`, or there is a new one, in which nothing waits. -/
def Follows (e e' : Editor) : Prop :=
  e'.slips.Sublist e.slips ∧ e'.nextScrollArea = e.nextScrollArea ∨
    e'.slips = e.slips ++ [(e.nextScrollArea, none)] ∧ e'.nextScrollArea = e.nextScrollArea + 1

theorem load_follows {disk : Disk} {path : String} (h : e.load disk path = .ok e') :
    e.Follows e' ∧ e'.popup = e.popup := by
  by_cases hopen : ∃ tab ∈ e.tabs, Disk.samePath path tab.path = true
  · obtain ⟨i, -, -, -, -, hload⟩ := load_of_open disk hopen
    obtain rfl := Except.ok.inj (hload.symm.trans h)
    exact ⟨.inl ⟨.refl _, rfl⟩, rfl⟩
  · rcases load_of_not_open disk hopen with ⟨error, hload⟩ | ⟨-, bytes, -, -, hload⟩
    · obtain rfl := Except.ok.inj (hload.symm.trans h)
      exact ⟨.inl ⟨.refl _, rfl⟩, rfl⟩
    · rw [hload] at h
      obtain ⟨items, -, htab⟩ := Checked.bind_eq_ok_iff.1 h
      obtain ⟨hslips, hnext, hpopup⟩ := addTab_slips htab
      exact ⟨.inr ⟨hslips, hnext⟩, hpopup⟩

theorem openSynchronizedView_follows (h : e.openSynchronizedView = .ok e') :
    e.Follows e' ∧ e'.popup = e.popup := by
  unfold openSynchronizedView at h
  split at h
  · obtain rfl := Except.ok.inj h
    exact ⟨.inl ⟨.refl _, rfl⟩, rfl⟩
  · split at h
    · obtain rfl := Except.ok.inj h
      exact ⟨.inl ⟨.refl _, rfl⟩, rfl⟩
    · split at h
      · obtain rfl := Except.ok.inj h
        exact ⟨.inl ⟨.refl _, rfl⟩, rfl⟩
      · obtain ⟨hslips, hnext, hpopup⟩ := addTab_slips h
        exact ⟨.inr ⟨hslips, hnext⟩, hpopup⟩

theorem perform_follows (h : e.perform r = .ok e') : e.Follows e' ∧ e'.popup = e.popup := by
  cases r with
  | load disk path => exact load_follows h
  | openSynchronizedView => exact openSynchronizedView_follows h
  | closeTab i =>
      obtain rfl := Except.ok.inj h
      have hsub : (e.tabs.eraseIdx i).Sublist e.tabs := List.eraseIdx_sublist _ _
      exact ⟨.inl ⟨hsub.map _, rfl⟩, rfl⟩
  | selectTab i =>
      obtain rfl := Except.ok.inj h
      exact ⟨.inl ⟨.refl _, rfl⟩, rfl⟩

/-- A step in the tab at work leaves all other tabs alone, and the popup. -/
theorem inTab_step_cases {s : TabStep} (h : e.inTab (·.step s) = .ok e') :
    e'.popup = e.popup ∧ e'.nextScrollArea = e.nextScrollArea ∧
      (e.atWork? = none ∧ e'.slips = e.slips ∨
        ∃ n waiting i, e.atWork? = some (n, waiting) ∧ e.slips[i]? = some (n, waiting) ∧
          e'.slips = e.slips.set i (n, s.parked?.or waiting)) := by
  cases ht : e.openTab? with
  | none =>
      rw [inTab_of_none ht] at h
      obtain rfl := Except.ok.inj h
      refine ⟨rfl, rfl, .inl ⟨?_, rfl⟩⟩
      unfold atWork?
      rw [ht]
      rfl
  | some t =>
      rw [inTab_of_some ht] at h
      obtain ⟨u, hstep, hret⟩ := Checked.bind_eq_ok_iff.1 h
      obtain rfl := Except.ok.inj hret
      obtain ⟨i, htab, hput⟩ := exists_putBack ht
      obtain ⟨htabs, hpopup, hnext⟩ := hput u
      refine ⟨hpopup, hnext, .inr ⟨_, _, i, ?_, getElem?_slips htab, ?_⟩⟩
      · unfold atWork?
        rw [ht]
        rfl
      · calc (e.putBack u).slips
            = e.slips.set i u.tab.slip := by
              unfold slips
              rw [htabs, List.map_set]
          _ = e.slips.set i (t.tab.scrollArea, s.parked?.or t.tab.pending) := by
              rw [OpenTab.step_slip hstep]

end Editor

end HexEditor
