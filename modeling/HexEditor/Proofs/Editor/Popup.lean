import HexEditor.Proofs.Editor.Step
import HexEditor.Proofs.View.Settling
import Mathlib

/-!
# Closing a popup

A popup that asks for something is opened for the action that waits in the tab at work.  When it is
closed, the action that waits in the tab at work is taken away, which need not be the same tab any
more.  What is carried out then, and where, is `answer?`: it takes its kind from the action that is
taken away, and everything else from the popup.  Closing the popup carries that out, or nothing when
the popup is cancelled (`EditorStep.closes`).
-/

namespace HexEditor

namespace Topic

variable {topic : Topic} {action other : ViewAction}

/-- The popup that an action waits for. -/
def for? : ViewAction → Option Topic
  | .editComment addr => some (.comment addr)
  | .revertSelected => some .confirmRevert
  | _ => none

/-- Whether the action is of the kind that the popup asks about.  A popup for a comment takes the
comment on any patch for its own. -/
def suits (topic : Topic) (action : ViewAction) : Bool := (topic.confirmed? "" action).isSome

theorem isSome_confirmed? (topic : Topic) (text : String) (action : ViewAction) :
    (topic.confirmed? text action).isSome = topic.suits action := by
  cases topic <;> cases action <;> rfl

theorem canConfirm_of_for? (h : for? action = some topic) : topic.canConfirm = true := by
  cases action <;> cases h <;> rfl

theorem suits_of_for? (h : for? action = some topic) : topic.suits action = true := by
  cases action <;> cases h <;> rfl

/-- A popup makes the same of all actions of its kind. -/
theorem confirmed?_congr (text : String) (haction : topic.suits action = true)
    (hother : topic.suits other = true) :
    topic.confirmed? text other = topic.confirmed? text action := by
  cases topic with
  | error => cases haction
  | about => cases haction
  | comment addr =>
      cases action <;> cases haction
      cases other <;> cases hother
      rfl
  | confirmRevert =>
      cases action <;> cases haction
      cases other <;> cases hother
      rfl

end Topic

/-- All that is done with a view is what is done at its desk, and no desk is another one. -/
structure Workspace.Agrees (w w' : Workspace) : Prop where
  seats : w'.seats = w.seats
  desk : ∀ s, w'.desk s = w.desk s

theorem Workspace.agrees_putBack_desk {w : Workspace} {v : Nat} {s : Seat}
    (hs : w.seat? v = some s) : w.Agrees (w.putBack v s (w.desk s)) where
  seats := seats_set_seat hs
  desk t := by
    have hproject : (w.putBack v s (w.desk s)).project t.project = w.project t.project := by
      change (w.setProject s.project (w.project s.project)).project t.project = _
      rw [setProject_project]
    have hgroup : (w.putBack v s (w.desk s)).group t.group = w.group t.group := by
      change (w.setGroup s.group (w.group s.group)).group t.group = _
      by_cases heq : t.group = s.group
      · rw [heq, group_setGroup_self]
      · rw [group_setGroup_of_ne heq]
    unfold Workspace.desk at hproject hgroup ⊢
    rw [hproject, hgroup]
    rfl

namespace Editor

variable {e e' : Editor} {t : OpenTab} {topic : Topic} {confirmed : Bool}

/-! ## Opening a popup for an action -/

/-- A popup is opened, if at all, for the action that waits in the tab at work. -/
theorem openPendingPopup_cases (e : Editor) :
    e.openPendingPopup = e ∨ e.popup.topic = none ∧ ∃ n action topic text,
      e.atWork? = some (n, some action) ∧ Topic.for? action = some topic ∧
        e.openPendingPopup = { e with popup := ⟨some topic, text⟩ } := by
  unfold openPendingPopup atWork?
  split
  · exact .inl rfl
  · next hclosed =>
      have hnone : e.popup.topic = none := Option.not_isSome_iff_eq_none.1 hclosed
      cases ht : e.openTab? with
      | none => exact .inl rfl
      | some t =>
          dsimp only
          split
          · next addr hpending =>
              refine .inr ⟨hnone, t.tab.scrollArea, .editComment addr, .comment addr, _, ?_, rfl,
                rfl⟩
              rw [Option.map_some, Tab.slip, hpending]
          · next hpending =>
              refine .inr ⟨hnone, t.tab.scrollArea, .revertSelected, .confirmRevert, _, ?_, rfl,
                rfl⟩
              rw [Option.map_some, Tab.slip, hpending]
          · exact .inl rfl

/-! ## Carrying out the answer -/

/-- What confirming the popup carries out, behind the number of the tab in which. -/
def answer? (e : Editor) : Option (Nat × ViewAction) :=
  match e.popup.topic, e.atWork? with
  | some topic, some (n, waiting) =>
    (waiting.bind (topic.confirmed? e.popup.text)).map fun action => (n, action)
  | _, _ => none

theorem answer?_eq {n : Nat} {waiting : Option ViewAction} (htopic : e.popup.topic = some topic)
    (hwork : e.atWork? = some (n, waiting)) :
    e.answer? = (waiting.bind (topic.confirmed? e.popup.text)).map fun action => (n, action) := by
  unfold answer?
  rw [htopic, hwork]

theorem exists_of_answer? {n : Nat} {action : ViewAction} (h : e.answer? = some (n, action)) :
    ∃ topic waiting, e.popup.topic = some topic ∧ e.atWork? = some (n, some waiting) ∧
      topic.confirmed? e.popup.text waiting = some action := by
  unfold answer? at h
  split at h
  · next topic m waiting htopic hwork =>
      obtain ⟨answered, hanswered, hpair⟩ := Option.map_eq_some_iff.1 h
      obtain ⟨rfl, rfl⟩ := Prod.mk.inj hpair
      obtain ⟨action, rfl, hconfirmed⟩ := Option.bind_eq_some_iff.1 hanswered
      exact ⟨topic, action, htopic, hwork, hconfirmed⟩
  · cases h

/-- Takes away the action that waits in the tab at work, carries out an action in its place, if
any, and closes the popup. -/
def carryOut (e : Editor) (action : Option ViewAction) : Checked Editor := do
  let e ← e.inTab fun t =>
    match action with
    | some action => t.forgetPending.activate action
    | none => return t.forgetPending
  return { e with popup := {} }

theorem map_snd_answer? (htopic : e.popup.topic = some topic) (ht : e.openTab? = some t) :
    e.answer?.map (·.2) = t.tab.pending.bind (topic.confirmed? e.popup.text) := by
  have hwork : e.atWork? = some (t.tab.scrollArea, t.tab.pending) := by
    unfold atWork?
    rw [ht]
    rfl
  rw [answer?_eq htopic hwork, Option.map_map]
  exact Option.map_id'

theorem closePopup_of_canConfirm (hask : topic.canConfirm = true) (confirmed : Bool) :
    e.closePopup topic confirmed =
      e.finishPending topic confirmed >>= fun e => .ok { e with popup := {} } := by
  cases topic with
  | error => cases hask
  | about => cases hask
  | comment addr => rfl
  | confirmRevert => rfl

/-- A popup that asks for nothing is closed. -/
theorem closePopup_of_not_canConfirm (hask : topic.canConfirm = false) (confirmed : Bool) :
    ∃ error, e.closePopup topic confirmed = .ok { e with error, popup := {} } := by
  cases topic with
  | error => exact ⟨none, rfl⟩
  | about => exact ⟨e.error, rfl⟩
  | comment addr => cases hask
  | confirmRevert => cases hask

/-- A popup that asks for something carries out what it has been answered, or nothing. -/
theorem closePopup_eq (htopic : e.popup.topic = some topic) (hask : topic.canConfirm = true)
    (confirmed : Bool) : e.closePopup topic confirmed =
      e.carryOut (if confirmed then e.answer?.map (·.2) else none) := by
  rw [closePopup_of_canConfirm hask]
  unfold finishPending carryOut
  cases ht : e.openTab? with
  | none =>
      rw [inTab_of_none ht, inTab_of_none ht]
      rfl
  | some t =>
      rw [inTab_of_some ht, inTab_of_some ht, ← map_snd_answer? htopic ht]
      cases confirmed with
      | false => cases e.answer?.map (·.2) <;> rfl
      | true => cases e.answer?.map (·.2) <;> rfl

/-- Only the tab at work changes when a popup is closed: no action waits there any more. -/
theorem carryOut_cases {action : Option ViewAction} (h : e.carryOut action = .ok e') :
    e'.popup = {} ∧ e'.nextScrollArea = e.nextScrollArea ∧
      (e.atWork? = none ∧ e'.tabs = e.tabs ∨
        ∃ t i tab, e.atWork? = some t.slip ∧ e.tabs[i]? = some t ∧
          tab.slip = (t.scrollArea, none) ∧ e'.tabs = e.tabs.set i tab) := by
  obtain ⟨e₁, htab, hret⟩ := Checked.bind_eq_ok_iff.1 h
  obtain rfl := Except.ok.inj hret
  cases ht : e.openTab? with
  | none =>
      rw [inTab_of_none ht] at htab
      obtain rfl := Except.ok.inj htab
      refine ⟨rfl, rfl, .inl ⟨?_, rfl⟩⟩
      unfold atWork?
      rw [ht]
      rfl
  | some t =>
      rw [inTab_of_some ht] at htab
      obtain ⟨u, hop, hput⟩ := Checked.bind_eq_ok_iff.1 htab
      obtain rfl := Except.ok.inj hput
      have hu : u.tab = t.forgetPending.tab := by
        cases action with
        | none =>
            obtain rfl := Except.ok.inj hop
            rfl
        | some action => exact OpenTab.activate_tab hop
      obtain ⟨i, hi, hputs⟩ := exists_putBack ht
      obtain ⟨htabs, -, hnext⟩ := hputs u
      refine ⟨rfl, hnext, .inr ⟨t.tab, i, u.tab, ?_, hi, ?_, htabs⟩⟩
      · unfold atWork?
        rw [ht]
        rfl
      · rw [hu]
        rfl

/-- Carrying out nothing leaves every view as it is. -/
theorem exists_carryOut_none (e : Editor) :
    ∃ e', e.carryOut none = .ok e' ∧ e.space.Agrees e'.space := by
  unfold carryOut
  cases ht : e.openTab? with
  | none =>
      rw [inTab_of_none ht]
      exact ⟨_, rfl, rfl, fun _ => rfl⟩
  | some t =>
      rw [inTab_of_some ht]
      obtain ⟨i, s, hcurrent, -, hs, hdesk⟩ := exists_of_openTab? ht
      refine ⟨_, rfl, ?_⟩
      unfold putBack
      rw [hcurrent]
      dsimp only
      rw [hs]
      change e.space.Agrees (e.space.putBack t.tab.view s t.desk)
      rw [hdesk]
      exact Workspace.agrees_putBack_desk hs

end Editor

/-! ## The steps that close a popup -/

namespace EditorStep

variable {e e' : Editor} {s : EditorStep} {topic : Topic} {confirmed : Bool}

/-- Whether a step closes the popup, and if it does, whether the popup is confirmed. -/
def verdict? (s : EditorStep) (e : Editor) : Option Bool :=
  match s, e.popup.topic with
  | .popupFrame _ _ input clicked, some topic =>
    let confirmed := topic.canConfirm && (clicked || input.enterReleased)
    if confirmed || input.escapePressed then some confirmed else none
  | .dismissPopup, some _ => some false
  | _, _ => none

/-- The editor when the popup has been shown in the step, which may change the text in it. -/
def shown (s : EditorStep) (e : Editor) : Editor :=
  match s with
  | .popupFrame field events input _ => ({ e with input }.showPopupField field events).2
  | _ => e

theorem exists_shown (s : EditorStep) (e : Editor) :
    ∃ input text, s.shown e = { e with input, popup := ⟨e.popup.topic, text⟩ } := by
  cases s with
  | popupFrame field events input clicked =>
      unfold shown Editor.showPopupField
      dsimp only
      split
      · exact ⟨input, _, rfl⟩
      · exact ⟨input, e.popup.text, rfl⟩
  | _ => exact ⟨e.input, e.popup.text, rfl⟩

theorem shown_topic (s : EditorStep) (e : Editor) : (s.shown e).popup.topic = e.popup.topic := by
  obtain ⟨input, text, hshown⟩ := s.exists_shown e
  rw [hshown]

theorem shown_tabs (s : EditorStep) (e : Editor) : (s.shown e).tabs = e.tabs := by
  obtain ⟨input, text, hshown⟩ := s.exists_shown e
  rw [hshown]

theorem shown_space (s : EditorStep) (e : Editor) : (s.shown e).space = e.space := by
  obtain ⟨input, text, hshown⟩ := s.exists_shown e
  rw [hshown]

theorem shown_nextScrollArea (s : EditorStep) (e : Editor) :
    (s.shown e).nextScrollArea = e.nextScrollArea := by
  obtain ⟨input, text, hshown⟩ := s.exists_shown e
  rw [hshown]

theorem shown_atWork? (s : EditorStep) (e : Editor) : (s.shown e).atWork? = e.atWork? := by
  obtain ⟨input, text, hshown⟩ := s.exists_shown e
  rw [hshown]
  unfold Editor.atWork? Editor.openTab?
  change Option.map _ (e.currentTab?.bind _) = Option.map _ (e.currentTab?.bind _)
  cases e.currentTab? with
  | none => rfl
  | some current =>
      change Option.map _ ((e.space.seat? current.2.view).bind _) =
        Option.map _ ((e.space.seat? current.2.view).bind _)
      cases e.space.seat? current.2.view <;> rfl

/-- A step that closes the popup does nothing else once the popup has been shown. -/
theorem step_of_verdict (hverdict : s.verdict? e = some confirmed) :
    ∃ topic, e.popup.topic = some topic ∧
      e.step s = (s.shown e).closePopup topic confirmed := by
  cases htopic : e.popup.topic with
  | none =>
      unfold verdict? at hverdict
      rw [htopic] at hverdict
      cases s <;> cases hverdict
  | some topic =>
      refine ⟨topic, rfl, ?_⟩
      unfold verdict? at hverdict
      rw [htopic] at hverdict
      cases s with
      | popupFrame field events input clicked =>
          have hshown := shown_topic (.popupFrame field events input clicked) e
          unfold Editor.step Editor.showPopup
          unfold shown at hshown ⊢
          dsimp only at hverdict hshown ⊢
          rw [hshown, htopic]
          dsimp only
          split at hverdict
          · next hcloses =>
              obtain rfl := Option.some.inj hverdict
              rw [if_pos hcloses]
              cases Editor.closePopup _ topic _ <;> rfl
          · cases hverdict
      | dismissPopup =>
          obtain rfl := Option.some.inj hverdict
          unfold Editor.step Editor.dismissPopup
          dsimp only
          rw [htopic]
          rfl
      | _ => cases hverdict

/-- The popup stays open in a frame that does not close it. -/
theorem step_of_no_verdict {field : TextField} {events : List InputEvent} {input : FrameInput}
    {clicked : Bool} (hverdict : (popupFrame field events input clicked).verdict? e = none) :
    ∃ popup : Popup, popup.topic = e.popup.topic ∧
      e.step (.popupFrame field events input clicked) =
        .ok { (popupFrame field events input clicked).shown e with popup } := by
  have hshown := shown_topic (.popupFrame field events input clicked) e
  unfold verdict? at hverdict
  unfold Editor.step Editor.showPopup
  unfold shown at hshown ⊢
  dsimp only at hverdict hshown ⊢
  rw [hshown]
  cases htopic : e.popup.topic with
  | none => exact ⟨{}, rfl, rfl⟩
  | some topic =>
      rw [htopic] at hverdict hshown
      dsimp only at hverdict ⊢
      split at hverdict
      · cases hverdict
      · next hopen =>
          rw [if_neg hopen]
          exact ⟨_, hshown, rfl⟩

theorem dismissPopup_of_no_verdict (hverdict : dismissPopup.verdict? e = none) :
    e.step .dismissPopup = .ok e := by
  unfold verdict? at hverdict
  unfold Editor.step Editor.dismissPopup
  cases htopic : e.popup.topic with
  | none => rfl
  | some topic =>
      rw [htopic] at hverdict
      cases hverdict

/-- Only a popup that asks for something can be confirmed. -/
theorem exists_topic_of_confirmed (hverdict : s.verdict? e = some true) :
    ∃ topic, e.popup.topic = some topic ∧ topic.canConfirm = true := by
  unfold verdict? at hverdict
  cases htopic : e.popup.topic with
  | none =>
      rw [htopic] at hverdict
      cases s <;> cases hverdict
  | some topic =>
      rw [htopic] at hverdict
      cases s with
      | popupFrame field events input clicked =>
          dsimp only at hverdict
          split at hverdict
          · have hconfirmed := Option.some.inj hverdict
            exact ⟨topic, rfl, (Bool.and_eq_true_iff.1 hconfirmed).1⟩
          · cases hverdict
      | dismissPopup => cases hverdict
      | _ => cases hverdict

/-- A popup that asks for something is closed by carrying out what confirming it stands for, or by
carrying out nothing. -/
theorem closes (hverdict : s.verdict? e = some confirmed) (htopic : e.popup.topic = some topic)
    (hask : topic.canConfirm = true) : e.step s =
      (s.shown e).carryOut (if confirmed then (s.shown e).answer?.map (·.2) else none) := by
  obtain ⟨topic', htopic', hstep⟩ := step_of_verdict hverdict
  obtain rfl := Option.some.inj (htopic'.symm.trans htopic)
  rw [hstep, Editor.closePopup_eq ((shown_topic s e).trans htopic) hask]

/-- A popup that is cancelled carries out nothing. -/
theorem exists_cancelled (hverdict : s.verdict? e = some false) :
    ∃ e', e.step s = .ok e' ∧ e.space.Agrees e'.space := by
  obtain ⟨topic, htopic, hclose⟩ := step_of_verdict hverdict
  cases hask : topic.canConfirm with
  | true =>
      rw [closes hverdict htopic hask, if_neg nofun, ← s.shown_space e]
      exact (s.shown e).exists_carryOut_none
  | false =>
      obtain ⟨error, hret⟩ := Editor.closePopup_of_not_canConfirm (e := s.shown e) hask false
      rw [hclose, hret, ← s.shown_space e]
      exact ⟨_, rfl, rfl, fun _ => rfl⟩

end EditorStep

end HexEditor
