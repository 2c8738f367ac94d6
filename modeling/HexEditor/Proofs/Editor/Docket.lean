import HexEditor.Proofs.Editor.Popup
import Mathlib

/-!
# What becomes of an action that waits

Every action that a tab lets wait is given a ticket, and a docket is kept beside the editor: which
ticket waits in each tab, for which the popup was opened last, and which have been taken away and
carried out.  In all that can happen the docket and the tabs agree on what waits (`Tallied`), and a
ticket that has been taken away does not come back (`Spent`), so no action is carried out twice.

The popup knows of an action, but not in which tab it waits.  It is opened for the tab at work and
answered to the tab at work, and another tab may have come to be at work in between, or the tab may
have let another action wait.  `confirmed_fulfils_iff` says exactly when a confirmed popup does what
it was opened for.
-/

namespace HexEditor

/-- An action that has been let wait in the tab with a number.  No two tickets have the same serial
number. -/
structure Ticket where
  serial : Nat
  tab : Nat
  action : ViewAction
  deriving DecidableEq, Repr

/-- An editor, and what has become of the actions that waited in it. -/
structure Docket where
  editor : Editor := {}
  issued : Nat := 0
  /-- The ticket that waits in the tab with a number. -/
  waiting : Nat → Option Ticket := fun _ => none
  /-- The ticket for which a popup was opened last. -/
  asking : Option Ticket := none
  /-- The tickets that have been taken away when a popup was confirmed, to be carried out. -/
  carriedOut : List Ticket := []

namespace Docket

/-- Gives a ticket to an action that is let wait. -/
def park (d : Docket) (n : Nat) (action : ViewAction) : Docket :=
  { d with
    issued := d.issued + 1
    waiting := Function.update d.waiting n (some ⟨d.issued, n, action⟩) }

/-- Takes away what waits in the tab at work of an editor. -/
def settle (d : Docket) (e : Editor) (confirmed : Bool) : Docket :=
  match e.atWork? with
  | none => d
  | some (n, _) =>
    { d with
      waiting := Function.update d.waiting n none
      carriedOut :=
        if confirmed && e.answer?.isSome then d.carriedOut ++ (d.waiting n).toList
        else d.carriedOut }

/-- What is entered for a step that does not close a popup. -/
def note (d : Docket) : EditorStep → Docket
  | .tab s =>
    match d.editor.atWork?, s.parked? with
    | some (n, _), some action => d.park n action
    | _, _ => d
  | .openPendingPopup =>
    if d.editor.popup.topic.isSome then d
    else { d with asking := d.editor.atWork?.bind fun slip => d.waiting slip.1 }
  | _ => d

/-- What is entered for a step. -/
def enter (d : Docket) (s : EditorStep) : Docket :=
  match s.verdict? d.editor with
  | some confirmed =>
    if d.editor.popup.topic.any (·.canConfirm) then d.settle (s.shown d.editor) confirmed else d
  | none => d.note s

/-- The docket after a step. -/
def take (d : Docket) (s : EditorStep) : Checked Docket := do
  let editor ← d.editor.step s
  return { d.enter s with editor }

/-- The dockets that come about by any steps when nothing has been opened yet. -/
inductive Reachable : Docket → Prop
  | start {e : Editor} (h : e.Empty) (hpopup : e.popup.topic = none) : Reachable { editor := e }
  | step {d d' : Docket} {s : EditorStep} (hd : Reachable d) (h : d.take s = .ok d') : Reachable d'

variable {d d' : Docket} {e : Editor} {s : EditorStep}
  {slips slips' : List (Nat × Option ViewAction)} {next i n issued : Nat}
  {waiting : Nat → Option Ticket} {carriedOut : List Ticket} {k : Ticket} {topic : Topic}
  {action : ViewAction} {confirmed : Bool}

/-! ## The docket and the tabs -/

/-- The tabs have numbers of their own, and what waits in them is what the docket says. -/
structure Tallied (slips : List (Nat × Option ViewAction)) (next : Nat)
    (waiting : Nat → Option Ticket) : Prop where
  numbers : (slips.map (·.1)).Nodup
  number_lt : ∀ slip ∈ slips, slip.1 < next
  waits : ∀ slip ∈ slips, slip.2 = (waiting slip.1).map (·.action)
  owner : ∀ n k, waiting n = some k → k.tab = n ∧ n < next

theorem Tallied.sublist (h : Tallied slips next waiting) (hsub : slips'.Sublist slips) :
    Tallied slips' next waiting where
  numbers := h.numbers.sublist (hsub.map _)
  number_lt slip hslip := h.number_lt slip (hsub.subset hslip)
  waits slip hslip := h.waits slip (hsub.subset hslip)
  owner := h.owner

/-- Nothing waits in a new tab, whose number no other one has had. -/
theorem Tallied.append (h : Tallied slips next waiting) :
    Tallied (slips ++ [(next, none)]) (next + 1) waiting where
  numbers := by
    rw [List.map_append]
    refine List.nodup_append.2 ⟨h.numbers, List.nodup_singleton _, ?_⟩
    intro a ha b hb
    obtain ⟨slip, hslip, rfl⟩ := List.mem_map.1 ha
    rw [List.mem_singleton.1 hb]
    exact (h.number_lt slip hslip).ne
  number_lt slip hslip := by
    rcases List.mem_append.1 hslip with hslip | hslip
    · exact Nat.lt_succ_of_lt (h.number_lt slip hslip)
    · rw [List.mem_singleton.1 hslip]
      exact Nat.lt_succ_self next
  waits slip hslip := by
    rcases List.mem_append.1 hslip with hslip | hslip
    · exact h.waits slip hslip
    · rw [List.mem_singleton.1 hslip]
      cases hnext : waiting next with
      | none => rfl
      | some k => exact absurd (h.owner next k hnext).2 (Nat.lt_irrefl next)
  owner n k hk := ⟨(h.owner n k hk).1, Nat.lt_succ_of_lt (h.owner n k hk).2⟩

/-- What waits in a tab is changed in the docket as well. -/
theorem Tallied.set {old : Option ViewAction} (h : Tallied slips next waiting)
    (hi : slips[i]? = some (n, old)) (ticket : Option Ticket) (howner : ∀ k ∈ ticket, k.tab = n) :
    Tallied (slips.set i (n, ticket.map (·.action))) next (Function.update waiting n ticket) where
  numbers := by
    have hn : (slips.map (·.1))[i]? = some n := by
      rw [List.getElem?_map, hi]
      rfl
    rw [List.map_set, set_of_getElem? hn]
    exact h.numbers
  number_lt slip hslip := by
    rcases mem_set_of_nodup h.numbers hi hslip with rfl | ⟨hold, -⟩
    · exact h.number_lt (n, old) (List.mem_of_getElem? hi)
    · exact h.number_lt slip hold
  waits slip hslip := by
    rcases mem_set_of_nodup h.numbers hi hslip with rfl | ⟨hold, hne⟩
    · rw [Function.update_self]
    · rw [Function.update_of_ne hne]
      exact h.waits slip hold
  owner m k hk := by
    by_cases hm : m = n
    · subst hm
      rw [Function.update_self] at hk
      exact ⟨howner k hk, h.number_lt (m, old) (List.mem_of_getElem? hi)⟩
    · rw [Function.update_of_ne hm] at hk
      exact h.owner m k hk

/-! ## Tickets that have been taken away -/

/-- No ticket that has been carried out waits any more, or is issued again. -/
structure Spent (issued : Nat) (waiting : Nat → Option Ticket) (carriedOut : List Ticket) :
    Prop where
  waiting_lt : ∀ n k, waiting n = some k → k.serial < issued ∧ k ∉ carriedOut
  carriedOut_lt : ∀ k ∈ carriedOut, k.serial < issued
  once : carriedOut.Nodup

theorem Spent.park (h : Spent issued waiting carriedOut) (n : Nat) (action : ViewAction) :
    Spent (issued + 1) (Function.update waiting n (some ⟨issued, n, action⟩)) carriedOut where
  waiting_lt m k hk := by
    by_cases hm : m = n
    · subst hm
      rw [Function.update_self] at hk
      obtain rfl := Option.some.inj hk
      exact ⟨Nat.lt_succ_self issued, fun hmem => Nat.lt_irrefl issued (h.carriedOut_lt _ hmem)⟩
    · rw [Function.update_of_ne hm] at hk
      obtain ⟨hlt, hnot⟩ := h.waiting_lt m k hk
      exact ⟨Nat.lt_succ_of_lt hlt, hnot⟩
  carriedOut_lt k hk := Nat.lt_succ_of_lt (h.carriedOut_lt k hk)
  once := h.once

theorem Spent.forget (h : Spent issued waiting carriedOut) (n : Nat) :
    Spent issued (Function.update waiting n none) carriedOut where
  waiting_lt m k hk := by
    by_cases hm : m = n
    · subst hm
      rw [Function.update_self] at hk
      cases hk
    · rw [Function.update_of_ne hm] at hk
      exact h.waiting_lt m k hk
  carriedOut_lt := h.carriedOut_lt
  once := h.once

/-- A ticket is taken away when it is carried out, and it has waited in one tab only. -/
theorem Spent.carryOut (h : Spent issued waiting carriedOut)
    (howner : ∀ n k, waiting n = some k → k.tab = n) (n : Nat) :
    Spent issued (Function.update waiting n none) (carriedOut ++ (waiting n).toList) := by
  cases hn : waiting n with
  | none =>
      rw [Option.toList_none, List.append_nil]
      exact h.forget n
  | some k =>
      obtain ⟨hlt, hnot⟩ := h.waiting_lt n k hn
      refine ⟨fun m j hj => ?_, fun j hj => ?_, ?_⟩
      · by_cases hm : m = n
        · subst hm
          rw [Function.update_self] at hj
          cases hj
        · rw [Function.update_of_ne hm] at hj
          obtain ⟨hj_lt, hj_not⟩ := h.waiting_lt m j hj
          refine ⟨hj_lt, fun hmem => ?_⟩
          rcases List.mem_append.1 hmem with hmem | hmem
          · exact hj_not hmem
          · obtain rfl := List.mem_singleton.1 hmem
            exact hm ((howner m j hj).symm.trans (howner n j hn))
      · rcases List.mem_append.1 hj with hj | hj
        · exact h.carriedOut_lt j hj
        · rw [List.mem_singleton.1 hj]
          exact hlt
      · refine List.nodup_append.2 ⟨h.once, List.nodup_singleton k, ?_⟩
        rintro a ha b hb rfl
        rw [List.mem_singleton.1 hb] at ha
        exact hnot ha

/-! ## What every step keeps -/

/-- The popup asks for the ticket for which it was opened. -/
def Asks (d : Docket) (topic : Topic) : Prop :=
  ∃ k, d.asking = some k ∧ Topic.for? k.action = some topic

structure Kept (d : Docket) : Prop where
  tallied : Tallied d.editor.slips d.editor.nextScrollArea d.waiting
  spent : Spent d.issued d.waiting d.carriedOut
  asks : ∀ topic, d.editor.popup.topic = some topic → topic.canConfirm = true → d.Asks topic

theorem kept_of_empty (h : e.Empty) (hpopup : e.popup.topic = none) : Kept { editor := e } := by
  have hslips : e.slips = [] := by
    unfold Editor.slips
    rw [h.tabs]
    rfl
  refine ⟨?_, ⟨nofun, nofun, List.nodup_nil⟩, fun topic htopic => ?_⟩
  · dsimp only
    rw [hslips]
    exact ⟨List.nodup_nil, nofun, nofun, nofun⟩
  · cases hpopup.symm.trans htopic

/-- The docket is not concerned with how the editor is otherwise. -/
theorem Kept.of_editor (h : d.Kept) (hslips : e.slips = d.editor.slips)
    (hnext : e.nextScrollArea = d.editor.nextScrollArea)
    (hasks : ∀ topic, e.popup.topic = some topic → topic.canConfirm = true → d.Asks topic) :
    Kept { d with editor := e } := by
  refine ⟨?_, h.spent, hasks⟩
  dsimp only
  rw [hslips, hnext]
  exact h.tallied

theorem Kept.follows (h : d.Kept) (hfollows : d.editor.Follows e)
    (hpopup : e.popup = d.editor.popup) : Kept { d with editor := e } := by
  refine ⟨?_, h.spent, ?_⟩
  · dsimp only
    rcases hfollows with ⟨hslips, hnext⟩ | ⟨hslips, hnext⟩
    · rw [hnext]
      exact h.tallied.sublist hslips
    · rw [hslips, hnext]
      exact h.tallied.append
  · dsimp only
    rw [hpopup]
    exact h.asks

/-- What waits in the tab at work is what its ticket is for. -/
theorem Kept.ticket (h : d.Kept) (hwork : d.editor.atWork? = some (n, some action)) :
    ∃ k, d.waiting n = some k ∧ k.tab = n ∧ k.action = action := by
  obtain ⟨t, ht, hslip⟩ := Option.map_eq_some_iff.1 hwork
  obtain ⟨i, htab, -⟩ := Editor.exists_putBack ht
  have hmem : (n, some action) ∈ d.editor.slips :=
    hslip ▸ List.mem_of_getElem? (Editor.getElem?_slips htab)
  obtain ⟨k, hk, haction⟩ := Option.map_eq_some_iff.1 (h.tallied.waits _ hmem).symm
  exact ⟨k, hk, (h.tallied.owner n k hk).1, haction⟩

/-- A step in the tab at work may let an action wait there. -/
theorem Kept.tab {s : TabStep} (h : d.Kept) (hstep : d.editor.inTab (·.step s) = .ok e) :
    Kept { d.note (.tab s) with editor := e } := by
  obtain ⟨hpopup, hnext, hcases⟩ := Editor.inTab_step_cases hstep
  have hasks : ∀ topic, e.popup.topic = some topic → topic.canConfirm = true → d.Asks topic := by
    rw [hpopup]
    exact h.asks
  unfold note
  dsimp only
  rcases hcases with ⟨hwork, hslips⟩ | ⟨n, waiting, i, hwork, hi, hslips⟩
  · rw [hwork]
    exact h.of_editor hslips hnext hasks
  · rw [hwork]
    cases hparked : s.parked? with
    | none =>
        rw [hparked] at hslips
        exact h.of_editor (hslips.trans (set_of_getElem? hi)) hnext hasks
    | some action =>
        rw [hparked] at hslips
        refine ⟨?_, h.spent.park n action, hasks⟩
        dsimp only [park]
        rw [hslips, hnext]
        refine h.tallied.set hi (some ⟨d.issued, n, action⟩) ?_
        rintro _ ⟨⟩
        rfl

/-- A popup is opened for the ticket that waits in the tab at work. -/
theorem Kept.openPendingPopup (h : d.Kept) :
    Kept { d.note .openPendingPopup with editor := d.editor.openPendingPopup } := by
  unfold note
  dsimp only
  rcases d.editor.openPendingPopup_cases with heq |
    ⟨hnone, n, action, topic, text, hwork, hfor, heq⟩
  · rw [heq]
    split
    · exact h
    · next hclosed =>
        -- no popup is open afterwards either, so it does not matter whose ticket is noted
        refine ⟨h.tallied, h.spent, fun topic htopic => ?_⟩
        exact absurd (Option.isSome_iff_exists.2 ⟨topic, htopic⟩) hclosed
  · rw [heq, hnone, if_neg nofun]
    refine ⟨h.tallied, h.spent, fun topic' htopic' _ => ?_⟩
    obtain rfl := Option.some.inj htopic'
    obtain ⟨k, hk, -, rfl⟩ := h.ticket hwork
    refine ⟨k, ?_, hfor⟩
    dsimp only
    rw [hwork]
    exact hk

/-- Closing a popup that asks for something takes away what waits in the tab at work. -/
theorem Kept.carryOut {action : Option ViewAction} (h : d.Kept)
    (hstep : (s.shown d.editor).carryOut action = .ok e) (confirmed : Bool) :
    Kept { d.settle (s.shown d.editor) confirmed with editor := e } := by
  obtain ⟨hpopup, hnext, hcases⟩ := Editor.carryOut_cases hstep
  rw [s.shown_atWork?, s.shown_tabs] at hcases
  rw [s.shown_nextScrollArea] at hnext
  have hasks : ∀ {m : Docket} topic, e.popup.topic = some topic → topic.canConfirm = true →
      m.Asks topic := by
    intro m topic htopic
    rw [hpopup] at htopic
    cases htopic
  unfold settle
  rw [s.shown_atWork?]
  rcases hcases with ⟨hwork, htabs⟩ | ⟨t, i, tab, hwork, hi, hslip, htabs⟩
  · rw [hwork]
    refine h.of_editor ?_ hnext hasks
    unfold Editor.slips
    rw [htabs]
  · rw [hwork]
    have hslips : e.slips = d.editor.slips.set i (t.scrollArea, none) := by
      unfold Editor.slips
      rw [htabs, List.map_set, hslip]
    refine ⟨?_, ?_, hasks⟩
    · dsimp only [Tab.slip]
      rw [hslips, hnext]
      exact h.tallied.set (Editor.getElem?_slips hi) none nofun
    · dsimp only [Tab.slip]
      split
      · exact h.spent.carryOut (fun m k hk => (h.tallied.owner m k hk).1) t.scrollArea
      · exact h.spent.forget t.scrollArea

theorem Kept.closed (h : d.Kept) (hverdict : s.verdict? d.editor = some confirmed)
    (hstep : d.editor.step s = .ok e) : Kept { d.enter s with editor := e } := by
  obtain ⟨topic, htopic, hclose⟩ := EditorStep.step_of_verdict hverdict
  have henter : d.enter s =
      if topic.canConfirm then d.settle (s.shown d.editor) confirmed else d := by
    unfold enter
    rw [hverdict, htopic]
    rfl
  rw [henter]
  split
  · next hask =>
      rw [EditorStep.closes hverdict htopic hask] at hstep
      exact h.carryOut hstep confirmed
  · next hask =>
      obtain ⟨error, hret⟩ := Editor.closePopup_of_not_canConfirm (e := s.shown d.editor)
        (Bool.eq_false_of_not_eq_true hask) confirmed
      obtain rfl := Except.ok.inj (hret.symm.trans (hclose.symm.trans hstep))
      refine h.of_editor ?_ (s.shown_nextScrollArea d.editor) nofun
      exact congrArg (List.map Tab.slip) (s.shown_tabs d.editor)

theorem Kept.take (h : d.Kept) (htake : d.take s = .ok d') : d'.Kept := by
  obtain ⟨e, hstep, hret⟩ := Checked.bind_eq_ok_iff.1 htake
  obtain rfl := Except.ok.inj hret
  cases hverdict : s.verdict? d.editor with
  | some confirmed => exact h.closed hverdict hstep
  | none =>
      have henter : d.enter s = d.note s := by
        unfold enter
        rw [hverdict]
      rw [henter]
      cases s with
      | request r =>
          obtain ⟨hfollows, hpopup⟩ := Editor.perform_follows hstep
          exact h.follows hfollows hpopup
      | pumpAll =>
          obtain ⟨space, -, hret⟩ := Checked.bind_eq_ok_iff.1 hstep
          obtain rfl := Except.ok.inj hret
          exact h.of_editor rfl rfl h.asks
      | tab s => exact h.tab hstep
      | openPendingPopup =>
          obtain rfl := Except.ok.inj hstep
          exact h.openPendingPopup
      | showError =>
          obtain rfl := Except.ok.inj hstep
          unfold Editor.showError
          split
          · refine h.of_editor rfl rfl ?_
            rintro _ ⟨⟩ ⟨⟩
          · exact h
      | showAbout =>
          obtain rfl := Except.ok.inj hstep
          refine h.of_editor rfl rfl ?_
          rintro _ ⟨⟩ ⟨⟩
      | popupFrame field events input clicked =>
          obtain ⟨popup, hpopup, hframe⟩ := EditorStep.step_of_no_verdict hverdict
          obtain rfl := Except.ok.inj (hframe.symm.trans hstep)
          refine h.of_editor ?_ (EditorStep.shown_nextScrollArea _ _) ?_
          · exact congrArg (List.map Tab.slip) (EditorStep.shown_tabs _ _)
          · dsimp only
            rw [hpopup]
            exact h.asks
      | dismissPopup =>
          obtain rfl := Except.ok.inj ((EditorStep.dismissPopup_of_no_verdict hverdict).symm.trans
            hstep)
          exact h

theorem Reachable.kept (hd : d.Reachable) : d.Kept := by
  induction hd with
  | start h hpopup => exact kept_of_empty h hpopup
  | step _ h ih => exact ih.take h

/-! ## When a popup is closed -/

/-- The confirmed popup does what it was opened for: the action of the ticket is carried out in the
tab of the ticket, and all other tabs stay as they are. -/
def Fulfils (d : Docket) (s : EditorStep) (topic : Topic) (k : Ticket) : Prop :=
  (∃ action, topic.confirmed? (s.shown d.editor).popup.text k.action = some action ∧
    (s.shown d.editor).answer? = some (k.tab, action)) ∧
  ∀ d', d.take s = .ok d' → ∀ (i : Nat) (tab : Tab), d.editor.tabs[i]? = some tab →
    tab.scrollArea ≠ k.tab → d'.editor.tabs[i]? = some tab

/-- A popup that is cancelled carries out nothing. -/
theorem exists_take_of_cancelled (hverdict : s.verdict? d.editor = some false) :
    ∃ d', d.take s = .ok d' ∧ d.editor.space.Agrees d'.editor.space ∧
      d'.carriedOut = d.carriedOut := by
  obtain ⟨e, hstep, hagrees⟩ := EditorStep.exists_cancelled hverdict
  refine ⟨{ d.enter s with editor := e }, ?_, hagrees, ?_⟩
  · unfold take
    rw [hstep]
    rfl
  · unfold enter
    rw [hverdict]
    dsimp only
    split
    · unfold settle
      split <;> rfl
    · rfl

/-- What a confirmed popup carries out is that for which the tab at work had a ticket, which is
taken away. -/
theorem Kept.exists_carriedOut (h : d.Kept) (hverdict : s.verdict? d.editor = some true)
    (hanswer : (s.shown d.editor).answer? = some (n, action)) :
    ∃ k, d.waiting n = some k ∧ k.tab = n ∧
      ∀ d', d.take s = .ok d' → d'.carriedOut = d.carriedOut ++ [k] := by
  obtain ⟨topic, waiting, htopic, hwork, -⟩ := Editor.exists_of_answer? hanswer
  rw [s.shown_atWork?] at hwork
  obtain ⟨k, hk, htab, -⟩ := h.ticket hwork
  refine ⟨k, hk, htab, fun d' htake => ?_⟩
  obtain ⟨e, -, hret⟩ := Checked.bind_eq_ok_iff.1 htake
  obtain rfl := Except.ok.inj hret
  obtain ⟨topic', htopic', hask⟩ := EditorStep.exists_topic_of_confirmed hverdict
  unfold enter
  rw [hverdict, htopic']
  dsimp only [Option.any_some]
  rw [if_pos hask]
  unfold settle
  rw [s.shown_atWork?, hwork, hanswer]
  change d.carriedOut ++ (d.waiting n).toList = _
  rw [hk]
  rfl

/-- A popup that is answered in the tab for which it was opened does what it was opened for. -/
theorem fulfils_iff (hverdict : s.verdict? d.editor = some true)
    (htopic : d.editor.popup.topic = some topic) (hfor : Topic.for? k.action = some topic) :
    d.Fulfils s topic k ↔
      ∃ waiting, d.editor.atWork? = some (k.tab, some waiting) ∧ topic.suits waiting = true := by
  have hshown := (s.shown_topic d.editor).trans htopic
  constructor
  · rintro ⟨⟨action, -, hanswer⟩, -⟩
    obtain ⟨topic', waiting, htopic', hwork, hconfirmed⟩ := Editor.exists_of_answer? hanswer
    obtain rfl := Option.some.inj (htopic'.symm.trans hshown)
    rw [s.shown_atWork?] at hwork
    refine ⟨waiting, hwork, ?_⟩
    rw [← Topic.isSome_confirmed? topic' (s.shown d.editor).popup.text, hconfirmed]
    rfl
  · rintro ⟨waiting, hwork, hsuits⟩
    refine ⟨?_, fun d' htake i tab hi hne => ?_⟩
    · have hsome := (Topic.isSome_confirmed? topic (s.shown d.editor).popup.text k.action).trans
        (Topic.suits_of_for? hfor)
      obtain ⟨action, haction⟩ := Option.isSome_iff_exists.1 hsome
      refine ⟨action, haction, ?_⟩
      -- only the kind of what waits counts, so it need not be the action of the ticket
      rw [Editor.answer?_eq hshown ((s.shown_atWork? d.editor).trans hwork), Option.bind_some,
        Topic.confirmed?_congr _ (Topic.suits_of_for? hfor) hsuits, haction]
      rfl
    · obtain ⟨e, hstep, hret⟩ := Checked.bind_eq_ok_iff.1 htake
      obtain rfl := Except.ok.inj hret
      rw [EditorStep.closes hverdict htopic (Topic.canConfirm_of_for? hfor)] at hstep
      obtain ⟨-, -, hcases⟩ := Editor.carryOut_cases hstep
      rw [s.shown_atWork?, s.shown_tabs, hwork] at hcases
      rcases hcases with ⟨hnone, -⟩ | ⟨t, j, tab', ht, hj, -, htabs⟩
      · cases hnone
      · have hnumber : k.tab = t.scrollArea := congrArg Prod.fst (Option.some.inj ht)
        -- the tab at work is the one of the ticket, and the other one has another number
        have hij : j ≠ i := by
          rintro rfl
          obtain rfl := Option.some.inj (hi.symm.trans hj)
          exact hne hnumber.symm
        dsimp only
        rw [htabs, List.getElem?_set_ne hij]
        exact hi

/-- Whatever has happened in the editor, no action that has waited is carried out twice.  A
cancelled popup carries out nothing.  A confirmed one carries out what the tab at work makes of it,
and the ticket of that is used up.  It was opened for a ticket, and it does what it was opened for
if and only if an action of its kind waits in the tab at work, and that is the tab of the ticket. -/
theorem confirmed_fulfils_iff (hd : d.Reachable) : d.carriedOut.Nodup ∧
    (∀ s, s.verdict? d.editor = some false → ∃ d', d.take s = .ok d' ∧
      d.editor.space.Agrees d'.editor.space ∧ d'.carriedOut = d.carriedOut) ∧
    ∀ s, s.verdict? d.editor = some true →
      d.editor.step s = (s.shown d.editor).carryOut ((s.shown d.editor).answer?.map (·.2)) ∧
      (∀ n action, (s.shown d.editor).answer? = some (n, action) →
        ∃ k, d.waiting n = some k ∧ k.tab = n ∧
          ∀ d', d.take s = .ok d' → d'.carriedOut = d.carriedOut ++ [k]) ∧
      ∃ topic k, d.editor.popup.topic = some topic ∧ d.asking = some k ∧
        Topic.for? k.action = some topic ∧
        (d.Fulfils s topic k ↔
          ∃ waiting, d.editor.atWork? = some (k.tab, some waiting) ∧
            topic.suits waiting = true) := by
  refine ⟨hd.kept.spent.once, fun s => exists_take_of_cancelled, fun s hverdict => ?_⟩
  obtain ⟨topic, htopic, hask⟩ := EditorStep.exists_topic_of_confirmed hverdict
  obtain ⟨k, hk, hfor⟩ := hd.kept.asks topic htopic hask
  refine ⟨?_, fun n action => hd.kept.exists_carriedOut hverdict, topic, k, htopic, hk, hfor,
    fulfils_iff hverdict htopic hfor⟩
  rw [EditorStep.closes hverdict htopic hask, if_pos rfl]

/-- Two tabs of one file.  An action waits in each, and a popup has been opened for the first,
before the second is chosen. -/
theorem exists_two_waiting : ∃ d d' : Docket, d.Reachable ∧
    d.take (.request (.selectTab 1)) = .ok d' ∧
    (d.editor.popup.topic = some .confirmRevert ∧ d'.editor.popup.topic = some .confirmRevert) ∧
    (d.asking = some ⟨1, 0, .revertSelected⟩ ∧ d'.asking = some ⟨1, 0, .revertSelected⟩) ∧
    d.editor.atWork? = some (0, some .revertSelected) ∧
    d'.editor.atWork? = some (1, some .revertSelected) := by
  have hread : Disk.read { nodes := [("a", .file [1, 2, 3])] } "a" = .ok [1, 2, 3] := by cbv
  have hload : Editor.step {} (.request (.load { nodes := [("a", .file [1, 2, 3])] } "a")) =
      Editor.addTab { space := { projects := [{ image := .ofBytes 0 [1, 2, 3] }] } }
        (Disk.fileName "a") "a" 0 0 := by
    unfold Editor.step Editor.perform Editor.load Editor.readImage
    dsimp only
    rw [hread]
    rfl
  have hempty : Editor.Empty {} := ⟨rfl, rfl, rfl, rfl, rfl⟩
  have hloaded := (Reachable.start hempty rfl).step
    (s := .request (.load { nodes := [("a", .file [1, 2, 3])] } "a")) (by
      unfold take
      rw [hload]
      rfl)
  have hbeside := hloaded.step (s := .request .openSynchronizedView) rfl
  have hsecond := hbeside.step (s := .tab (.act .revertSelected)) rfl
  have hback := hsecond.step (s := .request (.selectTab 0)) rfl
  have hfirst := hback.step (s := .tab (.act .revertSelected)) rfl
  have hopened := hfirst.step (s := .openPendingPopup) rfl
  exact ⟨_, _, hopened, rfl, ⟨rfl, rfl⟩, ⟨rfl, rfl⟩, rfl, rfl⟩

/-- The frame in which the enter key confirms the popup. -/
def entered : EditorStep := .popupFrame {} [] { enterReleased := true } false

theorem verdict?_entered (htopic : e.popup.topic = some topic) (hask : topic.canConfirm = true) :
    entered.verdict? e = some true := by
  unfold entered EditorStep.verdict?
  rw [htopic]
  dsimp only
  rw [hask]
  rfl

/-- The popup is confirmed before another tab is chosen. -/
theorem confirmed_fulfils_iff_same_tab : ∃ (d : Docket) (k : Ticket), d.Reachable ∧
    entered.verdict? d.editor = some true ∧ d.asking = some k ∧ d.carriedOut.Nodup ∧
    d.Fulfils entered .confirmRevert k := by
  obtain ⟨d, -, hd, -, ⟨htopic, -⟩, ⟨hasking, -⟩, hwork, -⟩ := exists_two_waiting
  have hverdict := verdict?_entered htopic rfl
  obtain ⟨honce, -, hconfirmed⟩ := confirmed_fulfils_iff hd
  obtain ⟨-, -, topic, k, htopic', hk, -, hiff⟩ := hconfirmed entered hverdict
  obtain rfl := Option.some.inj (htopic.symm.trans htopic')
  obtain rfl := Option.some.inj (hasking.symm.trans hk)
  exact ⟨d, _, hd, hverdict, hk, honce, hiff.2 ⟨.revertSelected, hwork, rfl⟩⟩

/-- The popup was opened for the first tab, and confirming it takes the action away that waits in
the second one. -/
theorem not_fulfils_other_tab : ∃ (d : Docket) (k : Ticket), d.Reachable ∧
    entered.verdict? d.editor = some true ∧ d.asking = some k ∧ k.tab = 0 ∧
    (entered.shown d.editor).answer? = some (1, .revertSelected) ∧
    ¬ d.Fulfils entered .confirmRevert k := by
  obtain ⟨d, d', hd, htake, ⟨-, htopic⟩, ⟨-, hasking⟩, -, hwork⟩ := exists_two_waiting
  have hverdict := verdict?_entered htopic rfl
  have hanswer : (entered.shown d'.editor).answer? = some (1, .revertSelected) := by
    rw [Editor.answer?_eq ((entered.shown_topic d'.editor).trans htopic)
      ((entered.shown_atWork? d'.editor).trans hwork)]
    rfl
  refine ⟨d', _, hd.step htake, hverdict, hasking, rfl, hanswer, ?_⟩
  rintro ⟨⟨action, -, hfulfils⟩, -⟩
  cases hanswer.symm.trans hfulfils

end Docket

end HexEditor
