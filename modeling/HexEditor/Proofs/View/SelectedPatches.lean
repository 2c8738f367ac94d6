import HexEditor.Proofs.Grid.Typing
import HexEditor.Proofs.Patch.ByteMap
import HexEditor.Proofs.View.Menu

/-!
# Merging and reverting the selected patches

Both go by the regions that are painted as active, which are those of the picked patches, and both
end with pumping the view.  Afterwards the view shows the patches as they then are, and so it can
be said what it would do if it were asked once more: pumping has left nothing to renew
(`still_pumped`), and the view is again one for which no mail waits.

Merging puts one patch in the place of every maximal run of picked patches and reads every byte as
before.  The merged patches are the ones that are picked now, and since there are gaps between them
nothing can be merged a second time (`exists_mergesSelected`).  Reverting takes the picked patches
away as a whole, also where they reach out of the selection (`exists_revertsSelected`).
-/

namespace HexEditor

/-- All that a member hears of what it publishes is that it has done so. -/
theorem SyncGroup.mem_waiting_publish {g : SyncGroup} {me : MemberId} {inbox : SubscriberId}
    (hhears : g.events.Hears inbox) (hnone : g.events.waiting inbox = []) (ranges : List AddrRange) :
    ∀ event ∈ (g.publish me ranges).events.waiting inbox, event = .regionsChanged me := by
  unfold publish
  split
  · rw [hnone]
    nofun
  · split
    · rw [hnone]
      nofun
    · have hannounced := (Broadcast.announce_delivers inbox g.events (.regionsChanged me) hhears).2
      rw [hnone, List.nil_append] at hannounced
      intro event hevent
      exact List.mem_singleton.1 (hannounced ▸ hevent)

namespace Desk

variable {d e : Desk}

/-! ## Pumping leaves nothing to do -/

/-- No patch has changed since the view has looked, its selection is the one published last, and in
the group nobody else has said anything. -/
structure Still (d : Desk) : Prop where
  patchMail : d.project.patches.changes.waiting d.view.patchInbox = []
  ownMail : ∀ event ∈ d.group.events.waiting d.view.syncInbox,
    event = .regionsChanged d.view.member
  published : d.view.published = d.view.grid.cursor.selection?

theorem Still.target?_eq (h : d.Still) : d.target? = none := by
  unfold target? followTarget?
  rw [List.filterMap_eq_nil_iff.2 fun event hevent => by rw [h.ownMail event hevent]]
  rfl

/-- Pumping then does nothing but to empty the mailboxes. -/
theorem Still.pump_eq (h : d.Still) : d.pump = .ok (false, d.emptyInboxes) := by
  have hmembers : (d.group.events.waiting d.view.syncInbox).contains .membersChanged = false := by
    rw [Bool.eq_false_iff, ne_eq, List.contains_iff_mem]
    intro hmem
    cases h.ownMail _ hmem
  have hregions :
      regionsChanged d.view.member (d.group.events.waiting d.view.syncInbox) = false := by
    unfold regionsChanged
    rw [List.any_eq_false]
    intro event hevent
    rw [h.ownMail event hevent]
    simp
  have htarget : followTarget? d.view.member (d.group.events.waiting d.view.syncInbox) = none :=
    h.target?_eq
  have hpublish : d.emptyInboxes.publishSelection = d.emptyInboxes :=
    publishSelection_of_published h.published
  unfold pump
  dsimp only
  rw [h.patchMail, hmembers, hregions, htarget]
  show Except.ok (false, d.emptyInboxes.publishSelection) = _
  rw [hpublish]

/-- Emptying empty mailboxes tells nobody anything. -/
theorem Still.unmoved_emptyInboxes (h : d.Still) : Unmoved d d.emptyInboxes :=
  ⟨rfl, Broadcast.waiting_collect_of_nil h.patchMail⟩

/-- A view that has renewed what was stale and published its selection has nothing left to do. -/
theorem still_pumped (hhears : d.group.events.Hears d.view.syncInbox) :
    d.renewed.publishSelection.Still := by
  have hrenews := renews_renewed d
  have hgroup : d.renewed.group.events.Hears d.view.syncInbox ∧
      d.renewed.group.events.waiting d.view.syncInbox = [] := by
    rw [hrenews.group]
    exact hhears.collect_self
  have hview := publishSelection_view d.renewed
  refine ⟨?_, ?_, publishSelection_published _⟩
  · rw [publishSelection_project, hview, hrenews.project]
    dsimp only
    rw [hrenews.leads.patchInbox]
    exact (Broadcast.collect_cleared _ _).waiting
  · rw [hview]
    dsimp only
    rw [hrenews.leads.member, hrenews.leads.syncInbox]
    obtain ⟨hhears', hnone⟩ := hgroup
    unfold publishSelection
    dsimp only
    split
    · rw [hnone]
      nofun
    · rw [hrenews.leads.member]
      exact SyncGroup.mem_waiting_publish hhears' hnone _

/-! ## What a reply leaves behind -/

/-- From `d` to `e` the store has become `store`, and the view has taken note of it. -/
structure Replied (d : Desk) (store : PatchStore) (e : Desk) : Prop where
  sound : e.Sound
  quiet : e.Quiet
  still : e.Still
  cursor : e.view.grid.cursor = d.view.grid.cursor
  image : e.project.image = d.project.image
  set : e.project.patches.set = store.set

theorem quiet_of_truthful (hd : d.Sound) (h : d.view.Truthful d.project d.group)
    (hmail : d.project.patches.changes.waiting d.view.patchInbox = [])
    (htarget : d.target? = none) : d.Quiet :=
  ⟨hd.store, h.honest, hmail, h.patches.resolve_left fun hne => hne hmail, htarget⟩

/-- A view with nothing to follow takes note of every reply. -/
theorem exists_replied (hd : d.Sound) (h : d.view.Truthful d.project d.group)
    (htarget : d.target? = none) {α : Type} (answer : Except PatchError α) {store : PatchStore}
    (hstore : d.project.patches.Evolves store) :
    ∃ e, d.afterReply ⟨answer, store⟩ = .ok (answer, e) ∧ Replied d store e := by
  let replied : Desk := { d with project := { d.project with patches := store } }
  obtain ⟨b, hpump⟩ := pump_of_no_target (d := replied) htarget
  have hdone : d.afterReply ⟨answer, store⟩ = .ok (answer, replied.renewed.publishSelection) := by
    unfold afterReply
    dsimp only
    rw [hpump]
    rfl
  have hparts := (ends_of_afterReply hstore hdone).parts
  obtain ⟨htruthful, hleads⟩ := View.lasting_truthful.parts hd h hparts
  have hsound := hleads.sound hd
  have hstill : replied.renewed.publishSelection.Still := still_pumped h.hearsGroup
  have hrenews := renews_renewed replied
  have hproject : replied.renewed.publishSelection.project = replied.renewed.project :=
    publishSelection_project _
  refine ⟨_, hdone, hsound, quiet_of_truthful hsound htruthful hstill.patchMail hstill.target?_eq,
    hstill, ?_, ?_, ?_⟩
  · rw [publishSelection_grid]
    exact hrenews.cursor
  · rw [hproject, hrenews.project]
  · rw [hproject, hrenews.project]

/-! ## Merging -/

theorem mem_picked_iff {p : Patch} : p ∈ d.picked ↔ p ∈ d.project.patches.set.values ∧
    p.Meets d.view.grid.cursor.span.first (d.view.grid.cursor.span.last + 1) := by
  rw [picked, List.mem_filter, decide_eq_true_iff]

/-- From `d` to `e` the picked patches have been merged, all that touch and nothing else. -/
structure MergesSelected (d e : Desk) : Prop where
  /-- Every maximal run is one patch with its bytes in order, and every other patch is left. -/
  patches : ∀ q, q ∈ e.project.patches.set.values ↔
    q ∈ d.project.patches.set.values ∧ q ∉ d.picked ∨
      ∃ p run, MaximalRun d.picked (p :: run) ∧
        q = { p with bytes := (p :: run).flatMap Patch.bytes }
  reads : ∀ a, e.project.read a = d.project.read a
  image : e.project.image = d.project.image
  /-- There is nothing left to merge. -/
  done : e.canMergeSelected = .ok false
  /-- A second time only the mailboxes are emptied, of mail that says nothing of patches. -/
  again : e.mergeSelected = .ok (.ok false, e.emptyInboxes) ∧ Unmoved e e.emptyInboxes

/-- Where no two picked patches touch, merging them does nothing. -/
theorem mergeSelected_of_alone (hquiet : d.Quiet) (hstill : d.Still)
    (halone : (touchingRuns d.picked).filter (1 < ·.length) = []) :
    d.canMergeSelected = .ok false ∧ d.mergeSelected = .ok (.ok false, d.emptyInboxes) := by
  constructor
  · rw [hquiet.canMergeSelected_eq, halone]
    rfl
  · unfold mergeSelected
    rw [hquiet.mergeableRuns_eq, halone]
    show (d.afterReply ⟨.ok (), d.project.patches⟩ >>= _) = _
    unfold afterReply
    dsimp only
    rw [hstill.pump_eq]
    rfl

/-- Merging the picked patches is done completely. -/
theorem exists_mergesSelected (hd : d.Sound) (h : d.view.Truthful d.project d.group)
    (hmail : d.project.patches.changes.waiting d.view.patchInbox = []) (htarget : d.target? = none) :
    ∃ can e, d.canMergeSelected = .ok can ∧ d.mergeSelected = .ok (.ok can, e) ∧
      d.MergesSelected e := by
  have hquiet := quiet_of_truthful hd h hmail htarget
  obtain ⟨store, before, after, hmerge, hvalues, hleft, hbefore, hafter⟩ := hquiet.exists_mergeRuns
  obtain ⟨e, hreply, hreplied⟩ := exists_replied hd h htarget (.ok ())
    (evolves_of_mergeRuns hd.store hmerge)
  have hvalues' : e.project.patches.set.values = before ++ (mergeTouching d.picked ++ after) :=
    (congrArg OrderedMap.values hreplied.set).trans hleft
  have hmeets : ∀ p ∈ d.picked,
      p.Meets d.view.grid.cursor.span.first (d.view.grid.cursor.span.last + 1) :=
    fun p hp => (mem_picked_iff.1 hp).2
  -- what is picked afterwards are the merged patches
  have hpicked : e.picked = mergeTouching d.picked := by
    rw [picked, hvalues', hreplied.cursor]
    exact filter_meets_eq hbefore (fun q hq => meets_of_mem_mergeTouching hmeets hq) hafter
  have hlaid : Laid d.picked := by
    have hall := (PatchSet.wellFormed_iff.1 hd.store.wellFormed).2
    rw [hvalues] at hall
    exact (laid_append.1 (laid_append.1 hall).2.1).1
  have halone : (touchingRuns e.picked).filter (1 < ·.length) = [] := by
    rw [hpicked, touchingRuns_mergeTouching hlaid]
    simp
  obtain ⟨hdone, hagain⟩ := mergeSelected_of_alone hreplied.quiet hreplied.still halone
  refine ⟨_, e, hquiet.canMergeSelected_eq, ?_, fun q => ?_, fun a => ?_, hreplied.image, hdone,
    hagain, hreplied.still.unmoved_emptyInboxes⟩
  · unfold mergeSelected
    rw [hquiet.mergeableRuns_eq, Checked.ok_bind, hmerge, Checked.ok_bind, hreply,
      List.isEmpty_map]
    rfl
  · have hout : ∀ p, p ∈ before ∨ p ∈ after → p ∉ d.picked := by
      rintro p (hp | hp) hmem
      · exact absurd (hmeets p hmem).2 (hbefore p hp).not_gt
      · exact absurd (hmeets p hmem).1 (hafter p hp).not_gt
    rw [hvalues', hvalues, ← mem_mergeTouching_iff hlaid]
    simp only [List.mem_append]
    have := hout q
    tauto
  · rw [Project.read_eq hreplied.sound.store.wellFormed, Project.read_eq hd.store.wellFormed,
      Project.byte?, Project.byte?, hreplied.image, hvalues', hvalues]
    simp only [byteIn_append, byteIn_mergeTouching]

/-- Where no region of a patch is active nothing is merged, whatever patches there are. -/
theorem mergeSelected_of_inactive
    (hnone : d.view.grid.overlay.active.filterMap Region.patchAddr? = [])
    (htarget : d.target? = none) : ∃ e, d.mergeSelected = .ok (.ok false, e) ∧
      e.project.patches.set = d.project.patches.set := by
  obtain ⟨b, e, hpump, hset, -⟩ := Quiet.exists_pump htarget
  refine ⟨e, ?_, hset⟩
  unfold mergeSelected mergeableRuns
  rw [selectedPatches_of_active hnone .nil]
  show (d.afterReply ⟨.ok (), d.project.patches⟩ >>= _) = _
  unfold afterReply
  dsimp only
  rw [hpump]
  rfl

/-! ## Reverting -/

/-- From `d` to `e` the picked patches have been taken away. -/
structure RevertsSelected (d e : Desk) : Prop where
  patches : e.project.patches.set.values = d.project.patches.set.values.filter (· ∉ d.picked)
  image : e.project.image = d.project.image
  /-- Wherever such a patch was, in the selection or not, the image is read. -/
  reverted : ∀ p ∈ d.picked, ∀ a ∈ p, e.project.read a = .ok (d.project.image.get? a)
  others : ∀ a, (∀ p ∈ d.picked, a ∉ p) → e.project.read a = d.project.read a
  inactive : ∀ r ∈ e.view.grid.overlay.active, r.kind ≠ .patch

/-- Reverting takes away all of the picked patches. -/
theorem exists_revertsSelected (hd : d.Sound) (h : d.view.Truthful d.project d.group)
    (hmail : d.project.patches.changes.waiting d.view.patchInbox = []) (htarget : d.target? = none) :
    ∃ e, d.revertSelected = .ok (.ok d.picked.length, e) ∧ d.RevertsSelected e := by
  have hquiet := quiet_of_truthful hd h hmail htarget
  obtain ⟨store, hrevert, hleft⟩ := hquiet.exists_revertAll
  have hevolves := hd.store.revertAll_evolves d.selectedPatches
  rw [hrevert] at hevolves
  obtain ⟨e, hreply, hreplied⟩ := exists_replied hd h htarget (.ok ()) hevolves
  have hvalues : e.project.patches.set.values =
      d.project.patches.set.values.filter (· ∉ d.picked) :=
    (congrArg OrderedMap.values hreplied.set).trans hleft
  have hnone : e.picked = [] := by
    rw [picked, hvalues, hreplied.cursor, List.filter_filter, List.filter_eq_nil_iff]
    intro p hp
    simp only [Bool.and_eq_true, decide_eq_true_eq, not_and, not_not]
    exact fun hmeets => mem_picked_iff.2 ⟨hp, hmeets⟩
  have hlaid := (PatchSet.wellFormed_iff.1 hd.store.wellFormed).2
  have hbyteIn : ∀ a, byteIn e.project.patches.set.values a =
      if ∃ p ∈ d.project.patches.set.values, p ∈ d.picked ∧ a ∈ p then none
      else byteIn d.project.patches.set.values a := by
    intro a
    rw [hvalues]
    exact hlaid.byteIn_filter (· ∈ d.picked)
  refine ⟨e, ?_, hvalues, hreplied.image, ?_, ?_, ?_⟩
  · unfold revertSelected
    dsimp only
    rw [hrevert, hreply, hquiet.selectedPatches_eq, List.length_map]
    rfl
  · intro p hp a ha
    rw [Project.read_eq hreplied.sound.store.wellFormed, Project.byte?, hbyteIn,
      if_pos ⟨p, (mem_picked_iff.1 hp).1, hp, ha⟩, Option.none_or, hreplied.image]
  · intro a ha
    have hout : ¬ ∃ p ∈ d.project.patches.set.values, p ∈ d.picked ∧ a ∈ p := by
      rintro ⟨p, -, hp, hap⟩
      exact ha p hp hap
    rw [Project.read_eq hreplied.sound.store.wellFormed, Project.read_eq hd.store.wellFormed,
      Project.byte?, Project.byte?, hbyteIn, if_neg hout, hreplied.image]
  · intro r hr hkind
    have hactive := hreplied.quiet.activePatches_eq
    rw [hnone] at hactive
    have := List.filterMap_eq_nil_iff.1 hactive r hr
    simp [Region.patchAddr?, Region.isMutable, hkind] at this

/-- Where an active region stands for a patch that there is not, nothing is reverted. -/
theorem revertSelected_of_missing {answer : Except PatchError Nat} {a : Nat}
    (hmissing : d.project.patches.firstMissing? d.selectedPatches = some a)
    (hrevert : d.revertSelected = .ok (answer, e)) : answer = .error (.notFound a) := by
  unfold revertSelected PatchStore.revertAll at hrevert
  dsimp only at hrevert
  rw [hmissing] at hrevert
  obtain ⟨⟨answer', f⟩, hreply, hanswer⟩ := Checked.bind_eq_ok_iff.1 hrevert
  obtain ⟨⟨b, e'⟩, -, hreplied⟩ := Checked.bind_eq_ok_iff.1 hreply
  obtain ⟨rfl, -⟩ := Prod.mk.inj (Except.ok.inj hreplied)
  obtain ⟨rfl, -⟩ := Prod.mk.inj (Except.ok.inj hanswer)
  rfl

end Desk

namespace Workspace

variable {w : Workspace} {v : Nat} {s : Seat}

theorem target?_of_no_mail (hgroup : (w.group s.group).events.waiting s.view.syncInbox = []) :
    (w.desk s).target? = none := by
  change Desk.followTarget? _ ((w.group s.group).events.waiting s.view.syncInbox) = none
  rw [hgroup]
  rfl

/-- In a workspace where it is left to the views which regions stand for patches, a view for which
no mail waits merges all selected patches that touch, and nothing else. -/
theorem tended_mergeSelected (hw : w.Tended) (hs : w.seat? v = some s)
    (hpatches : (w.project s.project).patches.changes.waiting s.view.patchInbox = [])
    (hgroup : (w.group s.group).events.waiting s.view.syncInbox = []) :
    ∃ can e, (w.desk s).canMergeSelected = .ok can ∧ (w.desk s).mergeSelected = .ok (.ok can, e) ∧
      (w.desk s).MergesSelected e :=
  Desk.exists_mergesSelected (hw.sound.desk s) (hw.sound.view v s hs) hpatches
    (target?_of_no_mail hgroup)

/-- Of three patches in a row the selection meets the first two. -/
theorem tended_mergeSelected_two_of_three : ∃ w s, Tended w ∧ w.seat? 0 = some s ∧
    (w.project s.project).patches.changes.waiting s.view.patchInbox = [] ∧
    (w.group s.group).events.waiting s.view.syncInbox = [] ∧
    ∃ can e, (w.desk s).canMergeSelected = .ok can ∧ (w.desk s).mergeSelected = .ok (.ok can, e) ∧
      (w.desk s).MergesSelected e := by
  have hstart : Initial { projects := [{ image := .ofBytes 0 [0, 1, 2, 3, 4, 5, 6, 7] }] } :=
    ⟨by simp, rfl, rfl⟩
  have hopened := (Tended.start hstart).request (r := .openView 0 0 {}) Nat.one_pos rfl
  have hpatched := hopened.request (r := .patches 0 (.write 1 [16, 17, 18, 19, 20, 21])) trivial rfl
  have hcut := hpatched.request (r := .patches 0 (.split 1 3)) trivial rfl
  have hcut' := hcut.request (r := .patches 0 (.split 3 5)) trivial rfl
  have hjumped := hcut'.request (r := .view 0 (.jumpTo 2)) trivial rfl
  have hbegun := hjumped.command (v := 0) (c := .beginSelection) rfl (.other rfl) rfl
  have hselected := hbegun.command (v := 0) (c := .setCursor 3 none none) rfl (.other rfl) rfl
  have hpumped := hselected.request (r := .view 0 .pump) trivial rfl
  have hpumped' := hpumped.request (r := .view 0 .pump) trivial rfl
  obtain ⟨w, s, hw, hs, hpatches, hgroup⟩ : ∃ w s, Tended w ∧ w.seat? 0 = some s ∧
      (w.project s.project).patches.changes.waiting s.view.patchInbox = [] ∧
      (w.group s.group).events.waiting s.view.syncInbox = [] := ⟨_, _, hpumped', rfl, rfl, rfl⟩
  exact ⟨w, s, hw, hs, hpatches, hgroup, tended_mergeSelected hw hs hpatches hgroup⟩

/-- The list of the patch regions has been taken away from the grid of a view; the two patches that
touch are not merged. -/
theorem not_attained_mergeSelected : ¬ ∀ (w : Workspace) (v : Nat) (s : Seat), w.Attained →
    w.seat? v = some s →
    (w.project s.project).patches.changes.waiting s.view.patchInbox = [] →
    (w.group s.group).events.waiting s.view.syncInbox = [] →
    ∃ can e, (w.desk s).canMergeSelected = .ok can ∧ (w.desk s).mergeSelected = .ok (.ok can, e) ∧
      (w.desk s).MergesSelected e := by
  intro hall
  have hstart : Initial { projects := [{ image := .ofBytes 0 [0, 1, 2, 3, 4, 5, 6, 7] }] } :=
    ⟨by simp, rfl, rfl⟩
  have hpatched := (Attained.start hstart).request (r := .patches 0 (.write 0 [16, 17])) trivial rfl
  have hcut := hpatched.request (r := .patches 0 (.split 0 1)) trivial rfl
  have hopened := hcut.request (r := .openView 0 0 {}) Nat.one_pos rfl
  have hbegun := hopened.command (v := 0) (c := .beginSelection) rfl rfl rfl
  have hselected := hbegun.command (v := 0) (c := .setCursor 1 none none) rfl rfl rfl
  have hpumped := hselected.request (r := .view 0 .pump) trivial rfl
  have hpumped' := hpumped.request (r := .view 0 .pump) trivial rfl
  have hgiven := hpumped'.command (v := 0) (c := .setPatches []) rfl rfl rfl
  obtain ⟨w, s, hw, hs, hpatches, hgroup, hnone, hvalues, hpicked⟩ : ∃ w s, Attained w ∧
      w.seat? 0 = some s ∧
      (w.project s.project).patches.changes.waiting s.view.patchInbox = [] ∧
      (w.group s.group).events.waiting s.view.syncInbox = [] ∧
      s.view.grid.overlay.active.filterMap Region.patchAddr? = [] ∧
      (w.project s.project).patches.set.values = [⟨0, [16], none⟩, ⟨1, [17], none⟩] ∧
      (w.desk s).picked = [⟨0, [16], none⟩, ⟨1, [17], none⟩] :=
    ⟨_, _, hgiven, rfl, rfl, rfl, rfl, rfl, rfl⟩
  obtain ⟨can, e, -, hmerge, hmerges⟩ := hall w 0 s hw hs hpatches hgroup
  obtain ⟨f, hidle, hset⟩ :=
    Desk.mergeSelected_of_inactive (d := w.desk s) hnone (target?_of_no_mail hgroup)
  obtain ⟨-, rfl⟩ := Prod.mk.inj (Except.ok.inj (hmerge.symm.trans hidle))
  have hrun : MaximalRun (w.desk s).picked [⟨0, [16], none⟩, ⟨1, [17], none⟩] :=
    (mem_touchingRuns_iff (by rw [hpicked]; decide)).1 (by rw [hpicked]; decide)
  have hmem := (hmerges.patches ⟨0, [16, 17], none⟩).2 (.inr ⟨_, _, hrun, rfl⟩)
  rw [hset, show (w.desk s).project.patches.set.values = _ from hvalues] at hmem
  exact absurd hmem (by decide)

/-- In a workspace where it is left to the views which regions stand for patches, a view for which
no mail waits reverts the patches that meet the selection, and nothing else. -/
theorem tended_revertSelected (hw : w.Tended) (hs : w.seat? v = some s)
    (hpatches : (w.project s.project).patches.changes.waiting s.view.patchInbox = [])
    (hgroup : (w.group s.group).events.waiting s.view.syncInbox = []) :
    ∃ e, (w.desk s).revertSelected = .ok (.ok (w.desk s).picked.length, e) ∧
      (w.desk s).RevertsSelected e :=
  Desk.exists_revertsSelected (hw.sound.desk s) (hw.sound.view v s hs) hpatches
    (target?_of_no_mail hgroup)

/-- The selection begins in one patch and ends in the next one; a third is left. -/
theorem tended_revertSelected_two_of_three : ∃ w s, Tended w ∧ w.seat? 0 = some s ∧
    (w.project s.project).patches.changes.waiting s.view.patchInbox = [] ∧
    (w.group s.group).events.waiting s.view.syncInbox = [] ∧ (w.desk s).picked.length = 2 ∧
    ∃ e, (w.desk s).revertSelected = .ok (.ok (w.desk s).picked.length, e) ∧
      (w.desk s).RevertsSelected e := by
  have hstart : Initial { projects := [{ image := .ofBytes 0 [0, 1, 2, 3, 4, 5, 6, 7] }] } :=
    ⟨by simp, rfl, rfl⟩
  have hopened := (Tended.start hstart).request (r := .openView 0 0 {}) Nat.one_pos rfl
  have hpatched := hopened.request (r := .patches 0 (.write 0 [16, 17])) trivial rfl
  have hpatched' := hpatched.request (r := .patches 0 (.write 3 [18, 19, 20])) trivial rfl
  have hcut := hpatched'.request (r := .patches 0 (.split 3 5)) trivial rfl
  have hjumped := hcut.request (r := .view 0 (.jumpTo 1)) trivial rfl
  have hbegun := hjumped.command (v := 0) (c := .beginSelection) rfl (.other rfl) rfl
  have hselected := hbegun.command (v := 0) (c := .setCursor 3 none none) rfl (.other rfl) rfl
  have hpumped := hselected.request (r := .view 0 .pump) trivial rfl
  have hpumped' := hpumped.request (r := .view 0 .pump) trivial rfl
  obtain ⟨w, s, hw, hs, hpatches, hgroup, htwo⟩ : ∃ w s, Tended w ∧ w.seat? 0 = some s ∧
      (w.project s.project).patches.changes.waiting s.view.patchInbox = [] ∧
      (w.group s.group).events.waiting s.view.syncInbox = [] ∧ (w.desk s).picked.length = 2 :=
    ⟨_, _, hpumped', rfl, rfl, rfl, rfl⟩
  exact ⟨w, s, hw, hs, hpatches, hgroup, htwo, tended_revertSelected hw hs hpatches hgroup⟩

/-- The grid of a view has been given a region that stands for a patch, and there is none. -/
theorem not_attained_revertSelected : ¬ ∀ (w : Workspace) (v : Nat) (s : Seat), w.Attained →
    w.seat? v = some s →
    (w.project s.project).patches.changes.waiting s.view.patchInbox = [] →
    (w.group s.group).events.waiting s.view.syncInbox = [] →
    ∃ e, (w.desk s).revertSelected = .ok (.ok (w.desk s).picked.length, e) ∧
      (w.desk s).RevertsSelected e := by
  intro hall
  have hstart : Initial { projects := [{ image := .ofBytes 0 [0, 1, 2, 3, 4, 5, 6, 7] }] } :=
    ⟨by simp, rfl, rfl⟩
  have hopened := (Attained.start hstart).request (r := .openView 0 0 {}) Nat.one_pos rfl
  have hgiven := hopened.command (v := 0)
    (c := .setPatches [⟨.patch, 0, 2, false, .patch, by decide, by decide⟩]) rfl rfl rfl
  obtain ⟨w, s, hw, hs, hpatches, hgroup, hactive, hset⟩ : ∃ w s, Attained w ∧
      w.seat? 0 = some s ∧
      (w.project s.project).patches.changes.waiting s.view.patchInbox = [] ∧
      (w.group s.group).events.waiting s.view.syncInbox = [] ∧
      s.view.grid.overlay.active.filterMap Region.patchAddr? = [0] ∧
      (w.project s.project).patches.set = ∅ := ⟨_, _, hgiven, rfl, rfl, rfl, rfl, rfl⟩
  obtain ⟨e, hrevert, -⟩ := hall w 0 s hw hs hpatches hgroup
  have hselected := Desk.selectedPatches_of_active (d := w.desk s) hactive
    (List.pairwise_singleton _ _)
  have hmissing : (w.desk s).project.patches.firstMissing? (w.desk s).selectedPatches = some 0 := by
    rw [hselected, PatchStore.firstMissing?, show (w.desk s).project.patches.set = ∅ from hset]
    rfl
  cases Desk.revertSelected_of_missing hmissing hrevert

end Workspace

end HexEditor
