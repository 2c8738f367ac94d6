import HexEditor.Proofs.View.Runs
import HexEditor.Proofs.View.Tended

/-!
# What the context menu promises

The menu is made from what is painted: the regions that stand for patches, the cursor and the
selection.  The actions behind it are carried out by the store, which has its own conditions.  When
the view has no mail, what is painted are the patches as they are, and each of the two can be said
by the patches: the selected ones are those that meet the selection (`selectedPatches_eq`), and the
submenu is the one of the patch that holds the cursor (`patchSection_eq`).

An action ends with pumping the view.  There is no cursor to follow, so that pumping renews what is
stale and publishes the selection, and leaves the patches alone (`exists_afterReply`).
-/

namespace HexEditor

/-! ## The entries of a menu -/

/-- The items of an entry: those of a submenu, or the entry itself. -/
def MenuEntry.items : MenuEntry → List MenuItem
  | .item i => [i]
  | .submenu _ items => items
  | .separator => []

/-- The items of an entry, together, if it is a submenu. -/
def MenuEntry.together : MenuEntry → List (List MenuItem)
  | .submenu _ items => [items]
  | _ => []

namespace ContextMenu

/-- All items of a menu, those of submenus included. -/
def items (m : ContextMenu) : List MenuItem := m.flatMap MenuEntry.items

/-- The items of each submenu. -/
def submenus (m : ContextMenu) : List (List MenuItem) := m.flatMap MenuEntry.together

/-- Separators do not count. -/
theorem flatMap_ofSections {α : Type} {f : MenuEntry → List α} (hf : f .separator = [])
    (sections : List (List MenuEntry)) :
    (ofSections sections).flatMap f = sections.flatMap (·.flatMap f) := by
  have hseparated : ∀ ss : List (List MenuEntry),
      (ss.intersperse [.separator]).flatten.flatMap f = ss.flatMap (·.flatMap f) := by
    intro ss
    induction ss with
    | nil => rfl
    | cons first rest ih =>
        cases rest with
        | nil => simp
        | cons second rest =>
            rw [List.intersperse_cons_cons, List.flatten_cons, List.flatten_cons,
              List.flatMap_append, List.flatMap_append, ih, List.flatMap_cons]
            simp [hf]
  unfold ofSections
  rw [hseparated]
  induction sections with
  | nil => rfl
  | cons first rest ih =>
      cases first with
      | nil => exact ih
      | cons entry more => exact congrArg (_ ++ ·) ih

end ContextMenu

/-! ## What is painted for the patches -/

/-- What is read off the painted regions that stand for patches is read off the patches. -/
theorem Grid.Honest.filterMap_painted {g : Grid} {p : Project} (hg : g.Honest)
    (hpatches : g.overlay.patches = p.patchRegions) (h : p.patches.set.WellFormed) {β : Type}
    {f : Region → Option β} {k : Patch → Option β}
    (hplain : ∀ r : Region, r.kind = .plain → f r = none)
    (hk : ∀ (r : Region) (q : Patch), q.Proper → r.StandsFor q → f (r.mark g.cursor.span) = k q) :
    g.overlay.painted.filterMap f = p.patches.set.values.filterMap k := by
  have hnone : ∀ rs : List Region, (∀ r ∈ rs, r.kind = .plain) →
      rs.filterMap (f ∘ Region.mark g.cursor.span) = [] := fun rs hrs =>
    List.filterMap_eq_nil_iff.2 fun r hr => hplain _ (hrs r hr)
  rw [hg.painted, List.filterMap_map, List.filterMap_append, List.filterMap_append,
    hnone _ hg.classification, hnone _ hg.synchronized, hpatches]
  exact Project.filterMap_patchRegions h hk

/-- The entry of the menu for a patch. -/
def Patch.menuEntry (p : Patch) (cursor : Nat) : MenuEntry :=
  .submenu ("Patch 0x" ++ Hexadecimal.lower p.addr ++ " (" ++ toString p.size ++ " bytes)")
    [{ label := "Split", action := .split p.addr cursor,
       enabled := p.addr < cursor ∧ cursor < p.stop },
      { label := "Set Comment...", action := .editComment p.addr },
      { label := "Revert", action := .revert p.addr }]

/-- The menu of a region is the one of its patch. -/
theorem Region.StandsFor.menu?_eq {r : Region} {p : Patch} (h : r.StandsFor p) (hp : p.Proper)
    (cursor : Nat) : (r.menu? cursor).map (·.toEntry cursor) = some (p.menuEntry cursor) := by
  have hsplit : r.canSplit cursor = decide (p.addr < cursor ∧ cursor < p.stop) := by
    simp [Region.canSplit, Region.isMutable, h.kind, h.addr, (h.bounds hp).2]
  unfold Region.menu?
  rw [if_pos (by simp [Region.isMutable, h.kind]), hsplit, h.addr, h.size]
  rfl

theorem eraseReps_of_pairwise_lt {l : List Nat} (h : l.Pairwise (· < ·)) :
    l.eraseReps = l := by
  have hloop : ∀ (a : Nat) (as acc : List Nat), (a :: as).Pairwise (· < ·) →
      List.eraseRepsBy.loop (· == ·) a as acc = acc.reverse ++ a :: as := by
    intro a as
    induction as generalizing a with
    | nil => intro acc _; simp [List.eraseRepsBy.loop]
    | cons b rest ih =>
        intro acc hsorted
        obtain ⟨hlt, hrest⟩ := List.pairwise_cons.1 hsorted
        have hne : (a == b) = false := beq_false_of_ne (hlt b List.mem_cons_self).ne
        rw [List.eraseRepsBy.loop, hne]
        dsimp only
        rw [ih b _ hrest]
        simp
  cases l with
  | nil => rfl
  | cons a as => exact hloop a as [] h

/-- Every address can be looked at. -/
theorem Scene.exists_value {s : Scene} (hs : s.around.project.patches.Sound) (addr : Nat) :
    ∃ v, s.value addr = .ok v := by
  obtain ⟨hheld, hlaid⟩ := PatchSet.wellFormed_iff.1 hs.wellFormed
  unfold Scene.value
  split
  · exact ⟨_, rfl⟩
  · exact ⟨_, rfl⟩
  · exact ⟨_, rfl⟩
  · unfold Project.read
    rw [PatchStore.read_eq hheld hlaid]
    exact ⟨_, rfl⟩

namespace Desk

variable {d e : Desk}

/-- The view has no mail of the patches, which it shows as they are, and no cursor to follow. -/
structure Quiet (d : Desk) : Prop where
  store : d.project.patches.Sound
  honest : d.view.grid.Honest
  mail : d.project.patches.changes.waiting d.view.patchInbox = []
  patches : d.view.grid.overlay.patches = d.project.patchRegions
  target : d.target? = none

/-- The patches that meet the selection, or the cursor where nothing is selected. -/
def picked (d : Desk) : List Patch :=
  d.project.patches.set.values.filter fun p =>
    p.Meets d.view.grid.cursor.span.first (d.view.grid.cursor.span.last + 1)

/-- The patches are the same, and nobody has been told anything. -/
structure Unmoved (d e : Desk) : Prop where
  set : e.project.patches.set = d.project.patches.set
  waiting : ∀ inbox, e.project.patches.changes.waiting inbox =
    d.project.patches.changes.waiting inbox

/-- The action behind an item has answered, and left the desk `e`, as the menu says. -/
structure Honors (d : Desk) (i : MenuItem) (answer : Except PatchError Unit) (e : Desk) : Prop where
  enabled : i.enabled = true → answer = .ok ()
  /-- Merging merges at least two patches that touch. -/
  merges : i.enabled = true → i.action = .mergeSelected →
    ∃ p ∈ d.project.patches.set.values, ∃ q ∈ d.project.patches.set.values, p.stop = q.addr ∧
      ∃ m ∈ e.project.patches.set.values, m.addr ≤ p.addr ∧ q.stop ≤ m.stop
  /-- Only splitting and merging are ever disabled. -/
  disabled : i.enabled = false →
    (∃ addr cut, i.action = .split addr cut ∧ answer = .error (.invalidSplit addr cut)) ∨
      i.action = .mergeSelected ∧ answer = .ok ()
  unmoved : i.enabled = false → Unmoved d e

/-- The menu keeps its word: each item but pasting does what the menu says, and there is a submenu
exactly when a patch holds the cursor, then one, whose actions are on such a patch. -/
def KeepsMenu (d : Desk) : Prop :=
  ∃ menu, d.contextMenu = .ok menu ∧
    (∀ i ∈ ContextMenu.items menu, i.action ≠ .paste →
      ∃ answer e, d.activate i.action = .ok (answer, e) ∧ Honors d i answer e) ∧
    (ContextMenu.submenus menu ≠ [] ↔
      ∃ p ∈ d.project.patches.set.values, d.view.grid.cursor.addr ∈ p) ∧
    (ContextMenu.submenus menu).length ≤ 1 ∧
    ∀ items ∈ ContextMenu.submenus menu, ∃ p ∈ d.project.patches.set.values,
      d.view.grid.cursor.addr ∈ p ∧ items.map (·.action) =
        [.split p.addr d.view.grid.cursor.addr, .editComment p.addr, .revert p.addr]

/-- The start addresses of the active regions that stand for patches are taken as they are painted, if
they ascend. -/
theorem selectedPatches_of_active {addrs : List Nat}
    (hactive : d.view.grid.overlay.active.filterMap Region.patchAddr? = addrs)
    (hsorted : addrs.Pairwise (· < ·)) : d.selectedPatches = addrs := by
  unfold selectedPatches
  rw [hactive, List.mergeSort_of_pairwise (hsorted.imp fun hlt => decide_eq_true hlt.le),
    eraseReps_of_pairwise_lt hsorted]

namespace Quiet

/-- The patches whose regions are active are those that the selection picks. -/
theorem activePatches_eq (h : d.Quiet) :
    d.view.grid.overlay.active.filterMap Region.patchAddr? = d.picked.map Patch.addr := by
  unfold Overlay.active picked
  set span := d.view.grid.cursor.span with hspan
  rw [List.filterMap_filter, ← List.filterMap_eq_filter, List.map_filterMap]
  refine h.honest.filterMap_painted h.patches h.store.wellFormed (fun r hr => ?_) ?_
  · simp [Region.patchAddr?, Region.isMutable, hr]
  · intro r q hq hr
    have hlast := (hr.bounds hq).1
    have hmeets : (r.mark span).active = decide (q.Meets span.first (span.last + 1)) := by
      rw [Bool.eq_iff_iff, decide_eq_true_iff]
      simp only [Region.mark, Region.overlaps, Patch.Meets, Bool.and_eq_true, decide_eq_true_eq,
        hr.addr]
      omega
    rw [hmeets, (hr.mark span).patchAddr?_eq, Option.guard]
    split <;> rfl

/-- The selected patches are those that meet the selection or the cursor. -/
theorem selectedPatches_eq (h : d.Quiet) : d.selectedPatches = d.picked.map Patch.addr := by
  obtain ⟨hheld, -⟩ := PatchSet.wellFormed_iff.1 h.store.wellFormed
  exact selectedPatches_of_active h.activePatches_eq
    (List.pairwise_map.2 (hheld.addr_lt.filter _))

/-- There is one submenu, that of the patch with the cursor, if there is such a patch. -/
theorem patchSection_eq (h : d.Quiet) : d.patchSection =
    (d.project.patches.set.values.find? fun p => d.view.grid.cursor.addr ∈ p).toList.map
      (·.menuEntry d.view.grid.cursor.addr) := by
  have hwellFormed := h.store.wellFormed
  obtain ⟨-, hlaid⟩ := PatchSet.wellFormed_iff.1 hwellFormed
  unfold patchSection Grid.regionsUnder
  set cursor := d.view.grid.cursor.addr with hcursor
  have hsections : (d.view.grid.overlay.painted.filter (·.contains cursor)).filterMap
      (fun r => (r.menu? cursor).map (·.toEntry cursor)) =
      (d.project.patches.set.values.find? fun p => cursor ∈ p).toList.map
        (·.menuEntry cursor) := by
    rw [← hlaid.filter_mem_eq, List.filterMap_filter, ← List.filterMap_eq_filter,
      List.map_filterMap]
    refine h.honest.filterMap_painted h.patches hwellFormed (fun r hr => ?_) ?_
    · simp [Region.menu?, Region.isMutable, hr]
    · intro r q hq hr
      have hmarked := hr.mark d.view.grid.cursor.span
      rw [hmarked.contains_eq hq, hmarked.menu?_eq hq, Option.guard]
      split <;> rfl
  have hperm := (List.mergeSort_perm (d.view.grid.overlay.painted.filter (·.contains cursor))
    fun r s => cursor - r.addr ≤ cursor - s.addr).filterMap
      fun r => (r.menu? cursor).map (·.toEntry cursor)
  rw [hsections] at hperm
  -- a list of at most one element has no other order
  cases hfind : d.project.patches.set.values.find? fun p => cursor ∈ p with
  | none =>
      rw [hfind] at hperm
      exact List.perm_nil.1 hperm
  | some p =>
      rw [hfind] at hperm
      exact List.perm_singleton.1 hperm

/-! ## Carrying out actions -/

/-- Pumping a view without a cursor to follow leaves the patches alone, and reads no mail when there
is none. -/
theorem exists_pump (h : d.target? = none) : ∃ b e, d.pump = .ok (b, e) ∧
    e.project.patches.set = d.project.patches.set ∧
      (d.project.patches.changes.waiting d.view.patchInbox = [] → Unmoved d e) := by
  obtain ⟨b, hpump⟩ := pump_of_no_target h
  have hproject : d.renewed.publishSelection.project.patches = { d.project.patches with
      changes := (d.project.patches.changes.collect d.view.patchInbox).2 } := by
    rw [publishSelection_project, (renews_renewed d).project]
  refine ⟨b, _, hpump, by rw [hproject], fun hmail => ⟨by rw [hproject], fun inbox => ?_⟩⟩
  rw [hproject]
  exact Broadcast.waiting_collect_of_nil hmail inbox

theorem exists_afterReply (h : d.Quiet) {α : Type} (reply : PatchStore.Reply α) :
    ∃ e, d.afterReply reply = .ok (reply.answer, e) ∧
      e.project.patches.set = reply.store.set ∧
        (reply.store = d.project.patches → Unmoved d e) := by
  obtain ⟨answer, store⟩ := reply
  obtain ⟨b, e, hpump, hset, hunmoved⟩ :=
    exists_pump (d := { d with project := { d.project with patches := store } }) h.target
  refine ⟨e, ?_, hset, ?_⟩
  · unfold afterReply
    dsimp only
    rw [hpump]
    rfl
  · rintro rfl
    exact hunmoved h.mail

/-- Everything that can be shown can be copied. -/
theorem exists_copy (h : d.Quiet) : ∃ e, d.activate .copy = .ok (.ok (), e) := by
  have hcopy : ∃ n clipboard, d.copySelection =
      .ok (n, { d with view := { d.view with clipboard } }) := by
    unfold copySelection
    cases d.view.grid.cursor.selection? with
    | none => exact ⟨_, _, rfl⟩
    | some span =>
        obtain ⟨bytes, hbytes⟩ : ∃ bytes,
            (span.toList.mapM fun addr => do return (← d.scene.value addr).getD 0) = .ok bytes := by
          refine Checked.exists_mapM_iff.2 fun a _ => ?_
          obtain ⟨v, hv⟩ := Scene.exists_value (s := d.scene) h.store a
          exact ⟨v.getD 0, by rw [hv]; rfl⟩
        dsimp only
        rw [hbytes]
        exact ⟨_, _, rfl⟩
  obtain ⟨n, clipboard, hcopy⟩ := hcopy
  obtain ⟨b, e, hpump, -⟩ :=
    exists_pump (d := { d with view := { d.view with clipboard } }) h.target
  refine ⟨e, ?_⟩
  unfold activate
  dsimp only
  rw [hcopy, Checked.ok_bind]
  dsimp only
  rw [hpump]
  rfl

/-- Splitting a patch at the cursor. -/
theorem exists_split (h : d.Quiet) {p : Patch} (hp : p ∈ d.project.patches.set.values)
    (cut : Nat) : ∃ answer e, d.activate (.split p.addr cut) = .ok (answer, e) ∧
      (p.addr < cut ∧ cut < p.stop → answer = .ok ()) ∧
      (¬ (p.addr < cut ∧ cut < p.stop) →
        answer = .error (.invalidSplit p.addr cut) ∧ Unmoved d e) := by
  obtain ⟨hheld, hlaid⟩ := PatchSet.wellFormed_iff.1 h.store.wellFormed
  by_cases hinside : p.addr < cut ∧ cut < p.stop
  · obtain ⟨before, after, hps⟩ := List.append_of_mem hp
    rw [hps] at hheld hlaid
    obtain ⟨t, low, high, hsplit, -⟩ :=
      PatchStore.split_eq hheld hlaid hinside.1 hinside.2
    obtain ⟨e, hreply, -⟩ := h.exists_afterReply ⟨.ok (), d.project.patches.changedTo t⟩
    refine ⟨.ok (), e, ?_, fun _ => rfl, fun hnot => absurd hinside hnot⟩
    unfold activate
    dsimp only
    rw [hsplit]
    exact hreply
  · have hsplit : d.project.patches.split p.addr cut =
        .ok (d.project.patches.refuse (.invalidSplit p.addr cut)) := by
      unfold PatchStore.split
      rw [hheld.get?_eq_some_iff.2 ⟨hp, rfl⟩]
      dsimp only
      rw [PatchStore.canSplit_eq hheld hlaid hp, decide_eq_false hinside]
      rfl
    obtain ⟨e, hreply, -, hunmoved⟩ :=
      h.exists_afterReply (d.project.patches.refuse (α := Unit) (.invalidSplit p.addr cut))
    refine ⟨_, e, ?_, fun hin => absurd hin hinside, fun _ => ⟨rfl, hunmoved rfl⟩⟩
    unfold activate
    dsimp only
    rw [hsplit]
    exact hreply

theorem exists_editComment (h : d.Quiet) (addr : Nat) :
    ∃ e, d.activate (.editComment addr) = .ok (.ok (), e) := by
  obtain ⟨e, hreply, -⟩ := h.exists_afterReply (α := Unit) ⟨.ok (), d.project.patches⟩
  exact ⟨e, hreply⟩

theorem exists_revert (h : d.Quiet) {p : Patch} (hp : p ∈ d.project.patches.set.values) :
    ∃ e, d.activate (.revert p.addr) = .ok (.ok (), e) := by
  obtain ⟨hheld, -⟩ := PatchSet.wellFormed_iff.1 h.store.wellFormed
  obtain ⟨before, after, hps⟩ := List.append_of_mem hp
  rw [hps] at hheld
  obtain ⟨t, hrevert, -⟩ := PatchStore.revert_eq hheld
  obtain ⟨e, hreply, -⟩ := h.exists_afterReply ⟨.ok p, d.project.patches.changedTo t⟩
  refine ⟨e, ?_⟩
  unfold activate
  dsimp only
  rw [hrevert, hreply]
  rfl

/-- Each of the selected patches is there to be reverted. -/
theorem exists_revertAll (h : d.Quiet) : ∃ store,
    d.project.patches.revertAll d.selectedPatches = ⟨.ok (), store⟩ ∧
      store.set.values = d.project.patches.set.values.filter (· ∉ d.picked) := by
  obtain ⟨hheld, hlaid⟩ := PatchSet.wellFormed_iff.1 h.store.wellFormed
  rw [h.selectedPatches_eq]
  by_cases hnone : d.picked = []
  · refine ⟨d.project.patches, by rw [hnone]; rfl, ?_⟩
    rw [hnone]
    exact (List.filter_eq_self.2 (by simp)).symm
  · have hfound : ∀ a ∈ d.picked.map Patch.addr,
        ∃ p ∈ d.project.patches.set.values, p.addr = a := by
      intro a ha
      obtain ⟨p, hp, rfl⟩ := List.mem_map.1 ha
      exact ⟨p, List.mem_of_mem_filter hp, rfl⟩
    obtain ⟨t, hrevert, ht⟩ := PatchStore.revertAll_eq hheld (by simpa using hnone) hfound
    refine ⟨_, hrevert, ht.values_eq.trans (List.filter_congr fun p hp => ?_)⟩
    rw [decide_eq_decide, not_iff_not, List.mem_map]
    constructor
    · rintro ⟨q, hq, haddr⟩
      exact hlaid.eq_of_addr_eq (List.mem_of_mem_filter hq) hp haddr ▸ hq
    · exact fun hq => ⟨p, hq, rfl⟩

theorem exists_revertSelected (h : d.Quiet) :
    ∃ e, d.activate .revertSelected = .ok (.ok (), e) := by
  obtain ⟨store, hrevert, -⟩ := h.exists_revertAll
  obtain ⟨e, hreply, -⟩ := h.exists_afterReply (α := Unit) ⟨.ok (), store⟩
  refine ⟨e, ?_⟩
  unfold activate revertSelected
  dsimp only
  rw [hrevert, hreply]
  rfl

/-- The runs that would be merged are those of the selected patches. -/
theorem mergeableRuns_eq (h : d.Quiet) : d.mergeableRuns =
    .ok (((touchingRuns d.picked).filter (1 < ·.length)).map (·.map Patch.addr)) := by
  obtain ⟨hheld, hlaid⟩ := PatchSet.wellFormed_iff.1 h.store.wellFormed
  have hsub : d.picked ⊆ d.project.patches.set.values := fun _ hp => List.mem_of_mem_filter hp
  unfold mergeableRuns
  rw [h.selectedPatches_eq, runs_eq hheld hlaid hsub, Checked.ok_bind, List.filter_map]
  simp only [Function.comp_def, List.length_map]
  rfl

theorem canMergeSelected_eq (h : d.Quiet) : d.canMergeSelected =
    .ok !((touchingRuns d.picked).filter (1 < ·.length)).isEmpty := by
  unfold canMergeSelected
  rw [h.mergeableRuns_eq, Checked.ok_bind, List.isEmpty_map]
  rfl

/-- All of them are merged, and the other patches are left. -/
theorem exists_mergeRuns (h : d.Quiet) : ∃ store before after,
    mergeRuns d.project.patches
        (((touchingRuns d.picked).filter (1 < ·.length)).map (·.map Patch.addr)) =
      .ok ⟨.ok (), store⟩ ∧
      d.project.patches.set.values = before ++ (d.picked ++ after) ∧
      store.set.values = before ++ (mergeTouching d.picked ++ after) ∧
      (∀ p ∈ before, p.stop ≤ d.view.grid.cursor.span.first) ∧
      ∀ p ∈ after, d.view.grid.cursor.span.last + 1 ≤ p.addr := by
  obtain ⟨hheld, hlaid⟩ := PatchSet.wellFormed_iff.1 h.store.wellFormed
  obtain ⟨before, meeting, after, hvalues, hbefore, hmeets, hafter⟩ := hlaid.exists_meeting
    d.view.grid.cursor.span.first (d.view.grid.cursor.span.last + 1)
  have hpicked : d.picked = meeting := by
    rw [picked, hvalues]
    exact filter_meets_eq hbefore hmeets hafter
  rw [← hpicked] at hvalues
  rw [hvalues, ← flatten_touchingRuns d.picked] at hheld hlaid
  obtain ⟨store, hmerge, hstore⟩ :=
    mergeRuns_eq hheld hlaid fun _ => touching_of_mem_touchingRuns
  exact ⟨store, before, after, hmerge, hvalues, hstore.values_eq, hbefore, hafter⟩

/-- Merging the selected patches, whether or not any of them touch. -/
theorem exists_mergeSelected (h : d.Quiet) : ∃ can e, d.canMergeSelected = .ok can ∧
    d.activate .mergeSelected = .ok (.ok (), e) ∧
    (can = true → ∃ p ∈ d.project.patches.set.values, ∃ q ∈ d.project.patches.set.values,
      p.stop = q.addr ∧
        ∃ m ∈ e.project.patches.set.values, m.addr ≤ p.addr ∧ q.stop ≤ m.stop) ∧
    (can = false → Unmoved d e) := by
  obtain ⟨store, before, after, hmerge, hvalues, hleft, -⟩ := h.exists_mergeRuns
  obtain ⟨e, hreply, hset, hunmoved⟩ := h.exists_afterReply (α := Unit) ⟨.ok (), store⟩
  refine ⟨_, e, h.canMergeSelected_eq, ?_, fun hcan => ?_, fun hcan => ?_⟩
  · unfold activate mergeSelected
    dsimp only
    rw [h.mergeableRuns_eq, Checked.ok_bind, hmerge, Checked.ok_bind, hreply]
    rfl
  · have hsome : (touchingRuns d.picked).filter (1 < ·.length) ≠ [] := by simpa using hcan
    obtain ⟨g, hg⟩ := List.exists_mem_of_ne_nil _ hsome
    obtain ⟨hrun, hlength⟩ := List.mem_filter.1 hg
    have htouch := touching_of_mem_touchingRuns hrun
    have hmem : g ⊆ d.project.patches.set.values := fun p hp => by
      rw [hvalues]
      simp [mem_of_mem_touchingRuns hrun hp]
    match g, hlength with
    | p :: q :: run, _ =>
        refine ⟨p, hmem (by simp), q, hmem (by simp), (List.isChain_cons_cons.1 htouch).1,
          merged p (q :: run), ?_, (merged_addr p _).le, (merged_covers htouch (by simp)).2⟩
        have hmerged : merged p (q :: run) ∈ mergeTouching d.picked :=
          List.mem_filterMap.2 ⟨_, hrun, rfl⟩
        rw [hset, hleft]
        exact List.mem_append_right _ (List.mem_append_left _ hmerged)
  · have hnil : (touchingRuns d.picked).filter (1 < ·.length) = [] := by simpa using hcan
    rw [hnil] at hmerge
    obtain ⟨-, ht⟩ := PatchStore.Reply.mk.inj (Except.ok.inj hmerge)
    exact hunmoved ht.symm

/-! ## The menu -/

/-- An action that only ever is offered enabled. -/
theorem honors_of_ok {i : MenuItem} (henabled : i.enabled = true)
    (hmerge : i.action ≠ .mergeSelected) (e : Desk) : Honors d i (.ok ()) e := by
  refine ⟨fun _ => rfl, fun _ h => absurd h hmerge, fun h => ?_, fun h => ?_⟩
  all_goals
    rw [henabled] at h
    cases h

theorem honors_clipboard (h : d.Quiet) {i : MenuItem}
    (hi : i ∈ d.clipboardSection.flatMap MenuEntry.items) (hpaste : i.action ≠ .paste) :
    ∃ answer e, d.activate i.action = .ok (answer, e) ∧ Honors d i answer e := by
  obtain ⟨entry, hentry, hitem⟩ := List.mem_flatMap.1 hi
  unfold clipboardSection at hentry
  rcases List.mem_append.1 hentry with hentry | hentry
  · split at hentry
    · obtain rfl := List.mem_singleton.1 hentry
      obtain rfl := List.mem_singleton.1 hitem
      obtain ⟨e, hcopy⟩ := h.exists_copy
      exact ⟨_, e, hcopy, honors_of_ok rfl (by simp) e⟩
    · cases hentry
  · split at hentry
    · obtain rfl := List.mem_singleton.1 hentry
      obtain rfl := List.mem_singleton.1 hitem
      exact absurd rfl hpaste
    · cases hentry

theorem honors_patch (h : d.Quiet) {i : MenuItem}
    (hi : i ∈ d.patchSection.flatMap MenuEntry.items) :
    ∃ answer e, d.activate i.action = .ok (answer, e) ∧ Honors d i answer e := by
  rw [h.patchSection_eq] at hi
  obtain ⟨entry, hentry, hitem⟩ := List.mem_flatMap.1 hi
  obtain ⟨p, hfound, rfl⟩ := List.mem_map.1 hentry
  have hp : p ∈ d.project.patches.set.values :=
    List.mem_of_find?_eq_some (Option.mem_toList.1 hfound)
  change i ∈ ([_, _, _] : List MenuItem) at hitem
  simp only [List.mem_cons, List.not_mem_nil, or_false] at hitem
  obtain rfl | rfl | rfl := hitem
  · obtain ⟨answer, e, hsplit, hinside, houtside⟩ := h.exists_split hp d.view.grid.cursor.addr
    refine ⟨answer, e, hsplit, fun hon => hinside (of_decide_eq_true hon),
      fun _ hmerge => absurd hmerge (by simp), fun hoff => ?_,
      fun hoff => (houtside (of_decide_eq_false hoff)).2⟩
    exact .inl ⟨_, _, rfl, (houtside (of_decide_eq_false hoff)).1⟩
  · obtain ⟨e, hcomment⟩ := h.exists_editComment p.addr
    exact ⟨_, e, hcomment, honors_of_ok rfl (by simp) e⟩
  · obtain ⟨e, hrevert⟩ := h.exists_revert hp
    exact ⟨_, e, hrevert, honors_of_ok rfl (by simp) e⟩

theorem honors_selection (h : d.Quiet) : ∃ entries, d.selectionSection = .ok entries ∧
    entries.flatMap MenuEntry.together = [] ∧
    ∀ i ∈ entries.flatMap MenuEntry.items,
      ∃ answer e, d.activate i.action = .ok (answer, e) ∧ Honors d i answer e := by
  unfold selectionSection
  split
  · exact ⟨[], rfl, rfl, nofun⟩
  · next hsome =>
      obtain ⟨can, e, hcan, hmerge, hmerged, hunmoved⟩ := h.exists_mergeSelected
      refine ⟨_, by rw [hcan, Checked.ok_bind]; rfl, rfl, fun i hi => ?_⟩
      change i ∈ ([_, _] : List MenuItem) at hi
      simp only [List.mem_cons, List.not_mem_nil, or_false] at hi
      obtain rfl | rfl := hi
      · exact ⟨_, e, hmerge, fun _ => rfl, fun hon _ => hmerged hon,
          fun _ => .inr ⟨rfl, rfl⟩, hunmoved⟩
      · obtain ⟨e, hrevert⟩ := h.exists_revertSelected
        exact ⟨_, e, hrevert, honors_of_ok rfl (by simp) e⟩

theorem keepsMenu (h : d.Quiet) : d.KeepsMenu := by
  obtain ⟨entries, hentries, halone, hhonors⟩ := h.honors_selection
  let menu : ContextMenu := .ofSections [d.clipboardSection, d.patchSection, entries]
  have hitems : ∀ i ∈ menu.items, i.action ≠ .paste →
      ∃ answer e, d.activate i.action = .ok (answer, e) ∧ Honors d i answer e := by
    intro i hi hpaste
    rw [ContextMenu.items, ContextMenu.flatMap_ofSections rfl] at hi
    simp only [List.flatMap_cons, List.flatMap_nil, List.append_nil, List.mem_append] at hi
    rcases hi with hi | hi | hi
    · exact h.honors_clipboard hi hpaste
    · exact h.honors_patch hi
    · exact hhonors i hi
  have hclipboard : d.clipboardSection.flatMap MenuEntry.together = [] := by
    unfold clipboardSection
    dsimp only
    split <;> split <;> rfl
  have hsubmenus : menu.submenus =
      (d.project.patches.set.values.find? fun p => d.view.grid.cursor.addr ∈ p).toList.flatMap
        fun p => (p.menuEntry d.view.grid.cursor.addr).together := by
    rw [ContextMenu.submenus, ContextMenu.flatMap_ofSections rfl]
    simp only [List.flatMap_cons, List.flatMap_nil, List.append_nil, hclipboard, halone,
      List.nil_append, h.patchSection_eq, List.flatMap_map]
  refine ⟨menu, by unfold contextMenu; rw [hentries]; rfl, hitems, ?_⟩
  rw [hsubmenus]
  cases hfind : d.project.patches.set.values.find? fun p => d.view.grid.cursor.addr ∈ p with
  | none =>
      refine ⟨iff_of_false (fun hne => hne rfl) ?_, Nat.zero_le _, nofun⟩
      rintro ⟨p, hp, hmem⟩
      exact absurd hmem (by simpa using List.find?_eq_none.1 hfind p hp)
  | some p =>
      have hp : p ∈ d.project.patches.set.values := List.mem_of_find?_eq_some hfind
      have hmem : d.view.grid.cursor.addr ∈ p := by simpa using List.find?_some hfind
      refine ⟨iff_of_true (List.cons_ne_nil _ _) ⟨p, hp, hmem⟩, Nat.le_refl _, fun items hitems => ?_⟩
      obtain rfl := List.mem_singleton.1 hitems
      exact ⟨p, hp, hmem, rfl⟩

end Quiet

/-- The menu offers to revert what any painted region under the cursor stands for, whether or not
there is such a patch. -/
theorem offers_revert {menu : ContextMenu} (hmenu : d.contextMenu = .ok menu) {r : Region}
    (hr : r ∈ d.view.grid.overlay.painted) (hkind : r.kind = .patch)
    (hcontains : r.contains d.view.grid.cursor.addr = true) :
    { label := "Revert", action := .revert r.addr : MenuItem } ∈ menu.items := by
  obtain ⟨entries, -, hmenu⟩ := Checked.bind_eq_ok_iff.1 hmenu
  obtain rfl := Except.ok.inj hmenu
  rw [ContextMenu.items, ContextMenu.flatMap_ofSections rfl]
  have hunder : r ∈ d.view.grid.regionsUnder :=
    List.mem_mergeSort.2 (List.mem_filter.2 ⟨hr, hcontains⟩)
  obtain ⟨m, hm, haddr, hitems⟩ : ∃ m, r.menu? d.view.grid.cursor.addr = some m ∧
      m.patchAddr = r.addr ∧ (RegionAction.revert, true) ∈ m.items := by
    unfold Region.menu?
    rw [if_pos (by simp [Region.isMutable, hkind])]
    exact ⟨_, rfl, rfl, by simp⟩
  have hentry : m.toEntry d.view.grid.cursor.addr ∈ d.patchSection :=
    List.mem_filterMap.2 ⟨r, hunder, by rw [hm]; rfl⟩
  refine List.mem_flatMap.2 ⟨d.patchSection, by simp, List.mem_flatMap.2 ⟨_, hentry, ?_⟩⟩
  rw [← haddr]
  exact List.mem_map.2 ⟨_, hitems, rfl⟩

end Desk

namespace Workspace

variable {w : Workspace} {v : Nat} {s : Seat}

/-- In a workspace where it is left to the views which regions stand for patches, the menu of a
view for which no mail waits keeps its word. -/
theorem tended_keepsMenu (hw : w.Tended) (hs : w.seat? v = some s)
    (hpatches : (w.project s.project).patches.changes.waiting s.view.patchInbox = [])
    (hgroup : (w.group s.group).events.waiting s.view.syncInbox = []) :
    (w.desk s).KeepsMenu := by
  have hview := hw.sound.view v s hs
  have htarget : (w.desk s).target? = none := by
    change Desk.followTarget? _ ((w.group s.group).events.waiting s.view.syncInbox) = none
    rw [hgroup]
    rfl
  exact Desk.Quiet.keepsMenu ⟨hw.sound.store_project s.project, hview.honest, hpatches,
    hview.patches.resolve_left fun hne => hne hpatches, htarget⟩

/-- A view with a patch under its cursor, the second byte of which it has reached. -/
theorem tended_keepsMenu_second_byte : ∃ w s, Tended w ∧ w.seat? 0 = some s ∧
    (w.project s.project).patches.changes.waiting s.view.patchInbox = [] ∧
    (w.group s.group).events.waiting s.view.syncInbox = [] ∧ (w.desk s).KeepsMenu := by
  have hstart : Initial { projects := [{ image := .ofBytes 0 [0, 1, 2, 3, 4, 5, 6, 7] }] } :=
    ⟨by simp, rfl, rfl⟩
  have hopened := (Tended.start hstart).request (r := .openView 0 0 {}) Nat.one_pos rfl
  have hpatched := hopened.request (r := .patches 0 (.write 2 [16, 17, 18])) trivial rfl
  have hjumped := hpatched.request (r := .view 0 (.jumpTo 3)) trivial rfl
  have hpumped := hjumped.request (r := .view 0 .pump) trivial rfl
  obtain ⟨w, s, hw, hs, hpatches, hgroup⟩ : ∃ w s, Tended w ∧ w.seat? 0 = some s ∧
      (w.project s.project).patches.changes.waiting s.view.patchInbox = [] ∧
      (w.group s.group).events.waiting s.view.syncInbox = [] := ⟨_, _, hpumped, rfl, rfl, rfl⟩
  exact ⟨w, s, hw, hs, hpatches, hgroup, tended_keepsMenu hw hs hpatches hgroup⟩

/-- The grid of a view has been given a region that stands for a patch, and there is none. -/
theorem not_attained_keepsMenu : ¬ ∀ (w : Workspace) (v : Nat) (s : Seat), w.Attained →
    w.seat? v = some s →
    (w.project s.project).patches.changes.waiting s.view.patchInbox = [] →
    (w.group s.group).events.waiting s.view.syncInbox = [] → (w.desk s).KeepsMenu := by
  intro hall
  have hstart : Initial { projects := [{ image := .ofBytes 0 [0, 1, 2, 3, 4, 5, 6, 7] }] } :=
    ⟨by simp, rfl, rfl⟩
  have hopened := (Attained.start hstart).request (r := .openView 0 0 {}) Nat.one_pos rfl
  have hgiven := hopened.command (v := 0)
    (c := .setPatches [⟨.patch, 0, 2, false, .patch, by decide, by decide⟩]) rfl rfl rfl
  obtain ⟨menu, hmenu, hitems, -⟩ := hall _ 0 _ hgiven rfl rfl rfl
  obtain ⟨answer, e, hact, hhonors⟩ := hitems _
    (Desk.offers_revert hmenu (List.mem_singleton_self _) rfl rfl) (by simp)
  have hrefused : (Except.ok (.error (.notFound 0)) : Checked (Except PatchError Unit)) =
      .ok answer := congrArg (Except.map Prod.fst) hact
  rw [hhonors.enabled rfl] at hrefused
  cases hrefused

end Workspace

end HexEditor
