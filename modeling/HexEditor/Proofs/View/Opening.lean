import HexEditor.Proofs.View.Request

/-!
# Opening and closing a view

A new view joins its group and subscribes to the store and to the group, under numbers that nobody
has, and starts out remembering everything as it is (`openView_spec`).  It can be opened unless the
loaded bytes reach from the first row of the address space to its end (`exists_openView_iff`).  A
view that is closed leaves its group and both mailboxes.  In either case the others are told of
what concerns them.
-/

namespace HexEditor.Desk

variable {p : Project} {g : SyncGroup} {options : ViewOptions} {now first last : Nat} {d : Desk}
  {grid : Grid}

/-- What opening a view makes of a project and a group. -/
structure Opened (p : Project) (g : SyncGroup) (d : Desk) : Prop where
  inStep : d.view.InStep d.project d.group
  current : d.view.Current d.project d.group
  sound : d.Sound
  member : d.view.member = g.nextId
  patchInbox : d.view.patchInbox = p.patches.changes.nextId
  syncInbox : d.view.syncInbox = g.events.nextId
  store : ∀ inbox, p.patches.Tells inbox d.project.patches
  group : ∀ me inbox, g.Tells me inbox d.group
  record : ∀ me ≠ g.nextId, d.group.members.get? me = g.members.get? me
  memberCount : d.group.memberCount = g.memberCount + 1
  image : d.project.image = p.image

theorem settle_spec (hstore : p.patches.Sound) (hgroup : g.Sound)
    (hgrid : grid.source = some .project ∧ grid.listeners = [] ∧ grid.cursor.moving = false) :
    Opened p g (settle p g options now grid) := by
  obtain ⟨hsource, hlisteners, hmoving⟩ := hgrid
  have hjoined := hgroup.join
  have hgroupSelf := hjoined.fresh.subscribe_self
  have hstoreSelf := hstore.fresh.subscribe_self
  have hseated : (settle p g options now grid).view.Seated (settle p g options now grid).project
      (settle p g options now grid).group := by
    refine ⟨⟨?_, hsource, hmoving⟩, ?_, hstoreSelf.1, hgroupSelf.1, SyncGroup.join_get?_self g⟩
    · change grid.listeners ++ [Listener.viewUpkeep] = _
      rw [hlisteners]
      rfl
    · refine Grid.Painted.setSynchronized (Grid.Painted.setPatches
        (Grid.Painted.setClassification ?_) _) _
      split
      · exact ItemMap.highlights_plain _ _
      · simp
  have hcurrent : (settle p g options now grid).view.Current (settle p g options now grid).project
      (settle p g options now grid).group := ⟨rfl, alwaysShow_setAlwaysShow _ _, rfl⟩
  refine ⟨hseated.inStep hcurrent, hcurrent, ?_, rfl, rfl, rfl, ?_, ?_, ?_,
    SyncGroup.join_memberCount hgroup, rfl⟩
  · exact ⟨⟨hstore.wellFormed, hstore.fresh.subscribe⟩, ⟨hjoined.member_lt, hjoined.fresh.subscribe⟩⟩
  · exact fun inbox => .of_changes (Broadcast.subscribe_delivers inbox _)
  · exact fun me inbox => (SyncGroup.join_tells hgroup me inbox).trans
      (.of_events (Broadcast.subscribe_delivers inbox _))
  · exact fun me hne => OrderedMap.get?_insert_of_ne hne

/-- The grid of a new view: it shows the region from `start` on, with the cursor on the first
address. -/
def firstGrid (options : ViewOptions) (start size rowCount : Nat) : Grid :=
  let grid := (Grid.create options.metrics).setBlinkInterval options.blinkInterval
  { grid with
    sheet := { start, stop := clampedAdd start size, rowCount, layout := .ofMetrics options.metrics }
    cursor := (grid.cursor.setBounds start (clampedAdd start size)).2
    source := some .project }.updateActive

/-- The region of the project with the number of its rows.  Whether a view can be opened depends
on nothing else. -/
def frame (p : Project) : Checked (Nat × Nat × Nat) := do
  let region ← p.region
  return (region.1, region.2, ← Sheet.rowsFor region.1 region.2)

theorem frame_congr {q : Project} (h : p.image = q.image) : frame p = frame q := by
  unfold frame Project.region Project.bounds?
  rw [h]

/-- The region of a project and its rows are known unless the region takes up all rows that there
are. -/
theorem frame_eq (hbounds : p.bounds? = .ok (some ⟨first, last⟩)) (hle : first ≤ last)
    (hmax : last ≤ maxAddress) :
    frame p = if first < bytesPerRow ∧ last = maxAddress then .error .overflow
      else .ok (first, last - first + 1, last / bytesPerRow - first / bytesPerRow + 1) := by
  have hspace : maxAddress = 18446744073709551615 := by decide
  unfold frame Project.region
  rw [hbounds]
  by_cases hall : first < bytesPerRow ∧ last = maxAddress
  · rw [if_pos hall]
    unfold bytesPerRow at hall
    by_cases hsize : last - first + 1 ≤ maxAddress
    · have hrows : Sheet.rowsFor first (last - first + 1) = .error .overflow := by
        unfold Sheet.rowsFor bytesPerRow checkedAdd
        rw [if_neg (by omega), if_neg (by omega)]
        rfl
      simp only [Checked.ok_bind, checkedAdd_of_le hsize, Checked.pure_eq_ok, hrows,
        Checked.error_bind]
    · have hnone : checkedAdd (last - first) 1 = .error .overflow := if_neg hsize
      simp only [Checked.ok_bind, hnone, Checked.error_bind]
  · rw [if_neg hall]
    unfold bytesPerRow at hall
    have hsize : last - first + 1 ≤ maxAddress := by omega
    have hrows : Sheet.rowsFor first (last - first + 1) =
        .ok (last / bytesPerRow - first / bytesPerRow + 1) := by
      unfold Sheet.rowsFor bytesPerRow
      rw [if_neg (by omega), checkedAdd_of_le (by omega)]
      refine congrArg Except.ok ?_
      omega
    simp only [Checked.ok_bind, checkedAdd_of_le hsize, Checked.pure_eq_ok, hrows]

theorem openView_eq (p : Project) (g : SyncGroup) (options : ViewOptions) (now : Nat) :
    openView p g options now =
      frame p >>= fun f => .ok (settle p g options now (firstGrid options f.1 f.2.1 f.2.2)) := by
  unfold openView frame Grid.setRegion Sheet.create
  cases p.region with
  | error e => rfl
  | ok region =>
      obtain ⟨start, size⟩ := region
      dsimp only [Checked.ok_bind]
      cases Sheet.rowsFor start size <;> rfl

theorem exists_openView_iff (hbounds : p.bounds? = .ok (some ⟨first, last⟩)) (hle : first ≤ last)
    (hmax : last ≤ maxAddress) :
    (∃ d, openView p g options now = .ok d) ↔ bytesPerRow ≤ first ∨ last < maxAddress := by
  rw [openView_eq, frame_eq hbounds hle hmax]
  split
  · next hall =>
      refine iff_of_false ?_ (by omega)
      rintro ⟨d, hopen⟩
      cases hopen
  · next hall => exact iff_of_true ⟨_, rfl⟩ (by omega)

/-- A view that has been opened is in step, and the others have been told. -/
theorem openView_spec (hstore : p.patches.Sound) (hgroup : g.Sound)
    (hopen : openView p g options now = .ok d) : Opened p g d := by
  rw [openView_eq] at hopen
  obtain ⟨f, -, hdesk⟩ := Checked.bind_eq_ok_iff.1 hopen
  obtain rfl := Except.ok.inj hdesk
  exact settle_spec hstore hgroup ⟨rfl, rfl, rfl⟩

/-- The region of a new view ends in the address space. -/
theorem openView_bounded (hopen : openView p g options now = .ok d) :
    d.view.grid.cursor.stop ≤ maxAddress := by
  rw [openView_eq] at hopen
  obtain ⟨f, -, hdesk⟩ := Checked.bind_eq_ok_iff.1 hopen
  obtain rfl := Except.ok.inj hdesk
  exact clampedAdd_le _ _

/-! ## Closing -/

theorem close_sound (hd : d.Sound) : d.close.1.patches.Sound ∧ d.close.2.Sound := by
  have hleft := hd.group.leave d.view.member
  exact ⟨⟨hd.store.wellFormed, hd.store.fresh.unsubscribe _⟩,
    ⟨hleft.member_lt, hleft.fresh.unsubscribe _⟩⟩

theorem close_store (d : Desk) {inbox : SubscriberId} (hne : inbox ≠ d.view.patchInbox) :
    d.project.patches.Tells inbox d.close.1.patches :=
  .of_changes (Broadcast.unsubscribe_delivers _ hne.symm)

theorem close_group (d : Desk) {me : MemberId} {inbox : SubscriberId} (hme : me ≠ d.view.member)
    (hne : inbox ≠ d.view.syncInbox) : d.group.Tells me inbox d.close.2 :=
  (SyncGroup.leave_tells d.group hme.symm inbox).trans
    (.of_events (Broadcast.unsubscribe_delivers _ hne.symm))

theorem close_record (d : Desk) {me : MemberId} (hme : me ≠ d.view.member) :
    d.close.2.members.get? me = d.group.members.get? me :=
  SyncGroup.leave_get?_of_ne d.group hme

theorem close_memberCount (d : Desk) {ranges : List AddrRange}
    (hget : d.group.members.get? d.view.member = some ranges) :
    d.close.2.memberCount + 1 = d.group.memberCount := SyncGroup.leave_memberCount hget

end HexEditor.Desk
