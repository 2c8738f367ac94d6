import HexEditor.Proofs.View.InStep

/-!
# Pumping

Pumping goes through four stages: the mailboxes are emptied, what their events ask for is
renewed, the cursor follows another member, and the selection is published.  After the second
stage the view remembers everything as it is (`current_renew`).  Following announces cursor moves
and publishing announces the view's own ranges, and neither is anything that the view remembers
of others; so nothing is stale when pumping ends, and the record is the selection of that moment
(`pumped_spec`).
-/

namespace HexEditor.Desk

variable {d e : Desk} {addr : Nat}

/-! ## Emptying the mailboxes -/

theorem leads_emptyInboxes (d : Desk) : Leads d d.emptyInboxes where
  member := rfl
  patchInbox := rfl
  syncInbox := rfl
  sound hd := ⟨⟨hd.store.wellFormed, hd.store.fresh.collect _⟩,
    ⟨hd.group.member_lt, hd.group.fresh.collect _⟩⟩
  store _ hne := .of_changes (Broadcast.collect_delivers _ hne.symm)
  group _ _ _ hne := .of_events (Broadcast.collect_delivers _ hne.symm)
  record _ _ := rfl

theorem seated_emptyInboxes (h : d.view.Seated d.project d.group) :
    d.emptyInboxes.view.Seated d.emptyInboxes.project d.emptyInboxes.group :=
  ⟨h.ofView, h.painted, h.hearsPatches.collect_self.1, h.hearsGroup.collect_self.1, h.record⟩

/-! ## Renewing -/

section Renew

variable {patches members regions : Bool}

theorem renew_project : (d.renew patches members regions).project = d.project := by
  cases patches <;> cases members <;> cases regions <;> rfl

theorem renew_group : (d.renew patches members regions).group = d.group := by
  cases patches <;> cases members <;> cases regions <;> rfl

theorem leads_renew : Leads d (d.renew patches members regions) := by
  cases patches <;> cases members <;> cases regions <;> exact .of_view rfl rfl rfl

theorem renew_view : (d.renew patches members regions).view =
    { d.view with grid := (d.renew patches members regions).view.grid } := by
  cases patches <;> cases members <;> cases regions <;> rfl

/-- Renewing does three things to the grid, each of them or not. -/
theorem renew_grid_keeps {P : Grid → Prop} (h : P d.view.grid)
    (hpatches : ∀ {g}, P g → ∀ regions, P (g.setPatches regions))
    (hmembers : ∀ {g}, P g → ∀ on, P (g.setAlwaysShow on))
    (hregions : ∀ {g}, P g → ∀ me group, P (g.setSynchronized (View.foreignRegions me group))) :
    P (d.renew patches members regions).view.grid := by
  have hpatched : P (if patches then d.refreshPatchRegions else d).view.grid := by
    split
    · exact hpatches h _
    · exact h
  have hcounted {e : Desk} (he : P e.view.grid) :
      P (if members then e.refreshAlwaysShow else e).view.grid := by
    split
    · exact hmembers he _
    · exact he
  have hshown {e : Desk} (he : P e.view.grid) :
      P (if regions then e.refreshSyncRegions else e).view.grid := by
    split
    · exact hregions he _ _
    · exact he
  exact hshown (hcounted hpatched)

/-- What is painted, and how the cursor blinks, matters to nobody else. -/
theorem seated_renew (h : d.view.Seated d.project d.group) :
    (d.renew patches members regions).view.Seated d.project d.group := by
  have hgrid : (d.renew patches members regions).view.grid.OfView ∧
      (d.renew patches members regions).view.grid.Painted :=
    renew_grid_keeps (P := fun g => g.OfView ∧ g.Painted) ⟨h.ofView, h.painted⟩
      (fun hg regions => ⟨⟨hg.1.listeners, hg.1.source, hg.1.moving⟩, hg.2.setPatches regions⟩)
      (fun hg _ => ⟨⟨hg.1.listeners, hg.1.source, hg.1.moving⟩, hg.2.eq, hg.2.plain⟩)
      fun hg _ _ => ⟨⟨hg.1.listeners, hg.1.source, hg.1.moving⟩, hg.2.setSynchronized _⟩
  rw [renew_view]
  exact h.of_grid hgrid.1 hgrid.2

theorem alwaysShow_setAlwaysShow (b : Blink) (on : Bool) :
    (b.setAlwaysShow on).alwaysShow = on := by
  unfold Blink.setAlwaysShow
  split <;> rfl

/-- Whatever was not as it is has been renewed. -/
theorem current_renew
    (hpatches : patches = true ∨ d.view.grid.overlay.patches = d.project.patchRegions)
    (hmembers : members = true ∨ d.view.grid.blink.alwaysShow = decide (1 < d.group.memberCount))
    (hregions : regions = true ∨
      d.view.grid.overlay.synchronized = View.foreignRegions d.view.member d.group) :
    (d.renew patches members regions).view.Current d.project d.group where
  -- each of the three parts is either renewed or was as it is, whatever becomes of the others
  patches := by
    have hrenew : (d.renew patches members regions).view.grid.overlay.patches =
        if patches then d.project.patchRegions else d.view.grid.overlay.patches := by
      cases patches <;> cases members <;> cases regions <;> rfl
    rw [hrenew]
    rcases hpatches with rfl | hpatches
    · rfl
    · rw [hpatches, ite_self]
  alwaysShow := by
    have hrenew : (d.renew patches members regions).view.grid.blink.alwaysShow =
        if members then decide (1 < d.group.memberCount)
        else d.view.grid.blink.alwaysShow := by
      cases members with
      | false => cases patches <;> cases regions <;> rfl
      | true => cases patches <;> cases regions <;> exact alwaysShow_setAlwaysShow _ _
    rw [hrenew]
    rcases hmembers with rfl | hmembers
    · rfl
    · rw [hmembers, ite_self]
  synchronized := by
    have hrenew : (d.renew patches members regions).view.grid.overlay.synchronized =
        if regions then View.foreignRegions d.view.member d.group
        else d.view.grid.overlay.synchronized := by
      cases patches <;> cases members <;> cases regions <;> rfl
    have hmember : (d.renew patches members regions).view.member = d.view.member :=
      leads_renew.member
    rw [hrenew, hmember]
    rcases hregions with rfl | hregions
    · rfl
    · rw [hregions, ite_self]

end Renew

/-! ## Following -/

/-- The desk after its view has gone to where another member is. -/
def followed (d : Desk) (addr : Nat) : Desk :=
  if !d.view.follow || addr = d.view.grid.cursor.addr then d
  else
    let cleared := d.mapGrid (·.clearSelection)
    cleared.withScene <|
      if d.view.grid.cursor.inBounds addr then cleared.scene.moved addr none none
      else cleared.scene

theorem followTo_eq (h : d.view.grid.Upkept) (addr : Nat) :
    d.followTo addr = .ok (d.followed addr) := by
  unfold followTo followed
  split
  · rfl
  · have hcleared : (d.mapGrid (·.clearSelection)).scene.grid.Upkept := ⟨h.listeners, h.moving⟩
    simp only [onGrid, Scene.setCursor_eq hcleared, Checked.ok_bind, Checked.pure_eq_ok]
    have hbounds : (d.mapGrid (·.clearSelection)).scene.grid.cursor.inBounds addr =
        d.view.grid.cursor.inBounds addr := rfl
    rw [hbounds]
    split <;> rfl

/-- Following keeps the scene as pressing a key does, and the project as it is. -/
theorem exists_followed (d : Desk) (addr : Nat) : ∃ s, Scene.Kept d.scene s ∧
    s.around.project = d.project ∧ d.followed addr = d.withScene s := by
  have hcleared : Scene.Kept d.scene (d.mapGrid (·.clearSelection)).scene := .of_anchor d.scene
  unfold followed
  split
  · exact ⟨d.scene, .refl _, rfl, rfl⟩
  · dsimp only
    split
    · next hin =>
        exact ⟨_, hcleared.trans (.of_moved hin none none), Scene.moved_project _ addr none none, rfl⟩
    · exact ⟨_, hcleared, rfl, rfl⟩

theorem current_of_kept {s : Scene} (h : d.view.Current d.project d.group)
    (hkept : Scene.Kept d.scene s) (hproject : s.around.project = d.project) :
    (d.withScene s).view.Current (d.withScene s).project (d.withScene s).group := by
  obtain ⟨cursors, hgroup, -⟩ := hkept.group
  change s.around.group = d.group.setCursors d.view.member cursors at hgroup
  obtain ⟨-, hmembers, -⟩ := SyncGroup.setCursors_spec d.group d.view.member cursors
  rw [← hgroup] at hmembers
  have hcount : s.around.group.memberCount = d.group.memberCount :=
    congrArg OrderedMap.size hmembers
  have hranges : View.foreignRegions d.view.member s.around.group =
      View.foreignRegions d.view.member d.group := by
    unfold View.foreignRegions SyncGroup.rangesExcept
    rw [hmembers]
  refine ⟨hkept.patches.trans (h.patches.trans ?_), hkept.alwaysShow.trans (h.alwaysShow.trans ?_),
    hkept.synchronized.trans (h.synchronized.trans hranges.symm)⟩
  · exact congrArg Project.patchRegions hproject.symm
  · rw [← hcount]
    rfl

/-! ## Publishing -/

/-- What has been published is noted down. -/
theorem publishSelection_view (d : Desk) : d.publishSelection.view =
    { d.view with published := d.view.grid.cursor.selection? } := by
  unfold publishSelection
  dsimp only
  split
  · next h => rw [h]
  · rfl

theorem publishSelection_grid (d : Desk) : d.publishSelection.view.grid = d.view.grid := by
  rw [publishSelection_view]

theorem publishSelection_project (d : Desk) : d.publishSelection.project = d.project := by
  unfold publishSelection
  dsimp only
  split <;> rfl

/-- What has been published is the selection of this moment. -/
theorem publishSelection_published (d : Desk) :
    d.publishSelection.view.published = d.publishSelection.view.grid.cursor.selection? := by
  rw [publishSelection_view]

/-- A selection is not published twice. -/
theorem publishSelection_of_published (h : d.view.published = d.view.grid.cursor.selection?) :
    d.publishSelection = d := if_pos h.symm

theorem leads_publishSelection (d : Desk) : Leads d d.publishSelection := by
  unfold publishSelection
  dsimp only
  split
  · exact .refl d
  · exact ⟨rfl, rfl, rfl, fun hd => ⟨hd.store, hd.group.publish _ _⟩, fun _ _ => .refl _ _,
      fun me _ inbox _ => SyncGroup.publish_tells _ _ _ me inbox,
      fun me hme => SyncGroup.publish_get?_of_ne _ hme⟩

/-- A view that publishes its selection goes on remembering everything as it is. -/
theorem publishSelection_spec (hseated : d.view.Seated d.project d.group)
    (hcurrent : d.view.Current d.project d.group) :
    d.publishSelection.view.Seated d.publishSelection.project d.publishSelection.group ∧
      d.publishSelection.view.Current d.publishSelection.project d.publishSelection.group := by
  unfold publishSelection
  dsimp only
  split
  · exact ⟨hseated, hcurrent⟩
  · obtain ⟨new, hnew, -⟩ := SyncGroup.publish_tells d.group d.view.member
      (publishedRanges d.view.grid.cursor.selection?) d.view.member d.view.syncInbox
    refine ⟨⟨hseated.ofView, hseated.painted, hseated.hearsPatches, (hnew hseated.hearsGroup).1,
      SyncGroup.publish_get?_self hseated.record _⟩, hcurrent.patches, ?_, ?_⟩
    · rw [SyncGroup.publish_memberCount]
      exact hcurrent.alwaysShow
    · rw [View.foreignRegions, SyncGroup.publish_rangesExcept_self]
      exact hcurrent.synchronized

/-! ## All together -/

theorem mem_of_regionsChanged {me owner : MemberId} {events : List SyncEvent} (hne : owner ≠ me)
    (hmem : .regionsChanged owner ∈ events) : regionsChanged me events = true :=
  List.any_eq_true.2 ⟨_, hmem, decide_eq_true hne⟩

/-- The desk after the first two stages. -/
def renewed (d : Desk) : Desk :=
  d.emptyInboxes.renew (!(d.project.patches.changes.waiting d.view.patchInbox).isEmpty)
    ((d.group.events.waiting d.view.syncInbox).contains .membersChanged)
    (regionsChanged d.view.member (d.group.events.waiting d.view.syncInbox))

/-- Where the mail of the view asks it to go. -/
def target? (d : Desk) : Option Nat :=
  followTarget? d.view.member (d.group.events.waiting d.view.syncInbox)

/-- The desk after pumping. -/
def pumped (d : Desk) : Desk := (d.target?.elim d.renewed d.renewed.followed).publishSelection

/-- From `d` to `e` only the mailboxes of the view, what is painted and the blinking have
changed. -/
structure Renews (d e : Desk) : Prop where
  leads : Leads d e
  project : e.project = { d.project with patches := { d.project.patches with
    changes := (d.project.patches.changes.collect d.view.patchInbox).2 } }
  group : e.group = { d.group with events := (d.group.events.collect d.view.syncInbox).2 }
  view : e.view = { d.view with grid := { d.view.grid with
    blink := e.view.grid.blink, overlay := e.view.grid.overlay } }
  classification : e.view.grid.overlay.classification = d.view.grid.overlay.classification

theorem renews_renewed (d : Desk) : Renews d d.renewed := by
  have hview : ∀ patches members regions : Bool,
      let e := d.emptyInboxes.renew patches members regions
      e.view = { d.view with grid := { d.view.grid with
        blink := e.view.grid.blink, overlay := e.view.grid.overlay } } ∧
      e.view.grid.overlay.classification = d.view.grid.overlay.classification := by
    intro patches members regions
    cases patches <;> cases members <;> cases regions <;> exact ⟨rfl, rfl⟩
  exact ⟨(leads_emptyInboxes d).trans leads_renew, renew_project, renew_group, (hview _ _ _).1,
    (hview _ _ _).2⟩

namespace Renews

theorem cursor (h : Renews d e) : e.view.grid.cursor = d.view.grid.cursor := by rw [h.view]

theorem upkept (h : Renews d e) (hd : d.view.grid.Upkept) : e.view.grid.Upkept := by
  rw [h.view]
  exact ⟨hd.listeners, hd.moving⟩

end Renews

/-- Pumping a view comes to an end. -/
theorem pump_eq (h : d.view.grid.Upkept) : ∃ b, d.pump = .ok (b, d.pumped) := by
  have hupkept := (renews_renewed d).upkept h
  unfold pump pumped target?
  dsimp only
  cases followTarget? d.view.member (d.group.events.waiting d.view.syncInbox) with
  | none => exact ⟨_, rfl⟩
  | some addr =>
      change ∃ b, (d.renewed.followTo addr >>= _) = .ok (b, _)
      rw [followTo_eq hupkept, Checked.ok_bind]
      exact ⟨_, rfl⟩

/-- Once it has renewed what is stale, the view handles the scene as if a key had been pressed, and
publishes. -/
theorem exists_gone (d : Desk) : ∃ s, Scene.Kept d.renewed.scene s ∧
    s.around.project = d.renewed.project ∧
      d.pumped = (d.renewed.withScene s).publishSelection := by
  unfold pumped
  cases d.target? with
  | none => exact ⟨d.renewed.scene, .refl _, rfl, rfl⟩
  | some addr =>
      obtain ⟨s, hkept, hproject, hfollowed⟩ := exists_followed d.renewed addr
      exact ⟨s, hkept, hproject, congrArg publishSelection hfollowed⟩

/-- Pumping tells all others of what it changes. -/
theorem leads_pumped (d : Desk) : Leads d d.pumped := by
  obtain ⟨s, hkept, -, hpumped⟩ := exists_gone d
  rw [hpumped]
  exact ((renews_renewed d).leads.trans (.of_kept hkept)).trans (leads_publishSelection _)

/-- Pumping leaves the grid with its listeners, its source and its region. -/
theorem pumped_grid (d : Desk) : d.pumped.view.grid.listeners = d.view.grid.listeners ∧
    d.pumped.view.grid.source = d.view.grid.source ∧
      d.pumped.view.grid.cursor.moving = d.view.grid.cursor.moving ∧
        d.pumped.view.grid.cursor.start = d.view.grid.cursor.start ∧
          d.pumped.view.grid.cursor.stop = d.view.grid.cursor.stop := by
  obtain ⟨s, hkept, -, hpumped⟩ := exists_gone d
  have hgrid : d.pumped.view.grid = s.grid := by rw [hpumped, publishSelection_grid]; rfl
  have hview := (renews_renewed d).view
  have hlisteners := hkept.listeners
  have hsource := hkept.source
  have hmoving := hkept.moving
  have hregion := hkept.region
  simp only [scene] at hlisteners hsource hmoving hregion
  rw [hview] at hlisteners hsource hmoving hregion
  rw [hgrid]
  exact ⟨hlisteners, hsource, hmoving, hregion⟩

theorem upkept_pumped (h : d.view.grid.Upkept) : d.pumped.view.grid.Upkept := by
  obtain ⟨hlisteners, -, hmoving, -⟩ := pumped_grid d
  exact ⟨hlisteners.trans h.listeners, hmoving.trans h.moving⟩

/-- A view that was in step is so after pumping, and has nothing left to renew; its selection is
the one published last. -/
theorem pumped_spec (h : d.view.InStep d.project d.group) :
    d.pumped.view.Seated d.pumped.project d.pumped.group ∧
      d.pumped.view.Current d.pumped.project d.pumped.group ∧
      d.pumped.view.published = d.pumped.view.grid.cursor.selection? := by
  have hseated : d.renewed.view.Seated d.renewed.project d.renewed.group := by
    rw [renewed, renew_project, renew_group]
    exact seated_renew (seated_emptyInboxes h.toSeated)
  have hcurrent : d.renewed.view.Current d.renewed.project d.renewed.group := by
    rw [renewed, renew_project, renew_group]
    refine current_renew (h.patches.imp_left fun hne => ?_) (h.alwaysShow.imp_left fun hmem => ?_)
      (h.synchronized.imp_left ?_)
    · simpa using hne
    · simpa using hmem
    · rintro ⟨owner, hne, hmem⟩
      exact mem_of_regionsChanged hne hmem
  obtain ⟨s, hkept, hproject, hpumped⟩ := exists_gone d
  have hgone := inStep_of_kept (hseated.inStep hcurrent) hkept
  have hpublished := publishSelection_published (d.renewed.withScene s)
  obtain ⟨hseated', hcurrent'⟩ :=
    publishSelection_spec hgone.toSeated (current_of_kept hcurrent hkept hproject)
  rw [hpumped]
  exact ⟨hseated', hcurrent', hpublished⟩

end HexEditor.Desk
