import HexEditor.Proofs.Grid.Honest
import HexEditor.Proofs.View.Attained

/-!
# Tended workspaces

The grid of a view may be given commands and listeners as one likes, as long as these leave it to
the view which regions stand for patches (`Command.Tame`).  Then in every workspace that comes about
so (`Tended`), the view shows one region for each patch, or an event that it does not yet has been
put in its mailbox (`Truthful`).

Other listeners than the view's own may be called when a view follows another one, so that nothing
can be said of where the cursor goes then; but whatever pumping does to the grid is a move like
any other (`gone_of_pump`).  Without a cursor to follow there is no move at all.
-/

namespace HexEditor

/-- Only the list of the patches holds regions that stand for patches, and it is right unless the
mailbox says that it is not. -/
structure View.Truthful (v : View) (p : Project) (g : SyncGroup) : Prop where
  honest : v.grid.Honest
  patches : p.patches.changes.waiting v.patchInbox ≠ [] ∨
    v.grid.overlay.patches = p.patchRegions
  hearsPatches : p.patches.changes.Hears v.patchInbox
  hearsGroup : g.events.Hears v.syncInbox
  registered : ∃ ranges, g.members.get? v.member = some ranges

namespace View

variable {v : View} {p q : Project} {g h : SyncGroup}

theorem foreignRegions_plain (me : MemberId) (g : SyncGroup) :
    ∀ r ∈ foreignRegions me g, r.kind = .plain := by
  intro r hr
  obtain ⟨range, -, hrange⟩ := List.mem_filterMap.1 hr
  exact (Region.of_plain? hrange).2.2.2

/-- A new view tells the truth. -/
theorem Seated.truthful (hseated : v.Seated p g) (hcurrent : v.Current p g) : v.Truthful p g := by
  refine ⟨⟨hseated.painted.eq, fun r hr => (hseated.painted.plain r hr).1, ?_, ?_⟩,
    .inr hcurrent.patches, hseated.hearsPatches, hseated.hearsGroup, _, hseated.record⟩
  · rw [hcurrent.synchronized]
    exact foreignRegions_plain _ _
  · intro l hl
    rw [hseated.ofView.listeners, List.mem_singleton] at hl
    rw [hl]
    exact nofun

theorem Truthful.of_tells (hv : v.Truthful p g)
    (hstore : p.patches.Tells v.patchInbox q.patches) (hgroup : g.Tells v.member v.syncInbox h)
    (hrecord : h.members.get? v.member = g.members.get? v.member) : v.Truthful q h := by
  obtain ⟨changes, hchanges, hset⟩ := hstore
  obtain ⟨events, hevents, -⟩ := hgroup
  obtain ⟨hhears, hwaiting⟩ := hchanges hv.hearsPatches
  obtain ⟨ranges, hranges⟩ := hv.registered
  refine ⟨hv.honest, ?_, hhears, (hevents hv.hearsGroup).1, ranges, hrecord.trans hranges⟩
  rw [hwaiting]
  rcases hset with hne | hset
  · exact .inl (List.append_ne_nil_of_right_ne_nil _ hne)
  · rw [patchRegions_congr hset]
    exact hv.patches.imp_left fun hne => List.append_ne_nil_of_left_ne_nil hne _

end View

namespace Desk

variable {d e : Desk} {s : Scene} {b : Bool}

/-- Another grid that is honest and shows the same patches. -/
theorem truthful_of_grid (h : d.view.Truthful d.project d.group) {v : View}
    (hplace : v.member = d.view.member ∧ v.patchInbox = d.view.patchInbox ∧
      v.syncInbox = d.view.syncInbox) (hhonest : v.grid.Honest)
    (hpatches : v.grid.overlay.patches = d.view.grid.overlay.patches) :
    v.Truthful d.project d.group := by
  obtain ⟨hmember, hpatch, hsync⟩ := hplace
  refine ⟨hhonest, ?_, ?_, ?_, ?_⟩
  · rw [hpatch, hpatches]
    exact h.patches
  · rw [hpatch]
    exact h.hearsPatches
  · rw [hsync]
    exact h.hearsGroup
  · rw [hmember]
    exact h.registered

/-- What spares the grid leaves the view truthful, and the others are told. -/
theorem truthful_of_spared (h : d.view.Truthful d.project d.group)
    (hspared : Scene.Spared d.scene s) :
    (d.withScene s).view.Truthful (d.withScene s).project (d.withScene s).group ∧
      Leads d (d.withScene s) := by
  obtain ⟨cursors, hgroup⟩ := hspared.group
  have hstore := hspared.store
  change s.around.group = d.group.setCursors d.view.member cursors at hgroup
  obtain ⟨-, hmembers, htells⟩ := SyncGroup.setCursors_spec d.group d.view.member cursors
  rw [← hgroup] at hmembers htells
  have htold : d.view.Truthful s.around.project s.around.group :=
    h.of_tells (hstore.tells _) (htells _ _) (by rw [hmembers])
  exact ⟨truthful_of_grid (d := { d with project := s.around.project, group := s.around.group })
    htold ⟨rfl, rfl, rfl⟩ hspared.honest hspared.patches, .of_scene hstore ⟨cursors, hgroup⟩⟩

/-! ## Pumping -/

/-- Pumping with any listeners: once the view has renewed what is stale, it handles the scene as if
a key had been pressed, and publishes. -/
theorem gone_of_pump (hpump : d.pump = .ok (b, e)) : ∃ s,
    Scene.Handles Scene.dispatch d.renewed.scene s ∧
      e = (d.renewed.withScene s).publishSelection := by
  unfold pump at hpump
  dsimp only at hpump
  cases htarget : followTarget? d.view.member (d.group.events.waiting d.view.syncInbox) with
  | none =>
      rw [htarget] at hpump
      obtain ⟨-, rfl⟩ := Prod.mk.inj (Except.ok.inj hpump)
      exact ⟨_, .refl _, rfl⟩
  | some addr =>
      rw [htarget] at hpump
      change (d.renewed.followTo addr >>= _) = _ at hpump
      obtain ⟨f, hgone, hpublished⟩ := Checked.bind_eq_ok_iff.1 hpump
      obtain ⟨-, rfl⟩ := Prod.mk.inj (Except.ok.inj hpublished)
      unfold followTo at hgone
      split at hgone
      · obtain rfl := Except.ok.inj hgone
        exact ⟨_, .refl _, rfl⟩
      · obtain ⟨⟨answer, f'⟩, hgrid, hanswer⟩ := Checked.bind_eq_ok_iff.1 hgone
        obtain rfl := Except.ok.inj hanswer
        obtain ⟨⟨answer', s⟩, hset, hplaced⟩ := Checked.bind_eq_ok_iff.1 hgrid
        obtain ⟨-, rfl⟩ := Prod.mk.inj (Except.ok.inj hplaced)
        have hcleared : Scene.Handles Scene.dispatch d.renewed.scene
            (d.renewed.scene.mapGrid (·.clearSelection)) :=
          (Scene.Handles.refl _).tail .clearSelection
        exact ⟨s, hcleared.tail (.setCursor hset), rfl⟩

/-- Without a cursor to follow, pumping renews and publishes, whoever listens. -/
theorem pump_of_no_target (h : d.target? = none) :
    ∃ b, d.pump = .ok (b, d.renewed.publishSelection) := by
  unfold target? at h
  unfold pump
  dsimp only
  rw [h]
  exact ⟨_, rfl⟩

theorem renewed_honest (h : d.view.grid.Honest) : d.renewed.view.grid.Honest :=
  renew_grid_keeps (d := d.emptyInboxes) h (fun hg regions => hg.setPatches regions)
    (fun hg _ => hg.of_span rfl rfl rfl)
    fun hg me group => hg.setSynchronized (View.foreignRegions_plain me group)

/-- Renewing makes the list of the patches right. -/
theorem renewed_patches (h : d.project.patches.changes.waiting d.view.patchInbox ≠ [] ∨
      d.view.grid.overlay.patches = d.project.patchRegions) :
    d.renewed.view.grid.overlay.patches = d.renewed.project.patchRegions := by
  have hrenew : ∀ patches members regions : Bool,
      patches = true ∨ d.view.grid.overlay.patches = d.project.patchRegions →
      (d.emptyInboxes.renew patches members regions).view.grid.overlay.patches =
        d.project.patchRegions := by
    intro patches members regions h
    cases patches with
    | true => cases members <;> cases regions <;> rfl
    | false =>
        have heq := h.resolve_left Bool.false_ne_true
        cases members <;> cases regions <;> exact heq
  rw [(renews_renewed d).project]
  refine (hrenew _ _ _ (h.imp_left fun hne => ?_)).trans (View.patchRegions_congr rfl).symm
  simpa using hne

/-- A view that pumps stays truthful, and the others are told. -/
theorem truthful_of_pump (hd : d.Sound) (h : d.view.Truthful d.project d.group)
    (hpump : d.pump = .ok (b, e)) : e.view.Truthful e.project e.group ∧ Leads d e := by
  obtain ⟨s, hhandles, rfl⟩ := gone_of_pump hpump
  have hrenews := renews_renewed d
  have hrenewed : d.renewed.view.Truthful d.renewed.project d.renewed.group := by
    refine ⟨renewed_honest h.honest, .inr (renewed_patches h.patches), ?_, ?_, ?_⟩
    · rw [hrenews.leads.patchInbox, hrenews.project]
      exact h.hearsPatches.collect_self.1
    · rw [hrenews.leads.syncInbox, hrenews.group]
      exact h.hearsGroup.collect_self.1
    · rw [hrenews.leads.member, hrenews.group]
      exact h.registered
  have hspared : Scene.Spared d.renewed.scene s := by
    refine hhandles.keeps (P := Scene.Spared d.renewed.scene) ?_ (.refl hrenewed.honest)
    intro t u hstep ht
    exact ht.trans (hstep.spared Scene.dispatch_spares ht.honest
      (ht.store.sound (hrenews.leads.sound hd).store))
  obtain ⟨hgone, hleads⟩ := truthful_of_spared hrenewed hspared
  refine ⟨?_, (hrenews.leads.trans hleads).trans (leads_publishSelection _)⟩
  unfold publishSelection
  dsimp only
  split
  · exact hgone
  · obtain ⟨new, hnew, -⟩ := SyncGroup.publish_tells (d.renewed.withScene s).group
      d.renewed.view.member (publishedRanges s.grid.cursor.selection?) d.renewed.view.member
      d.renewed.view.syncInbox
    obtain ⟨ranges, hranges⟩ := hgone.registered
    exact ⟨hgone.honest, hgone.patches, hgone.hearsPatches, (hnew hgone.hearsGroup).1, _,
      SyncGroup.publish_get?_self hranges _⟩

/-- Each part that requests are made of keeps a view truthful and tells all others. -/
theorem Part.truthful (hd : d.Sound) (h : d.view.Truthful d.project d.group) (hpart : Part d e) :
    e.view.Truthful e.project e.group ∧ Leads d e := by
  cases hpart with
  | handled hhandles =>
      refine truthful_of_spared h (hhandles.keeps (P := Scene.Spared d.scene) ?_ (.refl h.honest))
      intro t u hstep ht
      exact ht.trans (hstep.spared Scene.dispatch_spares ht.honest (ht.store.sound hd.store))
  | blinked =>
      exact ⟨truthful_of_grid h ⟨rfl, rfl, rfl⟩ (h.honest.of_span rfl rfl rfl) rfl,
        .of_view rfl rfl rfl⟩
  | highlighted on =>
      refine ⟨truthful_of_grid h ⟨rfl, rfl, rfl⟩ (h.honest.setClassification fun r hr => ?_) rfl,
        .of_view rfl rfl rfl⟩
      split at hr
      · exact (ItemMap.highlights_plain _ _ r hr).1
      · exact absurd hr List.not_mem_nil
  | copied => exact ⟨truthful_of_grid h ⟨rfl, rfl, rfl⟩ h.honest rfl, .of_view rfl rfl rfl⟩
  | replied hstore => exact ⟨h.of_tells (hstore.tells _) (.refl _ _ _) rfl, .of_evolves hstore⟩
  | pumped hpump => exact truthful_of_pump hd h hpump

end Desk

theorem View.lasting_truthful : View.Lasting View.Truthful where
  opened hseated hcurrent _ := hseated.truthful hcurrent
  hearsPatches h := h.hearsPatches
  hearsGroup h := h.hearsGroup
  registered h := h.registered
  of_tells h := h.of_tells
  part hd h hpart := hpart.truthful hd h

namespace Workspace

variable {w : Workspace} {v : Nat} {s : Seat} {c : Command} {a : Answer} {d : Desk}

/-- The workspaces that come about by allowed requests and by commands to the grids of views, as
long as these leave it to the views which regions stand for patches. -/
inductive Tended : Workspace → Prop
  | start {w : Workspace} (h : w.Initial) : Tended w
  | request {w w' : Workspace} {r : WorkspaceRequest} (hw : Tended w) (hallowed : r.Allowed w)
      (h : w.perform r = .ok w') : Tended w'
  | command {w : Workspace} {v : Nat} {s : Seat} {c : Command} {a : Answer} {d : Desk}
      (hw : Tended w) (hs : w.seat? v = some s) (htame : c.Tame)
      (h : (w.desk s).onGrid (·.perform c) = .ok (a, d)) : Tended (w.putBack v s d)

/-- A tame command to the grid of a view keeps all views truthful. -/
theorem SoundWith.tame_command (hw : w.SoundWith View.Truthful) (hs : w.seat? v = some s)
    (htame : c.Tame) (h : (w.desk s).onGrid (·.perform c) = .ok (a, d)) :
    (w.putBack v s d).SoundWith View.Truthful := by
  obtain ⟨⟨answer, t⟩, hperform, hplaced⟩ := Checked.bind_eq_ok_iff.1 h
  obtain ⟨-, rfl⟩ := Prod.mk.inj (Except.ok.inj hplaced)
  have hview : (w.desk s).view.Truthful (w.desk s).project (w.desk s).group := hw.view v s hs
  have hspared : Scene.Spared (w.desk s).scene t :=
    (Scene.performed hperform).spared Scene.dispatch_spares htame hview.honest (hw.desk s).store
  obtain ⟨htruthful, hleads⟩ := Desk.truthful_of_spared hview hspared
  exact hw.steps View.lasting_truthful hs htruthful hleads

theorem Tended.sound (hw : w.Tended) : w.SoundWith View.Truthful := by
  induction hw with
  | start h => exact h.sound
  | request _ hallowed h ih => exact ih.perform View.lasting_truthful hallowed h
  | command _ hs htame h ih => exact ih.tame_command hs htame h

end Workspace

end HexEditor
