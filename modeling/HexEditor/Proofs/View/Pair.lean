import HexEditor.Proofs.View.Opening
import HexEditor.Proofs.View.Twin

/-!
# A view among others and a view alone

The view `d` is in a group with others that only follow it, and `e`, its twin, is alone in another
group (`Paired`).  The same input to both leaves them paired, or the first one turns back: the
move of a follower that waits in its mail, which leads to where it was before the input, is looked
at only now (`Paired.perform`).
-/

namespace HexEditor.Desk

variable {d d' d₁ e e' e₁ : Desk} {r : ViewRequest} {x : Nat} {me : MemberId} {inbox : SubscriberId}

/-! ## The first stage -/

namespace Handled

/-- The cursor has been announced at every place where it was. -/
theorem moves (h : Handled d d₁) : ∃ cursors,
    d₁.group = d.group.setCursors d.view.member cursors ∧
      d₁.view.grid.cursor.addr = cursors.getLast?.getD d.view.grid.cursor.addr := h.kept.group

theorem sound (h : Handled d d₁) (hd : d.Sound) : d₁.Sound := by
  obtain ⟨cursors, hgroup, -⟩ := h.moves
  refine ⟨h.kept.store.sound hd.store, ?_⟩
  rw [hgroup]
  exact (SyncGroup.setCursors_spec d.group d.view.member cursors).1 hd.group

theorem inStep (h : Handled d d₁) (hd : d.view.InStep d.project d.group) :
    d₁.view.InStep d₁.project d₁.group := by
  have hstep : View.InStep { d.view with grid := d₁.view.grid } d₁.project d₁.group :=
    inStep_of_kept hd h.kept
  rw [h.view]
  exact ⟨⟨hstep.ofView, hstep.painted, hstep.hearsPatches, hstep.hearsGroup, hstep.record⟩,
    hstep.patches, hstep.alwaysShow, hstep.synchronized⟩

theorem member (h : Handled d d₁) : d₁.view.member = d.view.member := by rw [h.view]

theorem syncInbox (h : Handled d d₁) : d₁.view.syncInbox = d.view.syncInbox := by rw [h.view]

theorem follow (h : Handled d d₁) : d₁.view.follow = d.view.follow := by rw [h.view]

/-- Nothing that a view does itself asks it to go anywhere. -/
theorem target? (h : Handled d d₁) (hhears : d.group.events.Hears d.view.syncInbox) :
    d₁.target? = d.target? := by
  obtain ⟨cursors, hgroup, -⟩ := h.moves
  exact target?_of_setCursors hhears h.member h.syncInbox hgroup

theorem rangesExcept (h : Handled d d₁) :
    d₁.group.rangesExcept d₁.view.member = d.group.rangesExcept d.view.member := by
  obtain ⟨cursors, hgroup, -⟩ := h.moves
  unfold SyncGroup.rangesExcept
  rw [h.member, hgroup, (SyncGroup.setCursors_spec d.group d.view.member cursors).2.1]

end Handled

/-! ## Both views -/

/-- The views are twins, neither knows of a selection of anybody else, the second is alone, and the
first is asked to go nowhere but to where it is. -/
structure Matched (d e : Desk) : Prop where
  twins : Twins d e
  follow : d.view.follow = true
  region : d.view.grid.cursor.addr = d.view.grid.cursor.start ∨
    d.view.grid.cursor.inBounds d.view.grid.cursor.addr = true
  points : d.group.Points d.view.grid.cursor.addr d.view.member d.view.syncInbox
  others : d.group.rangesExcept d.view.member = []
  alone : e.group.rangesExcept e.view.member = []
  target : e.target? = none

/-- Moreover, neither has anything left to renew. -/
structure Paired (d e : Desk) : Prop extends Matched d e where
  settled : Settles e e

/-- Pumping the first view, when the second has nothing left to renew, makes them paired. -/
theorem Matched.pump (h : Matched d e) (hd : d.view.InStep d.project d.group)
    (hsettles : Settles e e') (halone : e'.group.rangesExcept e'.view.member = [])
    (htarget : e'.target? = none) : Paired d.pumped e' := by
  have hsettles' := settles_pumped hd h.points.eq h.others
  have hleads := leads_pumped d
  have hcursor : d.pumped.view.grid.cursor = d.view.grid.cursor := by rw [hsettles'.view]
  refine ⟨⟨h.twins.settle hsettles' hsettles, ?_, ?_, ⟨(pumped_spec hd).1.hearsGroup, ?_⟩, ?_, halone,
    htarget⟩, settles_self hsettles.painted hsettles.synchronized hsettles.patches⟩
  · rw [hsettles'.view]
    exact h.follow
  · rw [hcursor]
    exact h.region
  · intro addr (haddr : d.pumped.target? = some addr)
    rw [pumped_target? hd.hearsGroup] at haddr
    cases haddr
  · rw [hleads.member, rangesExcept_pumped]
    exact h.others

namespace Paired

theorem addr_eq (h : Paired d e) : d.view.grid.cursor.addr = e.view.grid.cursor.addr :=
  congrArg Cursor.addr h.twins.scene.cursor

/-- Others may leave mail and change their records, as long as they do not select anything and
do not ask the view to go elsewhere. -/
theorem of_others (h : Paired d e) (hview : d'.view = d.view)
    (himage : d'.project.image = d.project.image) (hitems : d'.project.items = d.project.items)
    (hset : d'.project.patches.set = d.project.patches.set)
    (hpoints : d'.group.Points d.view.grid.cursor.addr d.view.member d.view.syncInbox)
    (hothers : d'.group.rangesExcept d.view.member = []) : Paired d' e := by
  have hscene := h.twins.scene
  obtain ⟨view, project, group, now, log⟩ := d'
  obtain rfl : view = d.view := hview
  exact ⟨⟨⟨⟨hscene.left, hscene.right, hscene.cursor, hscene.sheet, hscene.pressed, hscene.overlay,
    hscene.smart, himage.trans hscene.image, hitems.trans hscene.items, hset.trans hscene.patches⟩,
    h.twins.clipboard⟩, h.follow, h.region, hpoints, hothers, h.alone, h.target⟩, h.settled⟩

theorem congr_right (h : Paired d e) (hview : e'.view = e.view) (hproject : e'.project = e.project)
    (hgroup : e'.group = e.group) : Paired d e' := by
  have hscene := h.twins.scene
  obtain ⟨view, project, group, now, log⟩ := e'
  obtain rfl : view = e.view := hview
  obtain rfl : project = e.project := hproject
  obtain rfl : group = e.group := hgroup
  exact ⟨⟨⟨⟨hscene.left, hscene.right, hscene.cursor, hscene.sheet, hscene.pressed, hscene.overlay,
    hscene.smart, hscene.image, hscene.items, hscene.patches⟩, h.twins.clipboard⟩, h.follow, h.region,
    h.points, h.others, h.alone, h.target⟩,
    settles_self h.settled.painted h.settled.synchronized h.settled.patches⟩

/-- Pumping the first view leaves it a twin of the second. -/
theorem pumped (h : Paired d e) (hd : d.view.InStep d.project d.group) : Paired d.pumped e :=
  h.pump hd h.settled h.alone h.target

end Paired

/-! ## Input to both -/

theorem pumps_congr (h : Twins d e) (r : ViewRequest) : r.pumps d.view = r.pumps e.view := by
  unfold ViewRequest.pumps
  rw [h.clipboard]

/-- What was loaded is the same, and the others, who were asked to go to where the view was, are
now asked to go to where it is. -/
structure Led (d d' : Desk) : Prop where
  image : d'.project.image = d.project.image
  at_addr : d.group.At d.view.grid.cursor.addr → d'.group.At d'.view.grid.cursor.addr
  points : d.group.At d.view.grid.cursor.addr → ∀ me ≠ d.view.member, ∀ inbox,
    d.group.Points d.view.grid.cursor.addr me inbox →
      d'.group.Points d'.view.grid.cursor.addr me inbox

theorem Handled.led (h : Handled d d₁) (hd : d.view.InStep d.project d.group) : Led d d₁ := by
  obtain ⟨cursors, hgroup, haddr⟩ := h.moves
  have hmember := hd.contains
  refine ⟨h.kept.image, ?_, ?_⟩
  · intro hat
    rw [hgroup, haddr]
    exact hat.moves hmember cursors
  · intro hat me hne inbox hpoints
    rw [hgroup, haddr]
    exact hpoints.moves hat hne.symm hmember cursors

/-- Pumping a view that is only asked to go where it is leads nobody elsewhere. -/
theorem led_pumped (htarget : ∀ addr, d.target? = some addr → addr = d.view.grid.cursor.addr) :
    Led d d.pumped := by
  have haddr : d.pumped.view.grid.cursor.addr = d.view.grid.cursor.addr := by
    rw [cursor_pumped htarget]
  refine ⟨?_, ?_, ?_⟩
  · rw [project_pumped]
  · intro hat
    rw [haddr]
    exact at_pumped hat htarget
  · intro _ me _ inbox hpoints
    rw [haddr]
    exact points_pumped hpoints htarget

theorem Led.trans (h : Led d d₁) (hmember : d₁.view.member = d.view.member) (h' : Led d₁ d') :
    Led d d' := by
  refine ⟨h'.image.trans h.image, ?_, ?_⟩
  · intro hat
    exact h'.at_addr (h.at_addr hat)
  · intro hat me hne inbox hpoints
    have hpoints' := h.points hat me hne inbox hpoints
    exact h'.points (h.at_addr hat) me (hmember ▸ hne) inbox hpoints'

/-- A move of a follower waits in the mail of the first view, and the second view has moved. -/
def Echoes (d e e' : Desk) : Prop :=
  d.target? ≠ none ∧ e'.view.grid.cursor.addr ≠ e.view.grid.cursor.addr

theorem finish_true (h : d.view.grid.OfView) : finish true d = .ok d.pumped := by
  obtain ⟨b, hpump⟩ := pump_eq h.upkept
  unfold finish
  rw [if_pos rfl, hpump]
  rfl

/-- An input that is not followed by pumping moves nothing. -/
theorem Paired.of_not_pumps (h : Paired d e) (hr : r.isInput = true)
    (hpumps : r.pumps e.view = false) (hd : d.handle r = .ok d') (he : e.handle r = .ok e')
    (htwins : Twins d' e') : Paired d' e' ∧ Led d d' ∧ ¬ Echoes d e e' := by
  obtain ⟨on, clipboard, rfl⟩ := handle_of_not_pumps hr ((pumps_congr h.twins r).trans hpumps) hd
  obtain ⟨on', clipboard', rfl⟩ := handle_of_not_pumps hr hpumps he
  have hpainted := h.settled.painted
  refine ⟨⟨⟨htwins, h.follow, h.region, h.points, h.others, h.alone, h.target⟩, ?_⟩,
    ⟨rfl, id, fun _ _ _ _ hpoints => hpoints⟩, fun hecho => hecho.2 rfl⟩
  exact settles_self ⟨hpainted.eq, hpainted.plain⟩ h.settled.synchronized h.settled.patches

/-- After the first stage the views are matched, unless the first one is asked to go elsewhere. -/
theorem Paired.handled (h : Paired d e) (hd : d.view.InStep d.project d.group)
    (he : e.view.InStep e.project e.group) (hleft : Handled d d₁) (hright : Handled e e₁)
    (htwins : Twins d₁ e₁)
    (htarget : ∀ addr, d₁.target? = some addr → addr = d₁.view.grid.cursor.addr) :
    Matched d₁ e₁ := by
  refine ⟨htwins, hleft.follow.trans h.follow, ?_, ⟨(hleft.inStep hd).hearsGroup, htarget⟩,
    hleft.rangesExcept.trans h.others, hright.rangesExcept.trans h.alone,
    (hright.target? he.hearsGroup).trans h.target⟩
  rcases hleft.kept.addr with heq | hin
  · have heq' : d₁.view.grid.cursor.addr = d.view.grid.cursor.addr := heq
    have hstart : d₁.view.grid.cursor.start = d.view.grid.cursor.start := hleft.kept.region.1
    rw [heq', hstart]
    exact h.region.imp_right fun hin => (hleft.kept.inBounds_eq _).trans hin
  · exact .inr ((hleft.kept.inBounds_eq _).trans hin)

/-- Where the view was before it moved lies in the region. -/
theorem Paired.inBounds (h : Paired d e) (hleft : Handled d d₁)
    (hne : d₁.view.grid.cursor.addr ≠ d.view.grid.cursor.addr) :
    d₁.view.grid.cursor.inBounds d.view.grid.cursor.addr = true := by
  have hregion : d₁.view.grid.cursor.inBounds d.view.grid.cursor.addr =
      d.view.grid.cursor.inBounds d.view.grid.cursor.addr := hleft.kept.inBounds_eq _
  rw [hregion]
  rcases h.region with hstart | hin
  · -- the region is not empty, since there is a place to move to
    have hmoved : d.view.grid.cursor.inBounds d₁.view.grid.cursor.addr = true :=
      hleft.kept.addr.resolve_left hne
    unfold Cursor.inBounds at hmoved ⊢
    simp only [Bool.and_eq_true, decide_eq_true_eq] at hmoved ⊢
    omega
  · exact hin

/-- The same input to both views leaves them paired, and leads the others to where they are,
unless the first view turns back. -/
theorem Paired.perform (h : Paired d e) (hr : r.isInput = true) (hdSound : d.Sound)
    (heSound : e.Sound) (hd : d.view.InStep d.project d.group)
    (he : e.view.InStep e.project e.group) :
    Checked.Rel (fun d' e' => (¬ Echoes d e e' → Paired d' e' ∧ Led d d') ∧
      (Echoes d e e' → d'.view.grid.cursor.addr ≠ e'.view.grid.cursor.addr))
      (d.perform r) (e.perform r) := by
  rw [perform_eq hr, perform_eq hr, pumps_congr h.twins r]
  refine (h.twins.handle hr).results.bind ?_
  rintro d₁ e₁ ⟨hd₁, he₁, htwins⟩
  cases hpumps : r.pumps e.view with
  | false =>
      obtain ⟨hpaired, hled, hecho⟩ := h.of_not_pumps hr hpumps hd₁ he₁ htwins
      exact .ok ⟨fun _ => ⟨hpaired, hled⟩, fun h => absurd h hecho⟩
  | true =>
      have hleft := handle_spec hdSound hd.ofView hd₁
      have hright := handle_spec heSound he.ofView he₁
      have hstep := hleft.inStep hd
      have hstep' := hright.inStep he
      have haddr : d₁.view.grid.cursor.addr = e₁.view.grid.cursor.addr :=
        congrArg Cursor.addr htwins.scene.cursor
      have hasked : d₁.target? = d.target? := hleft.target? hd.hearsGroup
      have hnobody : ∀ addr, e₁.target? = some addr → addr = e₁.view.grid.cursor.addr := by
        rw [(hright.target? he.hearsGroup).trans h.target]
        nofun
      have hstays := cursor_pumped hnobody
      rw [finish_true hstep.ofView, finish_true hstep'.ofView]
      refine .ok ⟨fun hecho => ?_, fun ⟨hwaits, hmoved⟩ => ?_⟩
      · -- the first view is asked to go nowhere, or to where it is
        have htarget : ∀ addr, d₁.target? = some addr → addr = d₁.view.grid.cursor.addr := by
          intro addr hsome
          rw [hasked] at hsome
          by_contra hne
          refine hecho ⟨by rw [hsome]; nofun, ?_⟩
          rw [hstays, ← haddr, ← h.addr_eq, ← h.points.eq addr hsome]
          exact Ne.symm hne
        have hmatched := h.handled hd he hleft hright htwins htarget
        refine ⟨hmatched.pump hstep (settles_pumped hstep' hnobody hmatched.alone) ?_ ?_, ?_⟩
        · rw [(leads_pumped e₁).member, rangesExcept_pumped]
          exact hmatched.alone
        · exact pumped_target? hstep'.hearsGroup
        · exact (hleft.led hd).trans hleft.member (led_pumped htarget)
      · -- what waits is where the first view was before the input
        obtain ⟨addr, hsome⟩ := Option.ne_none_iff_exists'.1 hwaits
        obtain rfl := h.points.eq addr hsome
        have hne : d₁.view.grid.cursor.addr ≠ d.view.grid.cursor.addr := by
          rw [haddr, h.addr_eq, ← hstays]
          exact hmoved
        have hback := addr_pumped (hasked.trans hsome) (hleft.follow.trans h.follow) hne.symm
          (h.inBounds hleft hne)
        rw [hback, hstays, ← haddr]
        exact hne.symm

/-! ## Opening both -/

theorem overlay_settle (p : Project) (g : SyncGroup) (options : ViewOptions) (now : Nat)
    (grid : Grid) : (settle p g options now grid).view.grid.overlay =
      (((grid.overlay.setClassification
        (if options.smart then p.items.highlights grid.cursor.addr else []) grid.cursor.span
        ).setPatches p.patchRegions grid.cursor.span).setSynchronized
          (View.foreignRegions g.nextId g.join.2) grid.cursor.span) := rfl

/-- Two views that are opened alike, while nobody has selected anything, are paired. -/
theorem paired_settle {p q : Project} {g k : SyncGroup} {options : ViewOptions} {now now' : Nat}
    {grid : Grid} (hp : p.patches.Sound) (hq : q.patches.Sound) (hg : g.Sound) (hk : k.Sound)
    (himage : p.image = q.image) (hitems : p.items = q.items)
    (hset : p.patches.set = q.patches.set) (hnobody : ∀ me, g.rangesExcept me = [])
    (hnobody' : ∀ me, k.rangesExcept me = []) (hfollow : options.follow = true)
    (hgrid : grid.source = some .project ∧ grid.listeners = [] ∧ grid.cursor.moving = false)
    (haddr : grid.cursor.addr = grid.cursor.start) :
    Paired (settle p g options now grid) (settle q k options now' grid) := by
  have hleft : Opened p g (settle p g options now grid) := settle_spec hp hg hgrid
  have hright : Opened q k (settle q k options now' grid) := settle_spec hq hk hgrid
  have hforeign : ∀ h : SyncGroup, h.Sound → (∀ me, h.rangesExcept me = []) →
      View.foreignRegions h.nextId h.join.2 = [] := by
    intro h hh hnobody
    unfold View.foreignRegions
    rw [SyncGroup.join_rangesExcept hh, hnobody]
    rfl
  have hoverlay : (settle p g options now grid).view.grid.overlay =
      (settle q k options now' grid).view.grid.overlay := by
    rw [overlay_settle, overlay_settle, hitems, View.patchRegions_congr hset, hforeign g hg hnobody,
      hforeign k hk hnobody']
  obtain ⟨hhears, hasked⟩ := SyncGroup.target?_subscribe_self hg.join.fresh g.nextId
  obtain ⟨-, hasked'⟩ := SyncGroup.target?_subscribe_self hk.join.fresh k.nextId
  refine ⟨⟨⟨⟨hleft.inStep.ofView, hright.inStep.ofView, rfl, rfl, rfl, hoverlay, rfl, himage,
    hitems, hset⟩, rfl⟩, hfollow, .inl haddr, ⟨hhears, ?_⟩, ?_, ?_, hasked'⟩, ?_⟩
  · intro addr hsome
    exact absurd (hasked.symm.trans hsome) nofun
  · exact (SyncGroup.join_rangesExcept hg _).trans (hnobody _)
  · exact (SyncGroup.join_rangesExcept hk _).trans (hnobody' _)
  · refine settles_self hright.inStep.painted ?_ rfl
    rw [overlay_settle, hforeign k hk hnobody']
    rfl

end HexEditor.Desk
