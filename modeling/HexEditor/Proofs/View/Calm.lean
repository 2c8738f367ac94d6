import HexEditor.Proofs.View.Follow

/-!
# Views that have nothing to do

A view rests at `x` if going there would leave it as it is: it does not follow others, it is there
already, or `x` is not in its region and it has nothing selected.  A calm view rests wherever its
mail asks it to go and has published its selection.  Pumping it tells nobody anything
(`Calm.pumped`); all that happens is that it collects its mail.  Once no mail waits, pumping
it changes nothing at all (`Calm.pump_eq_self`).

Whoever is asked to go to `x` rests there after it has been pumped (`rests_pumped`), and what it
tells the others is that it has gone to `x`, or nothing that moves a cursor (`exists_asks`).
-/

namespace HexEditor

/-- Going to `x` would leave the view as it is. -/
def View.Rests (x : Nat) (v : View) : Prop :=
  v.follow = true → v.grid.cursor.addr = x ∨
    v.grid.cursor.inBounds x = false ∧ v.grid.cursor.anchor = none

namespace SyncGroup

variable {g h : SyncGroup} {me : MemberId} {inbox : SubscriberId} {told : Option Nat}

/-- From `g` to `h` the member has asked all others to go to `told`, or nobody to go anywhere. -/
def Asks (me : MemberId) (inbox : SubscriberId) (told : Option Nat) (g h : SyncGroup) : Prop :=
  ∀ other ≠ me, ∀ box ≠ inbox, g.events.Hears box →
    h.events.Hears box ∧ h.target? other box = told.or (g.target? other box)

theorem asks_collect (g : SyncGroup) (me : MemberId) (inbox : SubscriberId) :
    Asks me inbox none g { g with events := (g.events.collect inbox).2 } := by
  intro other _ box hbox hhears
  exact target?_of_delivers (h := { g with events := (g.events.collect inbox).2 }) other hhears
    (Broadcast.collect_delivers _ hbox.symm)

theorem Asks.publish (hasks : Asks me inbox told g h) (ranges : List AddrRange) :
    Asks me inbox told g (h.publish me ranges) := by
  intro other hother box hbox hhears
  obtain ⟨hhears', htarget⟩ := hasks other hother box hbox hhears
  obtain ⟨hhears'', hsame⟩ := target?_publish other me hhears' ranges
  exact ⟨hhears'', hsame.trans htarget⟩

/-- A place that is announced counts, whatever has been announced before. -/
theorem Asks.setCursor (hasks : Asks me inbox told g h) (x : Nat) :
    Asks me inbox told g (h.setCursor me x) ∨ Asks me inbox (some x) g (h.setCursor me x) := by
  unfold SyncGroup.setCursor
  split
  · exact .inl hasks
  · right
    intro other hother box hbox hhears
    obtain ⟨hhears', htarget⟩ := target?_of_announce other
      (h := { h with cursor := some (me, x) }.announce (.cursorMoved me x))
      (hasks other hother box hbox hhears).1 rfl
    rw [Desk.followTarget?_moved, if_neg hother.symm, Option.some_or] at htarget
    exact ⟨hhears', htarget⟩

end SyncGroup

namespace Desk

variable {d : Desk} {x : Nat}

/-- The view has published its selection, and rests where its mail asks it to go. -/
structure Calm (d : Desk) : Prop where
  published : d.view.published = d.view.grid.cursor.selection?
  rests : ∀ x, d.target? = some x → d.view.Rests x

/-- No mail waits for the view. -/
structure Drained (d : Desk) : Prop where
  patchMail : d.project.patches.changes.Cleared d.view.patchInbox
  syncMail : d.group.events.Cleared d.view.syncInbox

/-! ## Going to where others are -/

theorem followed_follow (d : Desk) (x : Nat) : (d.followed x).view.follow = d.view.follow := by
  unfold followed
  split <;> rfl

/-- A view rests where it has been asked to go. -/
theorem rests_followed (d : Desk) (x : Nat) : (d.followed x).view.Rests x := by
  intro hfollow
  rw [followed_follow] at hfollow
  by_cases hne : x = d.view.grid.cursor.addr
  · subst hne
    rw [followed_of_eq]
    exact .inl rfl
  · cases hin : d.view.grid.cursor.inBounds x with
    | true => exact .inl (followed_addr hfollow hne hin)
    | false =>
        have hgo : ¬ (!d.view.follow || decide (x = d.view.grid.cursor.addr)) = true := by
          simp [hfollow, hne]
        refine .inr ?_
        unfold followed
        rw [if_neg hgo]
        dsimp only
        rw [if_neg (by simp [hin])]
        exact ⟨hin, rfl⟩

/-- Where a view rests it does not go, and nobody hears of it. -/
theorem followed_of_rests (h : d.view.Rests x) :
    (d.followed x).view.grid.cursor = d.view.grid.cursor ∧
      (d.followed x).view.published = d.view.published ∧ (d.followed x).group = d.group := by
  unfold followed
  split
  · exact ⟨rfl, rfl, rfl⟩
  · next hgo =>
      have hgo' : d.view.follow = true ∧ x ≠ d.view.grid.cursor.addr := by simpa using hgo
      obtain ⟨hfollow, hne⟩ := hgo'
      rcases h hfollow with haddr | ⟨hout, hanchor⟩
      · exact absurd haddr.symm hne
      · dsimp only
        rw [if_neg (by simp [hout])]
        have hcursor : d.view.grid.cursor.clearSelection = d.view.grid.cursor := by
          unfold Cursor.clearSelection
          rw [← hanchor]
        exact ⟨hcursor, rfl, rfl⟩

/-! ## Pumping -/

theorem pumped_follow (d : Desk) : d.pumped.view.follow = d.view.follow := by
  have hrenewed : d.renewed.view.follow = d.view.follow := by rw [(renews_renewed d).view]
  unfold pumped
  rw [publishSelection_view]
  cases d.target? with
  | none => exact hrenewed
  | some addr => exact (followed_follow _ addr).trans hrenewed

/-- A view that rests at `x`, or is asked to go there, rests there after pumping, unless it is
asked to go elsewhere. -/
theorem rests_pumped (htarget : ∀ y, d.target? = some y → y = x)
    (h : d.view.Rests x ∨ d.target? = some x) : d.pumped.view.Rests x := by
  cases hasked : d.target? with
  | none =>
      have hstays : d.pumped.view.grid.cursor = d.view.grid.cursor :=
        cursor_pumped (by rw [hasked]; nofun)
      rw [hasked] at h
      have hrests : d.view.Rests x := h.resolve_right nofun
      intro hfollow
      rw [hstays]
      exact hrests (pumped_follow d ▸ hfollow)
  | some y =>
      obtain rfl := htarget y hasked
      have hrests := rests_followed d.renewed y
      unfold pumped
      rw [hasked, Option.elim_some, publishSelection_view]
      exact hrests

/-- A view that is not asked to go anywhere after pumping is calm. -/
theorem calm_pumped (htarget : d.pumped.target? = none) : d.pumped.Calm :=
  ⟨publishSelection_published _, fun _ hx => absurd (htarget.symm.trans hx) nofun⟩

/-- All others learn from pumping at most one thing that moves a cursor: the view has gone where
it was asked to go. -/
theorem exists_asks (d : Desk) : ∃ told, (∀ x, told = some x → d.target? = some x) ∧
    d.group.Asks d.view.member d.view.syncInbox told d.pumped.group := by
  refine pumped_group_induction (P := fun g => ∃ told, (∀ x, told = some x → d.target? = some x) ∧
    d.group.Asks d.view.member d.view.syncInbox told g) d ?_ ?_ ?_
  · exact ⟨none, nofun, SyncGroup.asks_collect _ _ _⟩
  · rintro g x hx ⟨told, htold, hasks⟩
    rcases hasks.setCursor x with hsame | hnew
    · exact ⟨told, htold, hsame⟩
    · refine ⟨some x, ?_, hnew⟩
      rintro _ ⟨⟩
      exact hx
  · rintro g ranges - ⟨told, htold, hasks⟩
    exact ⟨told, htold, hasks.publish ranges⟩

namespace Calm

/-- Pumping a calm view leaves its cursor alone and tells nobody anything. -/
theorem pumped (h : d.Calm) : d.pumped.view.grid.cursor = d.view.grid.cursor ∧
    d.pumped.group =
      { d.group with events := (d.group.events.collect d.view.syncInbox).2 } := by
  have hrenews := renews_renewed d
  have hcursor := hrenews.cursor
  have hview := hrenews.view
  -- whether the view is asked to go anywhere or not, it has nothing to publish in the end
  have hend : ∀ e : Desk, e.view.grid.cursor = d.view.grid.cursor →
      e.view.published = d.view.published → e.group = d.renewed.group →
      e.publishSelection.view.grid.cursor = d.view.grid.cursor ∧ e.publishSelection.group =
        { d.group with events := (d.group.events.collect d.view.syncInbox).2 } := by
    intro e hcursor hpublished hgroup
    have hsame : e.view.published = e.view.grid.cursor.selection? := by
      rw [hpublished, hcursor]
      exact h.published
    rw [publishSelection_of_published hsame]
    exact ⟨hcursor, hgroup.trans hrenews.group⟩
  have hpublished : d.renewed.view.published = d.view.published := by rw [hview]
  unfold Desk.pumped
  cases hasked : d.target? with
  | none => exact hend d.renewed hcursor hpublished rfl
  | some x =>
      have hrests : d.renewed.view.Rests x := by
        have hrests := h.rests x hasked
        rw [hview]
        exact hrests
      obtain ⟨hcursor', hpublished', hgroup⟩ := followed_of_rests hrests
      exact hend _ (hcursor'.trans hcursor) (hpublished'.trans hpublished) hgroup

/-- All mail of a calm view has been collected after pumping. -/
theorem drained_pumped (h : d.Calm) : d.pumped.Drained := by
  have hleads := leads_pumped d
  constructor
  · rw [hleads.patchInbox, project_pumped]
    exact Broadcast.collect_cleared _ _
  · rw [hleads.syncInbox, h.pumped.2]
    exact Broadcast.collect_cleared _ _

/-- Pumping a calm view for which no mail waits changes nothing. -/
theorem pump_eq_self (h : d.Calm) (hdrained : d.Drained) : d.pump = .ok (false, d) := by
  have hpatches := hdrained.patchMail.waiting
  have hevents := hdrained.syncMail.waiting
  have hinboxes : d.emptyInboxes = d := by
    unfold emptyInboxes
    dsimp only
    rw [hdrained.patchMail.collect_self, hdrained.syncMail.collect_self]
  have hpublish := publishSelection_of_published h.published
  unfold pump
  dsimp only
  rw [hpatches, hevents, hinboxes]
  show Except.ok (false, d.publishSelection) = _
  rw [hpublish]

end Calm

end Desk

end HexEditor
