import HexEditor.Proofs.View.Pair
import HexEditor.Proofs.View.Reachable

/-!
# Views that follow one view

All views of a workspace show its one project and are in one group, and all but one of them are
only pumped (`Attends`).  The one that is used leads: every mailbox asks its owner to go to where
it is.  This is kept when a view is pumped, when another view joins, and when the leading view
is used without turning back.
-/

namespace HexEditor

namespace Workspace

variable {w w' : Workspace} {v v' a x y : Nat} {s t : Seat} {d : Desk}

/-- All views are of one project and in one group; the last cursor is at `x`, and nobody is asked
to go anywhere else; all but the view `a` are idle. -/
structure Attends (w : Workspace) (a x : Nat) : Prop where
  sound : w.Sound
  single : w.projects.length = 1
  group : ∀ v s, w.seat? v = some s → s.group = 0
  at_addr : (w.group 0).At x
  points : ∀ v s, w.seat? v = some s → (w.group 0).Points x s.view.member s.view.syncInbox
  idle : ∀ v s, v ≠ a → w.seat? v = some s → s.view.Idle

/-! ## One seat -/

theorem Attends.project (h : w.Attends a x) (hs : w.seat? v = some s) : s.project = 0 := by
  have hlt := h.sound.project_lt v s hs
  rw [h.single] at hlt
  exact Nat.lt_one_iff.1 hlt

theorem Attends.desk (h : w.Attends a x) (hs : w.seat? v = some s) :
    w.desk s = { view := s.view, project := w.project 0, group := w.group 0, now := w.now
                 log := w.log } := by
  unfold Workspace.desk
  rw [h.project hs, h.group v s hs]

/-- A view may take its seat again, or a new one, after all have been led to `y`. -/
theorem Attends.putBack (h : w.Attends a x) (hv : v < w.seats.length) (hgroup : s.group = 0)
    (hsound : (w.putBack v s d).Sound) (hat : d.group.At y)
    (hothers : ∀ v' t, v' ≠ v → w.seat? v' = some t →
      d.group.Points y t.view.member t.view.syncInbox)
    (hself : d.group.Points y d.view.member d.view.syncInbox) (hidle : v ≠ a → d.view.Idle) :
    (w.putBack v s d).Attends a y := by
  have hgroup' : (w.putBack v s d).group 0 = d.group := hgroup ▸ group_putBack
  have hseat : ∀ v' t, (w.putBack v s d).seat? v' = some t →
      v' = v ∧ t = { s with view := d.view } ∨ v' ≠ v ∧ w.seat? v' = some t := by
    intro v' t ht
    by_cases hv' : v' = v
    · subst hv'
      rw [seat?_putBack_self hv] at ht
      exact .inl ⟨rfl, (Option.some.inj ht).symm⟩
    · rw [seat?_putBack_of_ne hv'] at ht
      exact .inr ⟨hv', ht⟩
  refine ⟨hsound, ?_, ?_, ?_, ?_, ?_⟩
  · exact (List.length_set ..).trans h.single
  · intro v' t ht
    rcases hseat v' t ht with ⟨-, rfl⟩ | ⟨-, ht⟩
    · exact hgroup
    · exact h.group v' t ht
  · rw [hgroup']
    exact hat
  · intro v' t ht
    rw [hgroup']
    rcases hseat v' t ht with ⟨-, rfl⟩ | ⟨hv', ht⟩
    · exact hself
    · exact hothers v' t hv' ht
  · intro v' t hv' ht
    rcases hseat v' t ht with ⟨rfl, rfl⟩ | ⟨-, ht⟩
    · exact hidle hv'
    · exact h.idle v' t hv' ht

/-! ## Pumping -/

/-- Pumping any view leads nobody elsewhere. -/
theorem Attends.pump (h : w.Attends a x) (hs : w.seat? v = some s) :
    w.perform (.view v .pump) = .ok (w.putBack v s (w.desk s).pumped) ∧
      (w.putBack v s (w.desk s).pumped).Attends a x := by
  have hstep := h.sound.inStep v s hs
  have hperform := perform_pump hs hstep.ofView.upkept
  have hleads := Desk.leads_pumped (w.desk s)
  have hgroup : (w.desk s).group = w.group 0 := congrArg w.group (h.group v s hs)
  have htarget : ∀ addr, (w.desk s).target? = some addr → addr = x := by
    have hself := (h.points v s hs).eq
    rw [← hgroup] at hself
    exact hself
  have hpoints : ∀ v' t, w.seat? v' = some t →
      (w.desk s).pumped.group.Points x t.view.member t.view.syncInbox :=
    fun v' t ht => Desk.points_pumped (hgroup ▸ h.points v' t ht) htarget
  refine ⟨hperform, h.putBack (lt_of_seat? hs) (h.group v s hs)
    (h.sound.perform (r := .view v .pump) trivial hperform) ?_ (fun v' t _ ht => hpoints v' t ht)
    ?_ ?_⟩
  · exact Desk.at_pumped (hgroup ▸ h.at_addr) htarget
  · rw [hleads.member, hleads.syncInbox]
    exact hpoints v s hs
  · exact fun hne => Desk.idle_pumped (h.idle v s hne hs)

/-! ## The leading view -/

/-- The leading view may go elsewhere, with everybody else led there. -/
theorem Attends.led (h : w.Attends a s.view.grid.cursor.addr) (hs : w.seat? a = some s)
    (hsound : (w.putBack a s d).Sound) (hled : Desk.Led (w.desk s) d)
    (hself : d.group.Points d.view.grid.cursor.addr d.view.member d.view.syncInbox) :
    (w.putBack a s d).Attends a d.view.grid.cursor.addr := by
  have hgroup : (w.desk s).group = w.group 0 := congrArg w.group (h.group a s hs)
  have hat : (w.desk s).group.At s.view.grid.cursor.addr := hgroup ▸ h.at_addr
  refine h.putBack (lt_of_seat? hs) (h.group a s hs) hsound (hled.at_addr hat) ?_ hself
    fun hne => absurd rfl hne
  intro v t hv ht
  refine hled.points hat t.view.member ?_ t.view.syncInbox ?_
  · exact (h.sound.apart v t a s hv ht hs).member ((h.group v t ht).trans (h.group a s hs).symm)
  · rw [hgroup]
    exact h.points v t ht

/-! ## Opening -/

/-- The workspace after a view with the given grid has been opened. -/
def settled (w : Workspace) (options : ViewOptions) (grid : Grid) : Workspace :=
  let d := Desk.settle (w.project 0) (w.group 0) options w.now grid
  w.withSeat.putBack w.seats.length { view := d.view, project := 0, group := 0 }
    { d with log := w.log }

theorem openView_eq (w : Workspace) (options : ViewOptions) :
    w.perform (.openView 0 0 options) = Desk.frame (w.project 0) >>= fun f =>
      .ok (w.settled options (Desk.firstGrid options f.1 f.2.1 f.2.2)) := by
  unfold perform openView
  dsimp only
  rw [Desk.openView_eq]
  cases Desk.frame (w.project 0) <;> rfl

theorem settled_project (h : 0 < w.projects.length) (options : ViewOptions) (grid : Grid) :
    (w.settled options grid).project 0 =
      { w.project 0 with patches := (w.project 0).patches.subscribe.2 } :=
  project_setProject_self (w := w.withSeat) h

theorem settled_group (w : Workspace) (options : ViewOptions) (grid : Grid) :
    (w.settled options grid).group 0 = (w.group 0).join.2.subscribe.2 := group_setGroup_self

theorem settled_seat? (w : Workspace) (options : ViewOptions) (grid : Grid) :
    (w.settled options grid).seat? w.seats.length = some
      { view := (Desk.settle (w.project 0) (w.group 0) options w.now grid).view, project := 0,
        group := 0 } :=
  seat?_putBack_self (w := w.withSeat) (by simp [withSeat])

theorem settled_desk (h : 0 < w.projects.length) (options : ViewOptions) (grid : Grid) :
    (w.settled options grid).desk
        { view := (Desk.settle (w.project 0) (w.group 0) options w.now grid).view, project := 0
          group := 0 } =
      { Desk.settle (w.project 0) (w.group 0) options w.now grid with now := w.now, log := w.log } :=
  desk_putBack (w := w.withSeat) h

theorem settled_seat?_of_ne {options : ViewOptions} {grid : Grid} (h : v ≠ w.seats.length) :
    (w.settled options grid).seat? v = w.seat? v := by
  unfold settled
  rw [seat?_putBack_of_ne h, seat?_withSeat]

/-- A view that joins leads nobody elsewhere. -/
theorem Attends.join (h : w.Attends a x) {options : ViewOptions}
    (hopen : w.perform (.openView 0 0 options) = .ok w') : w'.Attends a x := by
  have hallowed : (WorkspaceRequest.openView 0 0 options).Allowed w :=
    Nat.lt_of_lt_of_eq Nat.one_pos h.single.symm
  have hsound := h.sound.perform hallowed hopen
  rw [openView_eq] at hopen
  obtain ⟨f, -, hplace⟩ := Checked.bind_eq_ok_iff.1 hopen
  obtain rfl := Except.ok.inj hplace
  have hempty : w.withSeat.Attends a x :=
    ⟨h.sound.withSeat, h.single, fun v t ht => h.group v t (seat?_withSeat v ▸ ht), h.at_addr,
      fun v t ht => h.points v t (seat?_withSeat v ▸ ht),
      fun v t hv ht => h.idle v t hv (seat?_withSeat v ▸ ht)⟩
  refine hempty.putBack (by simp [withSeat]) rfl hsound ?_ ?_ ?_ ?_
  · exact h.at_addr
  · intro v' t _ ht
    exact (h.points v' t (seat?_withSeat v' ▸ ht)).join.subscribe
  · have hjoined := (h.sound.group 0).join
    obtain ⟨hhears, htarget⟩ := SyncGroup.target?_subscribe_self hjoined.fresh (w.group 0).nextId
    refine ⟨hhears, ?_⟩
    intro addr haddr
    exact absurd (htarget.symm.trans haddr) nofun
  · exact fun _ => ⟨rfl, rfl⟩

/-! ## The same view alone -/

variable {u u' : Workspace} {r : ViewRequest}

/-- Where the cursor of an open view is. -/
def address? (w : Workspace) (v : Nat) : Option Nat :=
  (w.seat? v).map (·.view.grid.cursor.addr)

/-- A cursor move of another member waits in the mail of an open view. -/
def EchoWaits (w : Workspace) (v : Nat) : Prop :=
  ∃ s, w.seat? v = some s ∧ (w.group s.group).target? s.view.member s.view.syncInbox ≠ none

/-- A cursor move of another member waits in the mail of the view `a`, which moves on by itself. -/
def TurnsBack (a : Nat) (w u u' : Workspace) : Prop :=
  w.EchoWaits a ∧ u'.address? 0 ≠ u.address? 0

/-- The view `a` of `w` among those that follow it, and the view of `u`, which is the only one
there, are paired. -/
structure Related (a : Nat) (w u : Workspace) : Prop where
  sound : u.Sound
  opens : ∃ f, Desk.frame (w.project 0) = .ok f
  seats : ∃ s t, w.seat? a = some s ∧ u.seat? 0 = some t ∧
    w.Attends a s.view.grid.cursor.addr ∧ Desk.Paired (w.desk s) (u.desk t)

/-- The others may do whatever leads nobody elsewhere and selects nothing. -/
theorem Related.others (h : Related a w u) (hattends : ∀ x, w.Attends a x → w'.Attends a x)
    (hseat : ∀ s, w.seat? a = some s → w'.seat? a = some s)
    (himage : (w'.project 0).image = (w.project 0).image)
    (hitems : (w'.project 0).items = (w.project 0).items)
    (hset : (w'.project 0).patches.set = (w.project 0).patches.set)
    (hranges : ∀ me, (w.group 0).rangesExcept me = [] → (w'.group 0).rangesExcept me = []) :
    Related a w' u := by
  obtain ⟨f, hf⟩ := h.opens
  obtain ⟨s, t, hs, ht, hw, hpaired⟩ := h.seats
  have hw' := hattends _ hw
  have hpoints := hw'.points a s (hseat s hs)
  have hothers := hpaired.others
  refine ⟨h.sound, ⟨f, (Desk.frame_congr himage).trans hf⟩, s, t, hseat s hs, ht, hw', ?_⟩
  rw [hw.desk hs] at hpaired hothers
  rw [hw'.desk (hseat s hs)]
  exact hpaired.of_others rfl himage hitems hset hpoints (hranges _ hothers)

/-- Another view may join. -/
theorem Related.join (h : Related a w u) (options : ViewOptions) :
    ∃ w', w.perform (.openView 0 0 options) = .ok w' ∧ Related a w' u := by
  obtain ⟨f, hf⟩ := h.opens
  have hopen : w.perform (.openView 0 0 options) =
      .ok (w.settled options (Desk.firstGrid options f.1 f.2.1 f.2.2)) := by
    rw [openView_eq, hf]
    rfl
  obtain ⟨s, -, hs, -, hw, -⟩ := h.seats
  have hsingle : 0 < w.projects.length := Nat.lt_of_lt_of_eq Nat.one_pos hw.single.symm
  refine ⟨_, hopen, h.others (fun x hx => hx.join hopen) ?_ ?_ ?_ ?_ ?_⟩
  · intro s hs
    rw [settled_seat?_of_ne (lt_of_seat? hs).ne]
    exact hs
  · rw [settled_project hsingle]
  · rw [settled_project hsingle]
  · rw [settled_project hsingle]
    rfl
  · intro me hme
    rw [settled_group]
    exact (SyncGroup.join_rangesExcept (hw.sound.group 0) me).trans hme

/-- Any view may be pumped. -/
theorem Related.pump (h : Related a w u) (v : Nat) :
    ∃ w', w.perform (.view v .pump) = .ok w' ∧ Related a w' u := by
  obtain ⟨f, hf⟩ := h.opens
  obtain ⟨s, t, hs, ht, hw, hpaired⟩ := h.seats
  cases hv : w.seat? v with
  | none =>
      refine ⟨w, ?_, h⟩
      unfold perform
      dsimp only
      rw [hv]
      rfl
  | some s' =>
      -- of the project only the mail is touched
      obtain ⟨hperform, hpumped⟩ := hw.pump hv
      have hlt := hw.sound.project_lt v s' hv
      have hproject : (w.putBack v s' (w.desk s').pumped).project 0 =
          { w.project 0 with patches := { (w.project 0).patches with
            changes := ((w.project 0).patches.changes.collect s'.view.patchInbox).2 } } := by
        have hfound : (w.putBack v s' (w.desk s').pumped).project s'.project =
            (w.desk s').pumped.project := project_putBack hlt
        rw [Desk.project_pumped] at hfound
        rw [hw.project hv] at hfound
        rw [hfound, hw.desk hv]
      by_cases hva : v = a
      · subst hva
        obtain rfl := Option.some.inj (hs.symm.trans hv)
        -- the leading view is asked to go to where it is
        have hstep := hw.sound.inStep v s hs
        have hnew := hpaired.pumped hstep
        refine ⟨_, hperform, h.sound, ?_, _, t, seat?_putBack_self (lt_of_seat? hs), ht, ?_, ?_⟩
        · rw [hproject]
          exact ⟨f, (Desk.frame_congr rfl).trans hf⟩
        · have haddr : (w.desk s).pumped.view.grid.cursor.addr = s.view.grid.cursor.addr :=
            hnew.addr_eq.trans hpaired.addr_eq.symm
          rw [haddr]
          exact hpumped
        · rw [desk_putBack hlt]
          exact hnew.of_others rfl rfl rfl rfl hnew.points hnew.others
      · refine ⟨_, hperform, h.others (fun x hx => (hx.pump hv).2) ?_ ?_ ?_ ?_ ?_⟩
        · intro s hs
          rw [seat?_putBack_of_ne (Ne.symm hva)]
          exact hs
        · rw [hproject]
        · rw [hproject]
        · rw [hproject]
        · intro me hme
          have hgroup : (w.putBack v s' (w.desk s').pumped).group 0 = (w.desk s').pumped.group :=
            hw.group v s' hv ▸ group_putBack
          have hmembers := Desk.members_pumped (d := w.desk s') (hw.idle v s' hva hv)
          unfold SyncGroup.rangesExcept at hme ⊢
          rw [hgroup, hmembers, hw.desk hv]
          exact hme

/-- The same input to the leading view and to the view that is alone leaves them related, unless
the leading view turns back. -/
theorem Related.input (h : Related a w u) (hr : r.isInput = true) :
    Checked.Rel (fun w' u' => (¬ TurnsBack a w u u' → Related a w' u') ∧
      (TurnsBack a w u u' → w'.address? a ≠ u'.address? 0))
      (w.perform (.view a r)) (u.perform (.view 0 r)) := by
  obtain ⟨f, hf⟩ := h.opens
  obtain ⟨s, t, hs, ht, hw, hpaired⟩ := h.seats
  have hlt := hw.sound.project_lt a s hs
  have hlt' := h.sound.project_lt 0 t ht
  rw [perform_view hs, perform_view ht]
  refine (hpaired.perform hr (hw.sound.desk s) (h.sound.desk t) (hw.sound.inStep a s hs)
    (h.sound.inStep 0 t ht)).results.bind ?_
  rintro d e ⟨hd, he, hquiet, hecho⟩
  have hperform : w.perform (.view a r) = .ok (w.putBack a s d) := by
    rw [perform_view hs, hd]
    rfl
  have hperform' : u.perform (.view 0 r) = .ok (u.putBack 0 t e) := by
    rw [perform_view ht, he]
    rfl
  have hseat : (w.putBack a s d).seat? a = some { s with view := d.view } :=
    seat?_putBack_self (lt_of_seat? hs)
  have hseat' : (u.putBack 0 t e).seat? 0 = some { t with view := e.view } :=
    seat?_putBack_self (lt_of_seat? ht)
  -- the two ways to say that the view turns back: of the workspaces, and of the desks
  have hturns : TurnsBack a w u (u.putBack 0 t e) ↔ Desk.Echoes (w.desk s) (u.desk t) e := by
    unfold TurnsBack address? Desk.Echoes
    rw [ht, hseat']
    refine and_congr ⟨?_, fun hwaits => ⟨s, hs, hwaits⟩⟩ (not_congr Option.some_inj)
    rintro ⟨s', hs', hwaits⟩
    obtain rfl := Option.some.inj (hs.symm.trans hs')
    exact hwaits
  rw [← hturns] at hquiet hecho
  refine .ok ⟨fun hstays => ?_, fun hturned => ?_⟩
  · obtain ⟨hpaired', hled⟩ := hquiet hstays
    have hproject : (w.putBack a s d).project 0 = d.project := hw.project hs ▸ project_putBack hlt
    have himage : d.project.image = (w.project 0).image := by
      rw [hled.image, hw.desk hs]
    refine ⟨h.sound.perform (r := .view 0 r) trivial hperform', ?_, _, _, hseat, hseat',
      hw.led hs (hw.sound.perform (r := .view a r) trivial hperform) hled hpaired'.points, ?_⟩
    · rw [hproject]
      exact ⟨f, (Desk.frame_congr himage).trans hf⟩
    · rw [desk_putBack hlt, desk_putBack hlt']
      have hleft : Desk.Paired { d with now := w.now } e :=
        hpaired'.of_others rfl rfl rfl rfl hpaired'.points hpaired'.others
      exact hleft.congr_right rfl rfl rfl
  · unfold address?
    rw [hseat, hseat']
    exact fun heq => hecho hturned (Option.some.inj heq)

/-! ## Opening -/

/-- The views that are opened before the leading one. -/
structure Gathered (p : Project) (w : Workspace) : Prop where
  attends : ∀ x, w.Attends w.seats.length x
  image : (w.project 0).image = p.image
  items : (w.project 0).items = p.items
  set : (w.project 0).patches.set = p.patches.set
  others : ∀ me, (w.group 0).rangesExcept me = []

theorem gathered_start {p : Project} (hp : p.patches.Sound) :
    Gathered p { projects := [p] } := by
  have hsound : Sound { projects := [p] } := by
    refine sound_of_no_seats ?_ rfl rfl
    intro q hq
    rw [List.mem_singleton.1 hq]
    exact hp
  have hseat : ∀ v s, ({ projects := [p] } : Workspace).seat? v ≠ some s := by
    intro v s hs
    exact absurd (lt_of_seat? hs) (Nat.not_lt_zero v)
  exact ⟨fun x => ⟨hsound, rfl, fun v s hs => absurd hs (hseat v s), nofun,
    fun v s hs => absurd hs (hseat v s), fun v s _ hs => absurd hs (hseat v s)⟩, rfl, rfl, rfl,
    fun _ => rfl⟩

variable {p : Project} {options : ViewOptions} {grid : Grid}

theorem Gathered.join (h : Gathered p w) (hopen : w.perform (.openView 0 0 options) = .ok w') :
    Gathered p w' ∧ w'.seats.length = w.seats.length + 1 := by
  have hw := h.attends 0
  have hsingle : 0 < w.projects.length := Nat.lt_of_lt_of_eq Nat.one_pos hw.single.symm
  have hattends : ∀ x, w'.Attends (w.seats.length + 1) x := by
    intro x
    have hx := h.attends x
    refine Attends.join ⟨hx.sound, hx.single, hx.group, hx.at_addr, hx.points, ?_⟩ hopen
    exact fun v s _ hs => hx.idle v s (lt_of_seat? hs).ne hs
  rw [openView_eq] at hopen
  obtain ⟨f, -, hplace⟩ := Checked.bind_eq_ok_iff.1 hopen
  obtain rfl := Except.ok.inj hplace
  have hlength : (w.settled options (Desk.firstGrid options f.1 f.2.1 f.2.2)).seats.length =
      w.seats.length + 1 :=
    (List.length_set ..).trans (List.length_append ..)
  refine ⟨⟨hlength ▸ hattends, ?_, ?_, ?_, ?_⟩, hlength⟩
  · rw [settled_project hsingle]
    exact h.image
  · rw [settled_project hsingle]
    exact h.items
  · rw [settled_project hsingle]
    exact h.set
  · intro me
    rw [settled_group]
    exact (SyncGroup.join_rangesExcept (hw.sound.group 0) me).trans (h.others me)

theorem Gathered.paired (h : Gathered p w) (hu : Gathered p u) (hfollow : options.follow = true)
    (hgrid : grid.source = some .project ∧ grid.listeners = [] ∧ grid.cursor.moving = false)
    (haddr : grid.cursor.addr = grid.cursor.start) :
    Desk.Paired
      { Desk.settle (w.project 0) (w.group 0) options w.now grid with now := w.now, log := w.log }
      { Desk.settle (u.project 0) (u.group 0) options u.now grid with now := u.now, log := u.log } := by
  have hw := (h.attends 0).sound
  have hu' := (hu.attends 0).sound
  have hpaired : Desk.Paired (Desk.settle (w.project 0) (w.group 0) options w.now grid)
      (Desk.settle (u.project 0) (u.group 0) options u.now grid) :=
    Desk.paired_settle (hw.store_project 0) (hu'.store_project 0) (hw.group 0) (hu'.group 0)
      (h.image.trans hu.image.symm) (h.items.trans hu.items.symm) (h.set.trans hu.set.symm)
      h.others hu.others hfollow hgrid haddr
  have hleft : Desk.Paired
      { Desk.settle (w.project 0) (w.group 0) options w.now grid with now := w.now, log := w.log }
      (Desk.settle (u.project 0) (u.group 0) options u.now grid) :=
    hpaired.of_others rfl rfl rfl rfl hpaired.points hpaired.others
  exact hleft.congr_right rfl rfl rfl

/-- The leading view, and the same view alone, are opened alike. -/
theorem Gathered.lead (h : Gathered p w) (hu : Gathered p u) (hseats : u.seats = [])
    (hfollow : options.follow = true) :
    Checked.Rel (Related w.seats.length) (w.perform (.openView 0 0 options))
      (u.perform (.openView 0 0 options)) := by
  have hw := h.attends 0
  have hsingle : 0 < w.projects.length := Nat.lt_of_lt_of_eq Nat.one_pos hw.single.symm
  have hsingle' : 0 < u.projects.length :=
    Nat.lt_of_lt_of_eq Nat.one_pos (hu.attends 0).single.symm
  have hframe : Desk.frame (u.project 0) = Desk.frame (w.project 0) :=
    Desk.frame_congr (hu.image.trans h.image.symm)
  have hopen := openView_eq w options
  have hopen' := openView_eq u options
  rw [hframe] at hopen'
  cases hf : Desk.frame (w.project 0) with
  | error e =>
      rw [hopen, hopen', hf]
      exact .error e
  | ok f =>
      rw [hf, Checked.ok_bind] at hopen hopen'
      rw [hopen, hopen']
      have hjoin : ∀ x, (w.settled options _).Attends w.seats.length x :=
        fun x => (h.attends x).join hopen
      have hjoin' := (hu.attends 0).join hopen'
      have hseat := settled_seat? w options (Desk.firstGrid options f.1 f.2.1 f.2.2)
      have hseat' := settled_seat? u options (Desk.firstGrid options f.1 f.2.1 f.2.2)
      rw [hseats] at hseat'
      refine .ok ⟨hjoin'.sound, ⟨f, ?_⟩, _, _, hseat, hseat', hjoin _, ?_⟩
      · rw [settled_project hsingle]
        exact (Desk.frame_congr rfl).trans hf
      · rw [settled_desk hsingle, settled_desk hsingle']
        exact h.paired hu hfollow ⟨rfl, rfl, rfl⟩ rfl

end Workspace

end HexEditor
