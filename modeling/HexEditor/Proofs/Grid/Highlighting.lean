import HexEditor.Proofs.Grid.Heard

/-!
# What is highlighted around the cursor

The first of the three lists of a view's grid is about where the cursor is, but it is not computed
when it is painted: it is put in place by a listener, which a move calls when it has taken the
cursor to another address.  So it is right as long as every way to move the cursor calls that
listener, and as long as nothing moves the cursor behind its back.

The listener is the first one of the grid.  When those behind it are called, the list is right
again, and because their move is still under way, none of them can take the cursor elsewhere.  That
leaves two commands that spoil the list: one that puts another list in its place, and one that lays
out a new region, whose first address becomes that of the cursor without a move.  All others keep it
(`KeepsHighlights`), unless they bring in a listener that does not.

`Step.stays` is about a step of any kind.  Whether a move is under way, in which case no step can
tell anybody of another, or whoever is told calls the listener first, is all that it asks (`Minds`),
and so it serves the scripts of listeners as well as the commands of a user.
-/

namespace HexEditor

/-- Whether the command puts another list in the place of the highlights. -/
def Command.setsClassification : Command → Bool
  | .setClassification _ => true
  | _ => false

/-- The command leaves the highlights to the view, and so does every listener that it brings in. -/
inductive Command.KeepsHighlights : Command → Prop
  | listen {name : String} {script : List Command} (h : ∀ c ∈ script, KeepsHighlights c) :
      KeepsHighlights (.listen name script)
  | other {c : Command} (hlistener : c.listener? = none) (hregion : c.setsRegion = false)
      (hlist : c.setsClassification = false) : KeepsHighlights c

theorem Command.KeepsHighlights.setsRegion {c : Command} (h : c.KeepsHighlights) :
    c.setsRegion = false := by
  cases h with
  | listen => rfl
  | other _ hregion _ => exact hregion

/-- The listener carries out such commands only. -/
def Listener.KeepsHighlights (l : Listener) : Prop := ∀ c ∈ l.commands, c.KeepsHighlights

/-- What is highlighted when the cursor is at an address. -/
def Surroundings.highlights (around : Surroundings) (addr : Nat) : List Region :=
  if around.smart then around.project.items.highlights addr else []

/-- The first list is the right one for where the cursor is, all lists are painted, and no listener
changes that. -/
structure Grid.Lit (g : Grid) (highlights : Nat → List Region) : Prop where
  painted : g.overlay.Marked g.cursor.span
  classification : g.overlay.classification = highlights g.cursor.addr
  listeners : ∀ l ∈ g.listeners, l.KeepsHighlights

namespace Grid.Lit

variable {g g' : Grid} {highlights : Nat → List Region}

/-- Another selection needs other marks. -/
theorem remark (h : g.Lit highlights) (hoverlay : g'.overlay = g.overlay.updateActive g'.cursor.span)
    (haddr : g'.cursor.addr = g.cursor.addr) (hlisteners : g'.listeners = g.listeners) :
    g'.Lit highlights := by
  refine ⟨?_, ?_, hlisteners ▸ h.listeners⟩
  · rw [hoverlay]
    exact h.painted.remark _
  · rw [hoverlay, haddr]
    exact h.classification

/-- The same selection needs no other marks. -/
theorem of_span (h : g.Lit highlights) (hoverlay : g'.overlay = g.overlay)
    (hspan : g'.cursor.span = g.cursor.span) (haddr : g'.cursor.addr = g.cursor.addr)
    (hlisteners : g'.listeners = g.listeners) : g'.Lit highlights := by
  refine ⟨?_, ?_, hlisteners ▸ h.listeners⟩
  · rw [hoverlay, hspan]
    exact h.painted
  · rw [hoverlay, haddr]
    exact h.classification

theorem setSynchronized (h : g.Lit highlights) (regions : List Region) :
    (g.setSynchronized regions).Lit highlights := ⟨rfl, h.classification, h.listeners⟩

theorem setPatches (h : g.Lit highlights) (regions : List Region) :
    (g.setPatches regions).Lit highlights := ⟨rfl, h.classification, h.listeners⟩

theorem with_listeners (h : g.Lit highlights) {listeners : List Listener}
    (hkeep : ∀ l ∈ listeners, l.KeepsHighlights) : Lit { g with listeners } highlights :=
  ⟨h.painted, h.classification, hkeep⟩

/-- A change of the grid alone.  It leaves the listeners that are there where they are. -/
theorem change (h : g.Lit highlights) {c : Command} (hc : c.KeepsHighlights)
    (hchanged : Scene.Changed g c g') :
    g'.Lit highlights ∧ g.listeners <+: g'.listeners := by
  cases hchanged with
  | classification regions =>
      cases hc with
      | other _ _ hlist => cases hlist
  | synchronized regions => exact ⟨h.setSynchronized regions, List.prefix_rfl⟩
  | patches regions => exact ⟨h.setPatches regions, List.prefix_rfl⟩
  | listen name script =>
      cases hc with
      | listen hscript =>
          refine ⟨h.with_listeners fun l hl => ?_, List.prefix_append _ _⟩
          rcases List.mem_append.1 hl with hl | hl
          · exact h.listeners l hl
          · rw [List.mem_singleton.1 hl]
            exact hscript
      | other hlistener => cases hlistener
  | marked hoverlay haddr hlisteners =>
      exact ⟨h.remark hoverlay haddr hlisteners, hlisteners ▸ List.prefix_rfl⟩
  | unmarked hoverlay hcursor hlisteners =>
      exact ⟨h.of_span hoverlay (congrArg Cursor.span hcursor) (congrArg Cursor.addr hcursor)
        hlisteners, hlisteners ▸ List.prefix_rfl⟩

end Grid.Lit

namespace Scene

variable {notify : Notify} {s t u : Scene}

/-- The highlights of a scene are right. -/
abbrev Lit (s : Scene) : Prop := s.grid.Lit s.around.highlights

/-- The highlights are right at the end, nothing that they depend on beside the cursor has changed,
no listener has lost its place, and others have heard of nothing but requests to the store and
positions of the cursor. -/
structure Stays (s t : Scene) : Prop where
  lit : t.Lit
  listeners : s.grid.listeners <+: t.grid.listeners
  smart : t.around.smart = s.around.smart
  items : t.around.project.items = s.around.project.items
  member : t.around.member = s.around.member
  store : s.around.project.patches.Evolves t.around.project.patches
  group : ∃ cursors, t.around.group = s.around.group.setCursors s.around.member cursors

namespace Stays

theorem of_grid {grid : Grid} (h : grid.Lit s.around.highlights)
    (hlisteners : s.grid.listeners <+: grid.listeners) : Stays s { s with grid } :=
  ⟨h, hlisteners, rfl, rfl, rfl, .refl _, [], rfl⟩

theorem refl (h : s.Lit) : Stays s s := of_grid h List.prefix_rfl

theorem trans (hst : Stays s t) (htu : Stays t u) : Stays s u where
  lit := htu.lit
  listeners := hst.listeners.trans htu.listeners
  smart := htu.smart.trans hst.smart
  items := htu.items.trans hst.items
  member := htu.member.trans hst.member
  store := hst.store.trans htu.store
  group := SyncGroup.exists_setCursors_trans hst.group (hst.member ▸ htu.group)

theorem of_write (h : s.Lit) (hs : s.around.project.patches.Sound) {addr : Nat} {value : UInt8}
    {b : Bool} (hwrite : s.write addr value = .ok (b, t)) : Stays s t := by
  have hheard := Heard.of_write hs hwrite
  obtain ⟨source, patches, rfl⟩ := write_frame hwrite
  exact ⟨h.of_span rfl rfl rfl rfl, List.prefix_rfl, rfl, rfl, rfl, hheard.store, hheard.group⟩

/-- The first listener keeps its place. -/
theorem head? (h : Stays s t) {l : Listener} (hl : s.grid.listeners.head? = some l) :
    t.grid.listeners.head? = some l := by
  obtain ⟨more, hmore⟩ := h.listeners
  rw [← hmore, List.head?_append, hl, Option.some_or]

end Stays

/-! ## The listener of a view -/

/-- The listener of a view makes the highlights right, whatever they were before. -/
theorem upkeep_stays (h : ∀ l ∈ s.grid.listeners, l.KeepsHighlights) :
    Stays s s.refreshHighlights.publishCursor :=
  ⟨⟨rfl, rfl, h⟩, List.prefix_rfl, rfl, rfl, rfl, .refl _, [s.grid.cursor.addr], rfl⟩

/-- Whoever is told about a move makes the highlights right, as far as the listener of a view comes
first. -/
def Notify.Lights (notify : Notify) : Prop :=
  ∀ {s t : Scene}, s.grid.listeners.head? = some .viewUpkeep →
    (∀ l ∈ s.grid.listeners, l.KeepsHighlights) → s.grid.cursor.moving = true →
      s.around.project.patches.Sound → notify s = .ok t → Stays s t

/-- No move can leave the highlights behind: it is not taken, or it calls the listener of the view
first. -/
def Minds (notify : Notify) (s : Scene) : Prop :=
  s.grid.cursor.moving = true ∨
    Notify.Lights notify ∧ s.grid.listeners.head? = some .viewUpkeep

theorem Minds.of_stays (h : Minds notify s) (hstays : Stays s t)
    (hmoving : t.grid.cursor.moving = s.grid.cursor.moving) : Minds notify t :=
  h.imp hmoving.trans fun ⟨hlights, hfirst⟩ => ⟨hlights, hstays.head? hfirst⟩

/-! ## What one command does -/

theorem Step.stays (hstep : Step notify s t) (hminds : Minds notify s) (h : s.Lit)
    (hs : s.around.project.patches.Sound) : Stays s t := by
  cases hstep with
  | press on => exact .of_grid (h.of_span rfl rfl rfl rfl) List.prefix_rfl
  | beginSelection => exact .of_grid (h.remark rfl rfl rfl) List.prefix_rfl
  | clearSelection => exact .of_grid (h.remark rfl rfl rfl) List.prefix_rfl
  | write hwrite => exact .of_write h hs hwrite
  | @setCursor addr pane nibble b t hset =>
      cases placed hset with
      | refused => exact .refl h
      | stayed _ _ haddr =>
          subst haddr
          exact .of_grid (h.of_span rfl rfl rfl rfl) List.prefix_rfl
      | moved _ hstill _ hu =>
          rcases hminds with hmoving | ⟨hlights, hfirst⟩
          · rw [hstill] at hmoving
            cases hmoving
          · -- the highlights are those of the old address until the listener has been called
            have htold := hlights (s := (s.placing addr pane nibble).mapGrid (·.updateActive)) hfirst
              h.listeners rfl hs hu
            exact ⟨htold.lit.of_span rfl rfl rfl rfl, htold.listeners, htold.smart, htold.items,
              htold.member, htold.store, htold.group⟩

theorem Handles.stays (hhandles : Handles notify s t) (hminds : Minds notify s) (h : s.Lit)
    (hs : s.around.project.patches.Sound) : Stays s t := by
  refine (hhandles.keeps (P := fun t => Stays s t ∧
    t.grid.cursor.moving = s.grid.cursor.moving) ?_ ⟨.refl h, rfl⟩).1
  rintro u v hstep ⟨hu, hmoving⟩
  have hv := hstep.stays (hminds.of_stays hu hmoving) hu.lit (hu.store.sound hs)
  exact ⟨hu.trans hv, hstep.moving.trans hmoving⟩

theorem Performed.stays {c : Command} (hc : Performed notify s c t) (hkeeps : c.KeepsHighlights)
    (hminds : Minds notify s) (h : s.Lit) (hs : s.around.project.patches.Sound) : Stays s t := by
  cases hc with
  | handled _ hhandles => exact hhandles.stays hminds h hs
  | region => cases hkeeps.setsRegion
  | changed hf =>
      obtain ⟨hlit, hlisteners⟩ := h.change hkeeps (changed_of_change? hf s.grid)
      exact .of_grid hlit hlisteners
  | looked => exact .refl h
  | logTaken => exact ⟨h, List.prefix_rfl, rfl, rfl, rfl, .refl _, [], rfl⟩

/-! ## Telling the listeners -/

/-- A listener that is called during a move keeps the highlights. -/
theorem call_stays {l : Listener} (hkeeps : l.KeepsHighlights)
    (hmoving : s.grid.cursor.moving = true) (h : s.Lit) (hs : s.around.project.patches.Sound)
    (hcall : s.call l = .ok t) : Stays s t := by
  cases l with
  | viewUpkeep =>
      obtain rfl := Except.ok.inj hcall
      exact upkeep_stays h.listeners
  | script name commands =>
      obtain ⟨answers, u, hall, rfl⟩ := call_script hcall
      have hstays : Stays s u ∧ u.grid.cursor.moving = true := by
        refine performAll_keeps (P := fun u => Stays s u ∧ u.grid.cursor.moving = true) ?_ hall
          ⟨.refl h, hmoving⟩
        rintro v w c hmem hc ⟨hv, hmoving⟩
        have hw := hc.stays (hkeeps c hmem) (.inl hmoving) hv.lit (hv.store.sound hs)
        exact ⟨hv.trans hw, hc.moving.trans hmoving⟩
      obtain ⟨hstays, -⟩ := hstays
      exact ⟨hstays.lit, hstays.listeners, hstays.smart, hstays.items, hstays.member, hstays.store,
        hstays.group⟩

/-- The listener of a view makes the highlights right, and those behind it keep them. -/
theorem dispatch_lights : Notify.Lights dispatch := by
  intro s t hfirst hkeep hmoving hs hdispatch
  obtain ⟨u, hu, hret⟩ := Checked.bind_eq_ok_iff.1 hdispatch
  obtain rfl := Except.ok.inj hret
  obtain ⟨rest, hrest⟩ := List.head?_eq_some_iff.1 hfirst
  -- the listeners are called while the grid has none
  set emptied := s.mapGrid fun g => { g with listeners := [] } with hemptied
  have hstays : Stays emptied u := by
    rw [hrest, List.foldlM_cons] at hu
    obtain ⟨v, hv, hu⟩ := Checked.bind_eq_ok_iff.1 hu
    obtain rfl := Except.ok.inj hv
    have hupkept : Stays emptied emptied.refreshHighlights.publishCursor := upkeep_stays nofun
    refine (Checked.foldlM_keeps (P := fun u => Stays emptied u ∧
      u.grid.cursor.moving = true) ?_ hu ⟨hupkept, hmoving⟩).1
    rintro v w l hl hcall ⟨hv, hmoving⟩
    have hw := call_stays (hkeep l (hrest ▸ List.mem_cons_of_mem _ hl)) hmoving hv.lit
      (hv.store.sound hs) hcall
    exact ⟨hv.trans hw, (call_moving hcall).trans hmoving⟩
  refine ⟨hstays.lit.with_listeners fun l hl => ?_, List.prefix_append _ _, hstays.smart,
    hstays.items, hstays.member, hstays.store, hstays.group⟩
  rcases List.mem_append.1 hl with hl | hl
  · exact hkeep l hl
  · exact hstays.lit.listeners l hl

/-! ## Between commands -/

/-- The scene of a view between commands: the highlights are right, and the next move calls the
listener of the view first. -/
structure Attentive (s : Scene) : Prop where
  lit : s.Lit
  first : s.grid.listeners.head? = some .viewUpkeep
  still : s.grid.cursor.moving = false

namespace Attentive

theorem minds (h : s.Attentive) : Minds dispatch s := .inr ⟨dispatch_lights, h.first⟩

theorem of_stays (h : s.Attentive) (hstays : Stays s t)
    (hmoving : t.grid.cursor.moving = s.grid.cursor.moving) : t.Attentive :=
  ⟨hstays.lit, hstays.head? h.first, hmoving.trans h.still⟩

end Attentive

end Scene

end HexEditor
