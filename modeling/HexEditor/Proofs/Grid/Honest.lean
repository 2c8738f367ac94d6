import HexEditor.Proofs.Grid.Heard

/-!
# Regions that stand for patches

Which regions of a grid stand for patches is up to the view that owns it, which gives the grid one
region for each patch.  Commands can spoil that: they may replace the list of the patches, or put
regions that stand for patches into the other two lists, and a listener may do so whenever the
cursor moves.  All other commands are tame, and so is a listener whose script is.

A grid is honest when only the list of the patches holds such regions, all three lists are painted,
and no listener of it can change that.  Whatever tame commands do to an honest grid, it is honest
afterwards, shows the patches that it has shown before, and others hear of no more than they hear
of keys and the pointer (`Spared`).
-/

namespace HexEditor

/-- Whether the command gives the grid regions or a listener. -/
def Command.gives : Command → Bool
  | .setClassification _ | .setSynchronized _ | .setPatches _ | .listen .. => true
  | _ => false

/-- The command leaves the regions that stand for patches to the view, and so does every listener
that it brings in. -/
inductive Command.Tame : Command → Prop
  | classification {regions : List Region} (h : ∀ r ∈ regions, r.kind = .plain) :
      Tame (.setClassification regions)
  | synchronized {regions : List Region} (h : ∀ r ∈ regions, r.kind = .plain) :
      Tame (.setSynchronized regions)
  | listen {name : String} {script : List Command} (h : ∀ c ∈ script, Tame c) :
      Tame (.listen name script)
  | other {c : Command} (h : c.gives = false) : Tame c

/-- The listener carries out tame commands only. -/
def Listener.Tame (l : Listener) : Prop := ∀ c ∈ l.commands, c.Tame

/-- Only the list of the patches holds regions that stand for patches, all lists are painted, and
no listener changes that. -/
structure Grid.Honest (g : Grid) : Prop where
  painted : g.overlay.Marked g.cursor.span
  classification : ∀ r ∈ g.overlay.classification, r.kind = .plain
  synchronized : ∀ r ∈ g.overlay.synchronized, r.kind = .plain
  listeners : ∀ l ∈ g.listeners, l.Tame

namespace Grid.Honest

variable {g g' : Grid}

/-- Another cursor needs other marks. -/
theorem remark (h : g.Honest) (hoverlay : g'.overlay = g.overlay.updateActive g'.cursor.span)
    (hlisteners : g'.listeners = g.listeners) : g'.Honest := by
  refine ⟨?_, ?_, ?_, hlisteners ▸ h.listeners⟩
  · rw [hoverlay]
    exact h.painted.remark _
  · rw [hoverlay]
    exact h.classification
  · rw [hoverlay]
    exact h.synchronized

/-- Another cursor with the same span needs no other marks. -/
theorem of_span (h : g.Honest) (hoverlay : g'.overlay = g.overlay)
    (hspan : g'.cursor.span = g.cursor.span) (hlisteners : g'.listeners = g.listeners) :
    g'.Honest := by
  refine ⟨?_, hoverlay ▸ h.classification, hoverlay ▸ h.synchronized, hlisteners ▸ h.listeners⟩
  rw [hoverlay, hspan]
  exact h.painted

theorem setClassification (h : g.Honest) {regions : List Region}
    (hplain : ∀ r ∈ regions, r.kind = .plain) : (g.setClassification regions).Honest :=
  ⟨rfl, hplain, h.synchronized, h.listeners⟩

theorem setSynchronized (h : g.Honest) {regions : List Region}
    (hplain : ∀ r ∈ regions, r.kind = .plain) : (g.setSynchronized regions).Honest :=
  ⟨rfl, h.classification, hplain, h.listeners⟩

theorem setPatches (h : g.Honest) (regions : List Region) : (g.setPatches regions).Honest :=
  ⟨rfl, h.classification, h.synchronized, h.listeners⟩

theorem with_listeners (h : g.Honest) {listeners : List Listener}
    (htame : ∀ l ∈ listeners, l.Tame) : Honest { g with listeners } :=
  ⟨h.painted, h.classification, h.synchronized, htame⟩

/-- A tame change of the grid alone. -/
theorem change (h : g.Honest) {c : Command} (hc : c.Tame) (hchanged : Scene.Changed g c g') :
    g'.Honest ∧ g'.overlay.patches = g.overlay.patches := by
  cases hchanged with
  | classification regions =>
      cases hc with
      | classification hplain => exact ⟨h.setClassification hplain, rfl⟩
      | other hgives => cases hgives
  | synchronized regions =>
      cases hc with
      | synchronized hplain => exact ⟨h.setSynchronized hplain, rfl⟩
      | other hgives => cases hgives
  | patches regions =>
      cases hc with
      | other hgives => cases hgives
  | listen name script =>
      cases hc with
      | listen hscript =>
          refine ⟨h.with_listeners fun l hl => ?_, rfl⟩
          rcases List.mem_append.1 hl with hl | hl
          · exact h.listeners l hl
          · rw [List.mem_singleton.1 hl]
            exact hscript
      | other hgives => cases hgives
  | marked hoverlay _ hlisteners =>
      exact ⟨h.remark hoverlay hlisteners, by rw [hoverlay]; rfl⟩
  | unmarked hoverlay hcursor hlisteners =>
      exact ⟨h.of_span hoverlay (congrArg Cursor.span hcursor) hlisteners,
        congrArg Overlay.patches hoverlay⟩

end Grid.Honest

namespace Scene

variable {notify : Notify} {s t u : Scene}

/-- The grid is honest at the end and still shows the same patches, and others have heard of
nothing but requests to the store and positions of the cursor. -/
structure Spared (s t : Scene) : Prop where
  honest : t.grid.Honest
  patches : t.grid.overlay.patches = s.grid.overlay.patches
  member : t.around.member = s.around.member
  store : s.around.project.patches.Evolves t.around.project.patches
  group : ∃ cursors, t.around.group = s.around.group.setCursors s.around.member cursors

namespace Spared

theorem of_grid {grid : Grid} (h : grid.Honest)
    (hpatches : grid.overlay.patches = s.grid.overlay.patches) : Spared s { s with grid } :=
  ⟨h, hpatches, rfl, .refl _, [], rfl⟩

theorem refl (h : s.grid.Honest) : Spared s s := of_grid h rfl

theorem trans (hst : Spared s t) (htu : Spared t u) : Spared s u where
  honest := htu.honest
  patches := htu.patches.trans hst.patches
  member := htu.member.trans hst.member
  store := hst.store.trans htu.store
  group := SyncGroup.exists_setCursors_trans hst.group (hst.member ▸ htu.group)

theorem of_write (h : s.grid.Honest) (hs : s.around.project.patches.Sound) {addr : Nat}
    {value : UInt8} {b : Bool} (hwrite : s.write addr value = .ok (b, t)) : Spared s t := by
  have hheard := Heard.of_write hs hwrite
  obtain ⟨source, patches, rfl⟩ := write_frame hwrite
  exact ⟨h.of_span rfl rfl rfl, rfl, hheard.member, hheard.store, hheard.group⟩

end Spared

/-- Whoever is told about a move spares an honest grid. -/
def Notify.Spares (notify : Notify) : Prop :=
  ∀ {s t : Scene}, s.grid.Honest → s.around.project.patches.Sound → notify s = .ok t → Spared s t

theorem never_spares : Notify.Spares .never := by
  intro s t h _ hnever
  obtain rfl := Except.ok.inj hnever
  exact .refl h

theorem Step.spared (hnotify : Notify.Spares notify) (hstep : Step notify s t)
    (h : s.grid.Honest) (hs : s.around.project.patches.Sound) : Spared s t := by
  cases hstep with
  | press on => exact .of_grid (h.of_span rfl rfl rfl) rfl
  | beginSelection => exact .of_grid (h.remark rfl rfl) rfl
  | clearSelection => exact .of_grid (h.remark rfl rfl) rfl
  | write hwrite => exact .of_write h hs hwrite
  | @setCursor addr pane nibble b t hset =>
      cases placed hset with
      | refused => exact .refl h
      | stayed _ _ haddr =>
          subst haddr
          exact .of_grid (h.of_span rfl rfl rfl) rfl
      | moved _ _ _ hu =>
          have hmoved : Spared s ((s.placing addr pane nibble).mapGrid (·.updateActive)) :=
            .of_grid (h.remark rfl rfl) rfl
          have htold := hnotify hmoved.honest hs hu
          exact (hmoved.trans htold).trans (.of_grid (htold.honest.of_span rfl rfl rfl) rfl)

/-- A tame command spares an honest grid, as far as whoever is told about its moves does. -/
theorem Performed.spared (hnotify : Notify.Spares notify) {c : Command} (htame : c.Tame)
    (hc : Performed notify s c t) (h : s.grid.Honest) (hs : s.around.project.patches.Sound) :
    Spared s t := by
  cases hc with
  | handled _ hhandles =>
      refine hhandles.keeps (P := Spared s) ?_ (.refl h)
      intro u v hstep hu
      exact hu.trans (hstep.spared hnotify hu.honest (hu.store.sound hs))
  | region hregion =>
      obtain ⟨sheet, -, rfl⟩ := setRegion_cursor hregion
      exact .of_grid (h.remark rfl rfl) rfl
  | changed hf =>
      obtain ⟨hhonest, hpatches⟩ := h.change htame (changed_of_change? hf s.grid)
      exact .of_grid hhonest hpatches
  | looked => exact .refl h
  | logTaken => exact ⟨h, rfl, rfl, .refl _, [], rfl⟩

theorem call_spared {l : Listener} (htame : l.Tame) (h : s.grid.Honest)
    (hs : s.around.project.patches.Sound) (hcall : s.call l = .ok t) : Spared s t := by
  cases l with
  | viewUpkeep =>
      obtain rfl := Except.ok.inj hcall
      refine ⟨h.setClassification fun r hr => ?_, rfl, rfl, .refl _, [s.grid.cursor.addr], rfl⟩
      split at hr
      · exact (ItemMap.highlights_plain _ _ r hr).1
      · exact absurd hr List.not_mem_nil
  | script name commands =>
      obtain ⟨answers, u, hall, rfl⟩ := call_script hcall
      have hspared : Spared s u := by
        refine performAll_keeps (P := Spared s) ?_ hall (.refl h)
        intro v w c hmem hc hv
        exact hv.trans (hc.spared never_spares (htame c hmem) hv.honest (hv.store.sound hs))
      exact ⟨hspared.honest, hspared.patches, hspared.member, hspared.store, hspared.group⟩

/-- The listeners of an honest grid spare it. -/
theorem dispatch_spares : Notify.Spares dispatch := by
  intro s t h hs hdispatch
  obtain ⟨u, hu, hret⟩ := Checked.bind_eq_ok_iff.1 hdispatch
  obtain rfl := Except.ok.inj hret
  -- the listeners are called while the grid has none
  have hemptied : Spared s (s.mapGrid fun g => { g with listeners := [] }) :=
    .of_grid (h.with_listeners nofun) rfl
  have hspared : Spared s u := by
    refine Checked.foldlM_keeps (P := Spared s) ?_ hu hemptied
    intro v w l hl hcall hv
    exact hv.trans (call_spared (h.listeners l hl) hv.honest (hv.store.sound hs) hcall)
  refine hspared.trans (.of_grid (hspared.honest.with_listeners fun l hl => ?_) rfl)
  rcases List.mem_append.1 hl with hl | hl
  · exact h.listeners l hl
  · exact hspared.honest.listeners l hl

end Scene

end HexEditor
