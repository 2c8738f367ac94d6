import HexEditor.Proofs.View.Pump

/-!
# A view that shows things as they are

What has to be seen right after pumping, in terms of the store and the group alone: the regions of
the patches, the regions of the other members, the cursor without the focus, the published record,
and the patches under the cursor.  All of it follows from a view that remembers everything as it
is (`upToDate_of_current`).
-/

namespace HexEditor

/-! ## Regions of patches -/

/-- The region is the one that is shown for the patch, whether or not it is marked. -/
structure Region.StandsFor (r : Region) (p : Patch) : Prop where
  category : r.category = .patch
  kind : r.kind = .patch
  addr : r.addr = p.addr
  size : r.size = p.size

/-- A proper patch has a region. -/
theorem Patch.Proper.patch?_eq {p : Patch} (hp : p.Proper) :
    ∃ r, Region.patch? p.addr p.size = some r ∧ r.StandsFor p := by
  have hstart := hp.addr_lt_stop
  have hstop := hp.stop_le
  unfold Patch.stop at hstart hstop
  have hrange : 0 < p.size ∧ p.addr + (p.size - 1) ≤ maxAddress := by omega
  refine ⟨⟨.patch, p.addr, p.size, false, .patch, hrange.1, hrange.2⟩, ?_, rfl, rfl, rfl, rfl⟩
  unfold Region.patch? Region.plain?
  rw [dif_pos hrange]
  rfl

namespace Region.StandsFor

variable {r : Region} {p : Patch}

theorem mark (h : r.StandsFor p) (span : Span) : (r.mark span).StandsFor p :=
  ⟨h.category, h.kind, h.addr, h.size⟩

theorem patchAddr?_eq (h : r.StandsFor p) : r.patchAddr? = some p.addr := by
  simp [patchAddr?, isMutable, h.kind, h.addr]

/-- The region reaches as far as the patch. -/
theorem bounds (h : r.StandsFor p) (hp : p.Proper) : r.last + 1 = p.stop ∧ r.stop = p.stop := by
  have hstart := hp.addr_lt_stop
  have hstop := hp.stop_le
  unfold Patch.stop at *
  unfold last stop clampedAdd
  rw [h.addr, h.size]
  omega

theorem contains_eq (h : r.StandsFor p) (hp : p.Proper) (a : Nat) :
    r.contains a = decide (a ∈ p) := by
  have hlast := (h.bounds hp).1
  rw [Bool.eq_iff_iff]
  simp only [contains, Bool.and_eq_true, decide_eq_true_eq, Patch.mem_iff, h.addr]
  omega

end Region.StandsFor

/-- What is read off the regions of the patches is read off the patches. -/
theorem Project.filterMap_patchRegions {p : Project} (h : p.patches.set.WellFormed) {β : Type}
    {f : Region → Option β} {k : Patch → Option β}
    (hk : ∀ (r : Region) (q : Patch), q.Proper → r.StandsFor q → f r = k q) :
    p.patchRegions.filterMap f = p.patches.set.values.filterMap k := by
  unfold patchRegions
  rw [List.filterMap_filterMap]
  refine List.filterMap_congr fun q hq => ?_
  have hproper := (PatchSet.wellFormed_iff.1 h).2.proper q hq
  obtain ⟨r, hr, hstands⟩ := hproper.patch?_eq
  rw [hr]
  exact hk r q hproper hstands

/-- What a region shows of a patch. -/
def Region.extent (r : Region) : Category × RegionKind × Nat × Nat :=
  (r.category, r.kind, r.addr, r.size)

theorem Project.map_extent_patchRegions {p : Project} (h : p.patches.set.WellFormed) :
    p.patchRegions.map Region.extent =
      p.patches.set.values.map fun q => (.patch, .patch, q.addr, q.size) := by
  rw [← List.filterMap_eq_map, ← List.filterMap_eq_map]
  refine filterMap_patchRegions h fun r q _ hr => ?_
  simp only [Function.comp_apply, Region.extent, hr.category, hr.kind, hr.addr, hr.size]

/-- The patches whose regions hold an address. -/
theorem Project.patchRegions_at {p : Project} (h : p.patches.set.WellFormed) (a : Nat) :
    (p.patchRegions.filter (·.contains a)).filterMap Region.patchAddr? =
      (p.patches.set.values.filter fun q => a ∈ q).map Patch.addr := by
  rw [List.filterMap_filter, ← List.filterMap_eq_filter, List.map_filterMap]
  refine filterMap_patchRegions h fun r q hq hr => ?_
  rw [hr.contains_eq hq, hr.patchAddr?_eq, Option.guard]
  split <;> rfl

namespace Desk

variable {d : Desk}

/-- The view shows the project and the group as they are. -/
structure UpToDate (d : Desk) : Prop where
  /-- One region for each patch, ascending. -/
  patches : d.view.grid.overlay.patches.map Region.extent =
    d.project.patches.set.values.map fun p => (.patch, .patch, p.addr, p.size)
  /-- The ranges of all other members, as far as there are such regions. -/
  synchronized : d.view.grid.overlay.synchronized =
    (d.group.rangesExcept d.view.member).filterMap fun r =>
      Region.plain? .synchronized r.addr r.size
  /-- What is painted are these regions, after those that say what the bytes mean. -/
  painted : d.view.grid.overlay.painted =
    (d.view.grid.overlay.classification ++ d.view.grid.overlay.synchronized ++
      d.view.grid.overlay.patches).map (Region.mark d.view.grid.cursor.span)
  alwaysShow : d.view.grid.blink.alwaysShow = true ↔ 1 < d.group.memberCount
  record : d.group.members.get? d.view.member =
    some (d.view.grid.cursor.selection?.toList.map fun s => ⟨s.first, s.count⟩)
  /-- At most one patch is under the cursor, and it is the one that the store finds there. -/
  underCursor : ∃ found, d.project.patches.patchAt? d.view.grid.cursor.addr = .ok found ∧
    d.patchesUnderCursor = found.toList

/-! ## Under the cursor -/

/-- The start addresses of the painted patches at an address are those of the store. -/
theorem patchAddr?_regionsUnder (hstore : d.project.patches.set.WellFormed)
    (hpainted : d.view.grid.Painted) (hcurrent : d.view.Current d.project d.group) :
    (d.view.grid.regionsUnder.filterMap Region.patchAddr?).Perm
      ((d.project.patches.set.values.filter fun p => d.view.grid.cursor.addr ∈ p).map
        Patch.addr) := by
  set a := d.view.grid.cursor.addr with ha
  -- neither the regions of items nor those of other members stand for a patch
  have hplain : ∀ rs : List Region, (∀ r ∈ rs, r.kind = .plain) →
      (rs.filter (·.contains a)).filterMap Region.patchAddr? = [] := by
    intro rs hrs
    refine List.filterMap_eq_nil_iff.2 fun r hr => ?_
    simp [Region.patchAddr?, Region.isMutable, hrs r (List.mem_of_mem_filter hr)]
  have hsynchronized : ∀ r ∈ d.view.grid.overlay.synchronized, r.kind = .plain := by
    rw [hcurrent.synchronized]
    intro r hr
    obtain ⟨range, -, hrange⟩ := List.mem_filterMap.1 hr
    exact (Region.of_plain? hrange).2.2.2
  have hfound : (d.view.grid.overlay.painted.filter (·.contains a)).filterMap Region.patchAddr? =
      (d.project.patches.set.values.filter fun p => a ∈ p).map Patch.addr := by
    rw [hpainted.eq, List.filter_map, List.filterMap_map]
    change (((_ ++ _ ++ _ : List Region).filter (·.contains a)).filterMap Region.patchAddr?) = _
    rw [List.filter_append, List.filter_append, List.filterMap_append, List.filterMap_append,
      hplain _ fun r hr => (hpainted.plain r hr).1, hplain _ hsynchronized, hcurrent.patches,
      Project.patchRegions_at hstore, List.nil_append, List.nil_append]
  -- the regions are sorted by how they are drawn, which does not keep their order
  rw [← hfound]
  exact (List.mergeSort_perm ..).filterMap _

theorem patchesUnderCursor_eq (hstore : d.project.patches.set.WellFormed)
    (hpainted : d.view.grid.Painted) (hcurrent : d.view.Current d.project d.group) :
    ∃ found, d.project.patches.patchAt? d.view.grid.cursor.addr = .ok found ∧
      d.patchesUnderCursor = found.toList := by
  obtain ⟨hheld, hlaid⟩ := PatchSet.wellFormed_iff.1 hstore
  refine ⟨_, PatchStore.patchAt?_eq hheld hlaid _, ?_⟩
  have hperm := patchAddr?_regionsUnder hstore hpainted hcurrent
  rw [hlaid.filter_mem_eq] at hperm
  unfold patchesUnderCursor
  -- a list of at most one element has no other order
  cases hfind : d.project.patches.set.values.find? fun p => d.view.grid.cursor.addr ∈ p with
  | none =>
      rw [hfind] at hperm
      rw [List.perm_nil.1 hperm]
      rfl
  | some p =>
      rw [hfind] at hperm
      have hget : d.project.patches.set.get? p.addr = some p :=
        hheld.get?_eq_some_iff.2 ⟨List.mem_of_find?_eq_some hfind, rfl⟩
      rw [List.perm_singleton.1 hperm, List.filterMap_cons, hget]
      rfl

theorem upToDate_of_current (hstore : d.project.patches.Sound)
    (hseated : d.view.Seated d.project d.group) (hcurrent : d.view.Current d.project d.group)
    (hpublished : d.view.published = d.view.grid.cursor.selection?) : d.UpToDate where
  patches := by
    rw [hcurrent.patches]
    exact Project.map_extent_patchRegions hstore.wellFormed
  synchronized := hcurrent.synchronized
  painted := hseated.painted.eq
  alwaysShow := by rw [hcurrent.alwaysShow, decide_eq_true_iff]
  record := by rw [hseated.record, hpublished]; rfl
  underCursor := patchesUnderCursor_eq hstore.wellFormed hseated.painted hcurrent

end Desk

end HexEditor
