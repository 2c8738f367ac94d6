import HexEditor.Proofs.Grid.Refusal

/-!
# The cursor is in a row

The rows of a sheet hold its region, and the cursor of a grid stays in the region as long as there
is one, so that there is a row for it.  Every command keeps that, and so do the listeners that are
told of a move, whatever they do.
-/

namespace HexEditor

/-- Every address of the region is in one of the rows. -/
def Sheet.Rowed (s : Sheet) : Prop :=
  ∀ addr, s.contains addr = true → (s.rowCol addr).1 < s.rowCount

theorem Sheet.rowed_of_create {start size : Nat} {metrics : CellMetrics} {s : Sheet}
    (h : Sheet.create start size metrics = .ok s) : s.Rowed := by
  obtain ⟨rows, hrows, hret⟩ := Checked.bind_eq_ok_iff.1 h
  obtain rfl := Except.ok.inj hret
  intro addr hcontains
  obtain ⟨hlow, hhigh⟩ := Sheet.contains_iff.1 hcontains
  have hstop : addr < start + size := Nat.lt_of_lt_of_le hhigh (Nat.min_le_left ..)
  unfold rowsFor at hrows
  split at hrows
  · next hnone =>
      dsimp only at hlow
      omega
  · obtain ⟨sum, hsum, hret⟩ := Checked.bind_eq_ok_iff.1 hrows
    obtain rfl := Except.ok.inj hret
    unfold checkedAdd at hsum
    split at hsum
    · obtain rfl := Except.ok.inj hsum
      unfold rowCol alignedStart bytesPerRow
      dsimp only at hlow ⊢
      omega
    · cases hsum

namespace Grid

/-- The rows hold the region, and the cursor stays in it. -/
structure Rowed (g : Grid) : Prop where
  rows : g.sheet.Rowed
  bounds : g.cursor.start = g.sheet.start ∧ g.cursor.stop = g.sheet.stop
  cursor_mem : g.sheet.start < g.sheet.stop → g.sheet.contains g.cursor.addr = true

namespace Rowed

variable {g g' : Grid}

/-- Only the rows and the place of the cursor matter. -/
theorem congr (h : g.Rowed) (hsheet : g'.sheet.start = g.sheet.start ∧
      g'.sheet.stop = g.sheet.stop ∧ g'.sheet.rowCount = g.sheet.rowCount)
    (hcursor : g'.cursor.start = g.cursor.start ∧ g'.cursor.stop = g.cursor.stop ∧
      g'.cursor.addr = g.cursor.addr) : g'.Rowed := by
  obtain ⟨⟨start, stop, rowCount, layout⟩, metrics, cursor⟩ := g'
  obtain ⟨rfl, rfl, rfl⟩ := hsheet
  obtain ⟨hstart, hstop, haddr⟩ := hcursor
  refine ⟨h.rows, ⟨hstart.trans h.bounds.1, hstop.trans h.bounds.2⟩, fun hregion => ?_⟩
  dsimp only at haddr ⊢
  rw [haddr]
  exact h.cursor_mem hregion

theorem setRegion {source : ByteSource} {start size : Nat}
    (hregion : g.setRegion source start size = .ok g') : g'.Rowed := by
  obtain ⟨sheet, hsheet, rfl⟩ := Scene.setRegion_cursor hregion
  refine ⟨Sheet.rowed_of_create hsheet, ⟨rfl, rfl⟩, fun hne => ?_⟩
  exact Sheet.contains_iff.2 ⟨Nat.le_refl _, hne⟩

/-- A change of the grid alone leaves the cursor where it is. -/
theorem change (h : g.Rowed) {c : Command} {f : Grid → Grid} (hf : c.change? = some f) :
    (f g).Rowed := by
  cases c with
  | setMetrics metrics =>
      cases hf
      simp only [Grid.setMetrics]
      split
      · exact h
      · exact h.congr ⟨rfl, rfl, rfl⟩ ⟨rfl, rfl, rfl⟩
  | _ =>
      cases hf <;> exact h.congr ⟨rfl, rfl, rfl⟩ ⟨rfl, rfl, rfl⟩

end Rowed

end Grid

namespace Scene

variable {notify : Notify} {s t : Scene}

/-- A cursor is only placed within its bounds, which are those of the region. -/
theorem placing_rowed (h : s.grid.Rowed) {addr : Nat} (pane : Option Pane)
    (nibble : Option Nibble) (hin : s.grid.cursor.inBounds addr = true) :
    ((s.placing addr pane nibble).mapGrid (·.updateActive)).grid.Rowed := by
  obtain ⟨hlow, hhigh⟩ := Cursor.inBounds_iff.1 hin
  rw [h.bounds.1] at hlow
  rw [h.bounds.2] at hhigh
  exact ⟨h.rows, h.bounds, fun _ => Sheet.contains_iff.2 ⟨hlow, hhigh⟩⟩

theorem Step.rowed (hnotify : ∀ {u v}, notify u = .ok v → u.grid.Rowed → v.grid.Rowed)
    (hstep : Step notify s t) (h : s.grid.Rowed) : t.grid.Rowed := by
  cases hstep with
  | press on => exact h.congr ⟨rfl, rfl, rfl⟩ ⟨rfl, rfl, rfl⟩
  | beginSelection => exact h.congr ⟨rfl, rfl, rfl⟩ ⟨rfl, rfl, rfl⟩
  | clearSelection => exact h.congr ⟨rfl, rfl, rfl⟩ ⟨rfl, rfl, rfl⟩
  | write hwrite =>
      obtain ⟨source, patches, rfl⟩ := write_frame hwrite
      exact h.congr ⟨rfl, rfl, rfl⟩ ⟨rfl, rfl, rfl⟩
  | setCursor hset =>
      cases placed hset with
      | refused => exact h
      | stayed _ _ haddr => exact h.congr ⟨rfl, rfl, rfl⟩ ⟨rfl, rfl, haddr.symm⟩
      | moved hin _ _ hu =>
          exact (hnotify hu (placing_rowed h _ _ hin)).congr ⟨rfl, rfl, rfl⟩ ⟨rfl, rfl, rfl⟩

theorem Performed.rowed (hnotify : ∀ {u v}, notify u = .ok v → u.grid.Rowed → v.grid.Rowed)
    {c : Command} (hc : Performed notify s c t) (h : s.grid.Rowed) : t.grid.Rowed := by
  cases hc with
  | handled _ hhandles => exact hhandles.keeps (P := fun u => u.grid.Rowed) (Step.rowed hnotify) h
  | region hregion => exact Grid.Rowed.setRegion hregion
  | changed hf => exact h.change hf
  | looked => exact h
  | logTaken => exact h

theorem dispatch_rowed (hdispatch : dispatch s = .ok t) (h : s.grid.Rowed) : t.grid.Rowed := by
  refine dispatch_keeps (P := Grid.Rowed) (fun hc hu => ?_)
    (fun _ hg => hg.congr ⟨rfl, rfl, rfl⟩ ⟨rfl, rfl, rfl⟩)
    (fun _ hg => hg.congr ⟨rfl, rfl, rfl⟩ ⟨rfl, rfl, rfl⟩) hdispatch h
  refine hc.rowed ?_ hu
  rintro u _ ⟨⟩
  exact id

/-- Keys and the pointer leave the cursor in a row. -/
theorem Handles.rowed (hhandles : Handles dispatch s t) (h : s.grid.Rowed) : t.grid.Rowed :=
  hhandles.keeps (P := fun u => u.grid.Rowed) (Step.rowed dispatch_rowed) h

end Scene

end HexEditor
