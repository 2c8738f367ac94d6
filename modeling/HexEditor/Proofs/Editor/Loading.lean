import HexEditor.Editor.Request
import HexEditor.Proofs.View.Opening

/-!
# Files that can be opened

A view of a file is laid out from sums of addresses, and so are the strings of the file.  The
file stands from the address 0 on, so that no sum is greater than its size.  Every file whose size
is an address can therefore be opened (`exists_strings`, `exists_frame_ofBytes`).
-/

namespace HexEditor

/-- The runs of printable bytes begin within the bytes. -/
theorem offset_le_of_mem_printableRunsFrom {bytes : List UInt8} {offset before : Nat}
    {run : PrintableRun} (hrun : run ∈ printableRunsFrom offset before bytes) :
    run.offset ≤ offset + bytes.length := by
  induction bytes generalizing offset before with
  | nil =>
      unfold printableRunsFrom at hrun
      split at hrun
      · cases hrun
      · obtain rfl := List.mem_singleton.1 hrun
        exact Nat.sub_le _ _
  | cons b rest ih =>
      rw [List.length_cons]
      unfold printableRunsFrom at hrun
      split at hrun
      · have := ih hrun
        omega
      · split at hrun
        · have := ih hrun
          omega
        · rcases List.mem_cons.1 hrun with rfl | hrun
          · dsimp only
            omega
          · have := ih hrun
            omega

namespace Image

variable {bytes : List UInt8}

theorem entries_ofBytes (base : Nat) (hne : bytes ≠ []) :
    (ofBytes base bytes).segments.entries = [(base, bytes)] := by
  unfold ofBytes addSegment
  rw [if_neg (by simpa using hne)]
  rfl

/-- The strings of a file can be found. -/
theorem exists_strings (hne : bytes ≠ []) (hsize : bytes.length ≤ maxAddress) (least : Nat) :
    ∃ items, (ofBytes 0 bytes).strings least = .ok items := by
  have hsegment : ∃ items, segmentStrings least 0 bytes = .ok items := by
    refine Checked.exists_mapM_iff.2 fun run hrun => ?_
    have hoffset := offset_le_of_mem_printableRunsFrom (List.mem_of_mem_filter hrun)
    rw [checkedAdd_of_le (by omega)]
    exact ⟨_, rfl⟩
  obtain ⟨items, hitems⟩ := hsegment
  unfold strings
  rw [entries_ofBytes 0 hne, List.mapM_cons, hitems]
  exact ⟨_, rfl⟩

theorem bounds?_ofBytes (hne : bytes ≠ []) (hsize : bytes.length ≤ maxAddress) :
    (ofBytes 0 bytes).bounds? = .ok (some ⟨0, bytes.length - 1⟩) := by
  have hlast : checkedAdd 0 (bytes.length - 1) = .ok (bytes.length - 1) := by
    rw [checkedAdd_of_le (by omega), Nat.zero_add]
  unfold bounds? first? last? OrderedMap.keys
  rw [entries_ofBytes 0 hne, List.mapM_cons, hlast]
  rfl

end Image

namespace Desk

/-- Whatever the patches and the items, a view of a file can be opened. -/
theorem exists_frame_ofBytes {p : Project} {bytes : List UInt8}
    (himage : p.image = .ofBytes 0 bytes) (hne : bytes ≠ []) (hsize : bytes.length ≤ maxAddress) :
    ∃ f, frame p = .ok f := by
  have hpos := List.length_pos_iff.2 hne
  have hbounds : p.bounds? = .ok (some ⟨0, bytes.length - 1⟩) := by
    unfold Project.bounds?
    rw [himage]
    exact Image.bounds?_ofBytes hne hsize
  rw [frame_eq hbounds (Nat.zero_le _) (by omega), if_neg (by omega)]
  exact ⟨_, rfl⟩

end Desk

namespace Editor

/-- A file that can be read has bytes, and they stand from the address 0 on. -/
theorem exists_of_readImage {disk : Disk} {path : String} {image : Image}
    (h : readImage disk path = .ok image) :
    ∃ bytes, disk.read path = .ok bytes ∧ bytes ≠ [] ∧ image = .ofBytes 0 bytes := by
  unfold readImage at h
  cases hread : disk.read path with
  | error cause =>
      rw [hread] at h
      cases h
  | ok bytes =>
      rw [hread] at h
      cases bytes with
      | nil => cases h
      | cons b rest =>
          obtain rfl := Except.ok.inj h
          exact ⟨_, rfl, List.cons_ne_nil b rest, rfl⟩

end Editor

end HexEditor
