import HexEditor.Memory.Image
import HexEditor.Proofs.OrderedMap

/-!
# Loaded addresses

An image answers for an address from the segment with the greatest base at or below it, and from
no other one.  Where no two segments share an address (`Image.Proper`), no other one could have a
byte there, so that the loaded addresses are those of the segments (`Image.loads_iff`).  The bounds
of the image, which are formed from the bases and the lengths of the segments, are then the least
and the greatest of them (`Image.bounds?_eq`).
-/

namespace HexEditor.Image

/-- The image has a byte at the address. -/
def Loads (m : Image) (a : Nat) : Prop := ∃ b, m.get? a = some b

/-- Every segment has a byte and ends in the address space, and none reaches into the next one. -/
structure Proper (m : Image) : Prop where
  nonempty : ∀ s ∈ m.segments.entries, s.2 ≠ []
  last_le : ∀ s ∈ m.segments.entries, s.1 + (s.2.length - 1) ≤ maxAddress
  disjoint : ∀ s ∈ m.segments.entries, ∀ t ∈ m.segments.entries, s.1 < t.1 →
    s.1 + s.2.length ≤ t.1

instance (m : Image) : Decidable m.Proper :=
  decidable_of_iff ((∀ s ∈ m.segments.entries, s.2 ≠ []) ∧
      (∀ s ∈ m.segments.entries, s.1 + (s.2.length - 1) ≤ maxAddress) ∧
      ∀ s ∈ m.segments.entries, ∀ t ∈ m.segments.entries, s.1 < t.1 → s.1 + s.2.length ≤ t.1)
    ⟨fun h => ⟨h.1, h.2.1, h.2.2⟩, fun h => ⟨h.nonempty, h.last_le, h.disjoint⟩⟩

/-- No two segments share an address. -/
def Apart (m : Image) : Prop :=
  ∀ s ∈ m.segments.entries, ∀ t ∈ m.segments.entries, ∀ a, s.1 ≤ a → a < s.1 + s.2.length →
    t.1 ≤ a → a < t.1 + t.2.length → s = t

variable {m : Image} {a : Nat}

theorem Proper.apart (h : m.Proper) : m.Apart := by
  intro s hs t ht a hs1 hs2 ht1 ht2
  rcases Nat.lt_trichotomy s.1 t.1 with hlt | heq | hgt
  · have := h.disjoint s hs t ht hlt
    omega
  · exact OrderedMap.eq_of_key_eq hs ht heq
  · have := h.disjoint t ht s hs hgt
    omega

/-- The loaded addresses are those of the segments. -/
theorem loads_iff (h : m.Proper) :
    m.Loads a ↔ ∃ s ∈ m.segments.entries, s.1 ≤ a ∧ a < s.1 + s.2.length := by
  unfold Loads get?
  constructor
  · rintro ⟨b, hb⟩
    cases hfloor : m.segments.floor? a with
    | none => simp [hfloor] at hb
    | some s =>
        obtain ⟨hs, hle, -⟩ := OrderedMap.floor?_eq_some_iff.1 hfloor
        simp only [hfloor] at hb
        obtain ⟨hlt, -⟩ := List.getElem?_eq_some_iff.1 hb
        exact ⟨s, hs, hle, by omega⟩
  · rintro ⟨s, hs, hle, hlt⟩
    have hfloor : m.segments.floor? a = some s := by
      refine OrderedMap.floor?_eq_some_iff.2 ⟨hs, hle, fun t ht hta => ?_⟩
      by_contra hst
      have hapart := h.disjoint s hs t ht (by omega)
      omega
    rw [hfloor]
    exact ⟨_, List.getElem?_eq_getElem (by omega)⟩

/-- The greatest last address of a segment. -/
theorem last?_eq (h : m.Proper) :
    m.last? = .ok (m.segments.entries.map fun s => s.1 + (s.2.length - 1)).max? := by
  have hlast : m.segments.entries.mapM (fun s => checkedAdd s.1 (s.2.length - 1)) =
      .ok (m.segments.entries.map fun s => s.1 + (s.2.length - 1)) :=
    Checked.mapM_eq_ok fun s hs => checkedAdd_of_le (h.last_le s hs)
  unfold last?
  rw [hlast]
  rfl

/-- An image that is not empty is bounded by the least and the greatest loaded address. -/
theorem bounds?_eq (h : m.Proper) (hne : m.segments.entries ≠ []) :
    ∃ first last, m.bounds? = .ok (some ⟨first, last⟩) ∧ m.Loads first ∧ m.Loads last ∧
      (∀ a, m.Loads a → first ≤ a ∧ a ≤ last) ∧ last ≤ maxAddress := by
  obtain ⟨first, hfirst⟩ : ∃ first, m.first? = some first := by
    cases hhead : m.segments.keys.head? with
    | none => simp [OrderedMap.keys, hne] at hhead
    | some first => exact ⟨first, hhead⟩
  obtain ⟨last, hlast⟩ : ∃ last,
      (m.segments.entries.map fun s => s.1 + (s.2.length - 1)).max? = some last := by
    cases hmax : (m.segments.entries.map fun s => s.1 + (s.2.length - 1)).max? with
    | none => simp [List.max?_eq_none_iff, hne] at hmax
    | some last => exact ⟨last, rfl⟩
  obtain ⟨⟨s, hs, hbase⟩, hleast⟩ := OrderedMap.head?_keys_eq_some_iff.1 hfirst
  obtain ⟨hmem, hgreatest⟩ := List.max?_eq_some_iff.1 hlast
  obtain ⟨t, ht, hend⟩ := List.mem_map.1 hmem
  have hslength := List.length_pos_of_ne_nil (h.nonempty s hs)
  have htlength := List.length_pos_of_ne_nil (h.nonempty t ht)
  refine ⟨first, last, ?_, ?_, ?_, ?_, ?_⟩
  · simp only [bounds?, last?_eq h, hfirst, hlast, Checked.ok_bind, Checked.pure_eq_ok]
  · exact (loads_iff h).2 ⟨s, hs, by omega, by omega⟩
  · exact (loads_iff h).2 ⟨t, ht, by omega, by omega⟩
  · intro a ha
    obtain ⟨r, hr, hle, hlt⟩ := (loads_iff h).1 ha
    have hlow := hleast r hr
    have hhigh := hgreatest _ (List.mem_map_of_mem hr)
    omega
  · have hlast := h.last_le t ht
    omega

end HexEditor.Image
