import HexEditor.Proofs.Memory.Image
import Mathlib.Data.Set.Card
import Mathlib.Order.Interval.Finset.Nat

/-!
# Loading segments

Loading a segment at a base replaces the one that was loaded there, and asks nothing of the others.
An address is answered from the segment with the greatest base at or below it, so that a segment
hides what lies behind its base in any segment that began before it (`get?_addSegment`): the bytes
up to its own end are another segment's now, and the bytes beyond its end are lost.  The size and
the last address, which are formed from the lengths of all segments, still count them.

None of this happens as long as every segment stays clear of those stored at other bases
(`Spread`): then every byte that is loaded can be read, no other one changes, and the size and the
bounds are those of the loaded addresses.  The condition is exact, because loaded segments that
share an address stand in the image side by side (`losesNothing_iff`).
-/

namespace HexEditor.Image

/-- The segment has a byte for the address. -/
def Covers (s : Nat × List UInt8) (a : Nat) : Prop := s.1 ≤ a ∧ a < s.1 + s.2.length

instance (s : Nat × List UInt8) (a : Nat) : Decidable (Covers s a) :=
  inferInstanceAs (Decidable (_ ∧ _))

/-- The two segments share no address. -/
def Clear (s t : Nat × List UInt8) : Prop := ∀ a, Covers s a → ¬ Covers t a

instance (s t : Nat × List UInt8) : Decidable (Clear s t) :=
  decidable_of_iff (∀ a ∈ Finset.Ico s.1 (s.1 + s.2.length), ¬ Covers t a)
    ⟨fun h a hs => h a (Finset.mem_Ico.2 hs), fun h a hs => h a (Finset.mem_Ico.1 hs)⟩

/-- Every segment has a byte and ends in the address space. -/
structure Filled (m : Image) : Prop where
  nonempty : ∀ s ∈ m.segments.entries, s.2 ≠ []
  last_le : ∀ s ∈ m.segments.entries, s.1 + (s.2.length - 1) ≤ maxAddress

/-- The image has one byte for every address that is loaded, and its bounds are the least and the
greatest of these addresses. -/
structure Exact (m : Image) : Prop where
  apart : m.Apart
  size_eq : {a | m.Loads a}.encard = (m.size : ℕ)
  first_eq : ∀ a, m.first? = some a ↔ IsLeast {a | m.Loads a} a
  last_eq : ∃ last, m.last? = .ok last ∧ ∀ a, last = some a ↔ IsGreatest {a | m.Loads a} a

/-- From the image `m` to the image `n` the segment `s` has been loaded: all its bytes can be read,
and beside them nothing has changed but what the segment with the same base had. -/
structure Gained (m : Image) (s : Nat × List UInt8) (n : Image) : Prop where
  loaded : ∀ i < s.2.length, n.get? (s.1 + i) = s.2[i]?
  kept : ∀ a, ¬ Covers s a → (∀ old, m.segments.get? s.1 = some old → ¬ Covers (s.1, old) a) →
    n.get? a = m.get? a

/-- Each of the segments, loaded behind those before it, loses none of their bytes. -/
def LosesNothing (segments : List (Nat × List UInt8)) : Prop :=
  ∀ before s after, segments = before ++ s :: after →
    Gained (ofSegments before) s ((ofSegments before).addSegment s.1 s.2) ∧
    ((ofSegments before).addSegment s.1 s.2).Exact

/-- Each of the segments stays clear of those that are stored at other bases when it is loaded. -/
def Spread (segments : List (Nat × List UInt8)) : Prop :=
  ∀ before s after, segments = before ++ s :: after →
    ∀ t ∈ (ofSegments before).segments.entries, t.1 ≠ s.1 → Clear s t

variable {m : Image} {segments : List (Nat × List UInt8)} {s : Nat × List UInt8} {base a : Nat}
  {bytes : List UInt8}

/-! ## Segments that share no address -/

/-- An image can only answer from a segment that has the address. -/
theorem Loads.covered (h : m.Loads a) : ∃ s ∈ m.segments.entries, Covers s a := by
  obtain ⟨b, hb⟩ := h
  unfold get? at hb
  cases hfloor : m.segments.floor? a with
  | none => simp [hfloor] at hb
  | some s =>
      obtain ⟨hs, hle, -⟩ := OrderedMap.floor?_eq_some_iff.1 hfloor
      simp only [hfloor] at hb
      obtain ⟨hlt, -⟩ := List.getElem?_eq_some_iff.1 hb
      exact ⟨s, hs, hle, by omega⟩

/-- The first byte of a segment can always be read. -/
theorem Filled.loads_base (h : m.Filled) (hs : s ∈ m.segments.entries) : m.Loads s.1 := by
  have hfloor : m.segments.floor? s.1 = some s :=
    OrderedMap.floor?_eq_some_iff.2 ⟨hs, le_rfl, fun _ _ hle => hle⟩
  have hpos := List.length_pos_of_ne_nil (h.nonempty s hs)
  unfold Loads get?
  rw [hfloor]
  exact ⟨_, List.getElem?_eq_getElem (by omega)⟩

theorem Filled.proper_iff (h : m.Filled) : m.Proper ↔ m.Apart := by
  refine ⟨Proper.apart, fun hapart => ⟨h.nonempty, h.last_le, fun s hs t ht hlt => ?_⟩⟩
  -- otherwise the base of the second segment is an address of both
  refine not_lt.1 fun hover => hlt.ne (congrArg Prod.fst ?_)
  have hpos := List.length_pos_of_ne_nil (h.nonempty t ht)
  exact hapart s hs t ht t.1 hlt.le hover le_rfl (by omega)

/-- The addresses for which one of the segments has a byte. -/
def coveredBy : List (Nat × List UInt8) → Finset Nat
  | [] => ∅
  | s :: rest => Finset.Ico s.1 (s.1 + s.2.length) ∪ coveredBy rest

theorem mem_coveredBy : a ∈ coveredBy segments ↔ ∃ s ∈ segments, Covers s a := by
  induction segments with
  | nil => simp [coveredBy]
  | cons s rest ih => simp [coveredBy, ih, Covers]

theorem card_coveredBy_le (segments : List (Nat × List UInt8)) :
    (coveredBy segments).card ≤ (segments.map (·.2.length)).sum := by
  induction segments with
  | nil => simp [coveredBy]
  | cons s rest ih =>
      have hunion := Finset.card_union_le (Finset.Ico s.1 (s.1 + s.2.length)) (coveredBy rest)
      rw [Nat.card_Ico, Nat.add_sub_cancel_left] at hunion
      exact hunion.trans (Nat.add_le_add_left ih _)

/-- Segments have as many addresses as bytes exactly if no two of them share one. -/
theorem card_coveredBy_eq_iff : (coveredBy segments).card = (segments.map (·.2.length)).sum ↔
    segments.Pairwise Clear := by
  induction segments with
  | nil => simp [coveredBy]
  | cons s rest ih =>
      have hle := card_coveredBy_le rest
      have hunion :=
        Finset.card_union_add_card_inter (Finset.Ico s.1 (s.1 + s.2.length)) (coveredBy rest)
      rw [Nat.card_Ico, Nat.add_sub_cancel_left] at hunion
      have hmeet : (Finset.Ico s.1 (s.1 + s.2.length) ∩ coveredBy rest).card = 0 ↔
          ∀ t ∈ rest, Clear s t := by
        rw [Finset.card_eq_zero, ← Finset.disjoint_iff_inter_eq_empty, Finset.disjoint_left]
        simp only [Clear, Covers, Finset.mem_Ico, mem_coveredBy, not_exists, not_and]
        exact ⟨fun h t ht a hs => h hs t ht, fun h a hs t ht => h t ht a hs⟩
      rw [List.pairwise_cons, ← ih, ← hmeet, coveredBy, List.map_cons, List.sum_cons]
      omega

/-- No two segments of an image share an address exactly if none does with a later one. -/
theorem apart_iff_pairwise :
    m.Apart ↔ m.segments.entries.Pairwise Clear := by
  constructor
  · intro h
    refine m.segments.ascending.imp_of_mem fun {s t} hs ht hlt a hsa hta => hlt.ne ?_
    exact congrArg Prod.fst (h s hs t ht a hsa.1 hsa.2 hta.1 hta.2)
  · intro h s hs t ht a hs1 hs2 ht1 ht2
    by_contra hne
    have : Std.Symm Clear := ⟨fun _ _ hst a hta hsa => hst a hsa hta⟩
    exact h.forall hs ht hne a ⟨hs1, hs2⟩ ⟨ht1, ht2⟩

/-- The size of an image is the number of loaded addresses exactly if no two segments share one. -/
theorem Filled.encard_eq_size_iff (h : m.Filled) :
    {a | m.Loads a}.encard = (m.size : ℕ) ↔ m.Apart := by
  have hsize : m.size = (m.segments.entries.map (·.2.length)).sum := by
    simp [size, OrderedMap.values, List.length_flatten, Function.comp_def]
  have hcard : ((coveredBy m.segments.entries : Finset Nat) : Set Nat).encard =
      ((coveredBy m.segments.entries).card : ℕ) := Set.encard_coe_eq_coe_finsetCard _
  rw [apart_iff_pairwise, ← card_coveredBy_eq_iff, ← hsize]
  constructor
  · intro heq
    -- what can be read is covered, and there is not more of that than bytes
    have hsub : {a | m.Loads a} ⊆ (coveredBy m.segments.entries : Set Nat) :=
      fun a ha => Finset.mem_coe.2 (mem_coveredBy.2 (Loads.covered ha))
    have hge := Set.encard_le_encard hsub
    rw [heq, hcard, Nat.cast_le] at hge
    exact le_antisymm (hsize ▸ card_coveredBy_le _) hge
  · intro heq
    have hproper := h.proper_iff.2 (apart_iff_pairwise.2 (card_coveredBy_eq_iff.1 (heq.trans hsize)))
    have hall : {a | m.Loads a} = (coveredBy m.segments.entries : Set Nat) :=
      Set.ext fun a => (loads_iff hproper).trans (mem_coveredBy.symm.trans Finset.mem_coe.symm)
    rw [hall, hcard, heq]

/-- The first address of an image is the least loaded one, however the segments lie. -/
theorem Filled.first?_eq_some_iff (h : m.Filled) :
    m.first? = some a ↔ IsLeast {a | m.Loads a} a := by
  rw [first?, OrderedMap.head?_keys_eq_some_iff]
  constructor
  · rintro ⟨⟨s, hs, rfl⟩, hleast⟩
    refine ⟨h.loads_base hs, fun b hb => ?_⟩
    obtain ⟨t, ht, hcover⟩ := Loads.covered hb
    exact (hleast t ht).trans hcover.1
  · rintro ⟨ha, hleast⟩
    obtain ⟨s, hs, hcover⟩ := Loads.covered ha
    exact ⟨⟨s, hs, le_antisymm hcover.1 (hleast (h.loads_base hs))⟩,
      fun t ht => hleast (h.loads_base ht)⟩

/-- Where no two segments share an address, the last address is the greatest loaded one. -/
theorem Proper.last?_eq_some_iff (h : m.Proper) :
    ∃ last, m.last? = .ok last ∧ ∀ a, last = some a ↔ IsGreatest {a | m.Loads a} a := by
  refine ⟨_, last?_eq h, fun a => ?_⟩
  have hlast : ∀ s ∈ m.segments.entries, m.Loads (s.1 + (s.2.length - 1)) := by
    intro s hs
    have hpos := List.length_pos_of_ne_nil (h.nonempty s hs)
    exact (loads_iff h).2 ⟨s, hs, by omega, by omega⟩
  rw [List.max?_eq_some_iff]
  constructor
  · rintro ⟨hmem, hgreatest⟩
    obtain ⟨s, hs, rfl⟩ := List.mem_map.1 hmem
    refine ⟨hlast s hs, fun b hb => ?_⟩
    obtain ⟨t, ht, hcover⟩ := Loads.covered hb
    have hend := hgreatest _ (List.mem_map_of_mem ht)
    have hlt := hcover.2
    omega
  · rintro ⟨ha, hgreatest⟩
    obtain ⟨s, hs, hcover⟩ := Loads.covered ha
    have hle := hgreatest (hlast s hs)
    have hlt := hcover.2
    refine ⟨List.mem_map.2 ⟨s, hs, by omega⟩, fun b hb => ?_⟩
    obtain ⟨t, ht, rfl⟩ := List.mem_map.1 hb
    exact hgreatest (hlast t ht)

theorem Proper.filled (h : m.Proper) : m.Filled := ⟨h.nonempty, h.last_le⟩

/-- An image whose segments share no address counts and bounds the loaded addresses. -/
theorem Proper.exact (h : m.Proper) : m.Exact :=
  ⟨h.apart, h.filled.encard_eq_size_iff.2 h.apart, fun _ => h.filled.first?_eq_some_iff,
    h.last?_eq_some_iff⟩

/-! ## Loading one segment -/

theorem addSegment_nil (m : Image) (base : Nat) : m.addSegment base [] = m := rfl

theorem mem_entries_addSegment (hbytes : bytes ≠ []) :
    s ∈ (m.addSegment base bytes).segments.entries ↔
      s = (base, bytes) ∨ s ∈ m.segments.entries ∧ s.1 ≠ base := by
  have hfull : ¬ bytes.isEmpty = true := by simpa using hbytes
  rw [addSegment, if_neg hfull]
  exact OrderedMap.mem_entries_insert

/-- The new segment answers from its base on up to the next one, and answers there also for
addresses behind its end. -/
theorem get?_addSegment (hbytes : bytes ≠ []) : (m.addSegment base bytes).get? a =
    if base ≤ a ∧ ∀ t ∈ m.segments.entries, t.1 ≤ a → t.1 ≤ base then bytes[a - base]?
    else m.get? a := by
  have hfull : ¬ bytes.isEmpty = true := by simpa using hbytes
  rw [addSegment, if_neg hfull]
  unfold get?
  rw [OrderedMap.floor?_insert]
  split_ifs <;> rfl

theorem Filled.addSegment (h : m.Filled) (hfit : base + (bytes.length - 1) ≤ maxAddress) :
    (m.addSegment base bytes).Filled := by
  by_cases hbytes : bytes = []
  · rw [hbytes, addSegment_nil]
    exact h
  · constructor
    · intro s hs
      rcases (mem_entries_addSegment hbytes).1 hs with rfl | ⟨hs, -⟩
      · exact hbytes
      · exact h.nonempty s hs
    · intro s hs
      rcases (mem_entries_addSegment hbytes).1 hs with rfl | ⟨hs, -⟩
      · exact hfit
      · exact h.last_le s hs

/-- A segment that is clear of the others loses none of their bytes. -/
theorem Proper.gained (h : m.Proper)
    (hclear : ∀ t ∈ m.segments.entries, t.1 ≠ s.1 → Clear s t) :
    Gained m s (m.addSegment s.1 s.2) := by
  obtain ⟨base, bytes⟩ := s
  by_cases hbytes : bytes = []
  · subst hbytes
    exact ⟨fun i hi => absurd hi (Nat.not_lt_zero i), fun a _ _ => rfl⟩
  have hpos := List.length_pos_of_ne_nil hbytes
  constructor
  · intro i hi
    dsimp only at hi ⊢
    rw [get?_addSegment hbytes, if_pos, Nat.add_sub_cancel_left]
    refine ⟨Nat.le_add_right .., fun t ht hta => not_lt.1 fun hlt => ?_⟩
    -- a segment that began between the base and the address would share its first address
    have htpos := List.length_pos_of_ne_nil (h.nonempty t ht)
    exact hclear t ht hlt.ne' t.1 ⟨hlt.le, by dsimp only; omega⟩ ⟨le_rfl, by omega⟩
  · intro a hout hold
    dsimp only at hold ⊢
    rw [get?_addSegment hbytes]
    split_ifs with hnew
    · obtain ⟨hba, hgreatest⟩ := hnew
      have hnone : bytes[a - base]? = none := by
        refine List.getElem?_eq_none (not_lt.1 fun hlt => hout ⟨hba, ?_⟩)
        dsimp only
        omega
      have hunloaded : ¬ m.Loads a := by
        intro ha
        obtain ⟨t, ht, hta⟩ := Loads.covered ha
        rcases (hgreatest t ht hta.1).lt_or_eq with hlt | heq
        · exact hclear t ht hlt.ne base ⟨le_rfl, by dsimp only; omega⟩
            ⟨hlt.le, hba.trans_lt hta.2⟩
        · obtain ⟨tbase, old⟩ := t
          obtain rfl : tbase = base := heq
          exact hold old (OrderedMap.get?_eq_some_iff.2 ht) hta
      rw [hnone]
      exact (Option.eq_none_iff_forall_ne_some.2 fun b hb => hunloaded ⟨b, hb⟩).symm
    · rfl

theorem Apart.addSegment (h : m.Apart)
    (hclear : ∀ t ∈ m.segments.entries, t.1 ≠ s.1 → Clear s t) :
    (m.addSegment s.1 s.2).Apart := by
  by_cases hbytes : s.2 = []
  · rw [hbytes, addSegment_nil]
    exact h
  · intro t ht r hr a ht1 ht2 hr1 hr2
    rcases (mem_entries_addSegment hbytes).1 ht with rfl | ⟨ht, htb⟩ <;>
      rcases (mem_entries_addSegment hbytes).1 hr with rfl | ⟨hr, hrb⟩
    · rfl
    · exact absurd ⟨hr1, hr2⟩ (hclear r hr hrb a ⟨ht1, ht2⟩)
    · exact absurd ⟨ht1, ht2⟩ (hclear t ht htb a ⟨hr1, hr2⟩)
    · exact h t ht r hr a ht1 ht2 hr1 hr2

/-! ## Loading one segment after another -/

theorem ofSegments_concat (segments : List (Nat × List UInt8)) (s : Nat × List UInt8) :
    ofSegments (segments ++ [s]) = (ofSegments segments).addSegment s.1 s.2 := by
  simp [ofSegments]

theorem filled_ofSegments (hfits : ∀ s ∈ segments, s.1 + (s.2.length - 1) ≤ maxAddress) :
    (ofSegments segments).Filled := by
  induction segments using List.reverseRecOn with
  | nil => exact ⟨fun _ h => absurd h List.not_mem_nil, fun _ h => absurd h List.not_mem_nil⟩
  | append_singleton segments s ih =>
      rw [ofSegments_concat]
      exact (ih fun t ht => hfits t (List.mem_append_left _ ht)).addSegment
        (hfits s (List.mem_append_right _ (List.mem_singleton_self s)))

theorem spread_nil : Spread [] := fun before s after h => by simp at h

theorem Spread.of_append {before after : List (Nat × List UInt8)} (h : Spread (before ++ after)) :
    Spread before := by
  rintro first s rest rfl
  exact h first s (rest ++ after) (by simp)

theorem spread_concat : Spread (segments ++ [s]) ↔
    Spread segments ∧ ∀ t ∈ (ofSegments segments).segments.entries, t.1 ≠ s.1 → Clear s t := by
  refine ⟨fun h => ⟨h.of_append, h segments s [] rfl⟩, fun ⟨h, hlast⟩ before t after heq => ?_⟩
  rcases List.eq_nil_or_concat after with rfl | ⟨rest, u, rfl⟩
  · obtain ⟨rfl, hst⟩ := List.append_inj' heq rfl
    obtain rfl := List.singleton_inj.1 hst
    exact hlast
  · rw [List.concat_eq_append, ← List.cons_append, ← List.append_assoc] at heq
    exact h before t rest (List.append_inj' heq rfl).1

theorem Spread.apart (h : Spread segments) : (ofSegments segments).Apart := by
  induction segments using List.reverseRecOn with
  | nil => exact fun _ h => absurd h List.not_mem_nil
  | append_singleton segments s ih =>
      obtain ⟨hspread, hlast⟩ := spread_concat.1 h
      rw [ofSegments_concat]
      exact (ih hspread).addSegment hlast

/-- Segments lose none of each other's bytes exactly if each of them, when it is loaded, stays
clear of those that are stored at other bases. -/
theorem losesNothing_iff (hfits : ∀ s ∈ segments, s.1 + (s.2.length - 1) ≤ maxAddress) :
    LosesNothing segments ↔ Spread segments := by
  constructor
  · intro h before s after heq t ht htb a hsa hta
    -- the two segments stand side by side in the image
    have hbytes : s.2 ≠ [] := fun hnil => by simp [Covers, hnil] at hsa; omega
    have hapart := (h before s after heq).2.apart
    have hst := hapart s ((mem_entries_addSegment hbytes).2 (.inl rfl)) t
      ((mem_entries_addSegment hbytes).2 (.inr ⟨ht, htb⟩)) a hsa.1 hsa.2 hta.1 hta.2
    exact htb (congrArg Prod.fst hst).symm
  · rintro h before s after rfl
    have hfilled : (ofSegments before).Filled :=
      filled_ofSegments fun t ht => hfits t (List.mem_append_left _ ht)
    have hproper := hfilled.proper_iff.2 h.of_append.apart
    have hclear := h before s after rfl
    have hfilled' := hfilled.addSegment (hfits s (by simp))
    exact ⟨hproper.gained hclear, (hfilled'.proper_iff.2 (hproper.apart.addSegment hclear)).exact⟩

/-- A second segment right behind the first one, and then a shorter one in place of the first. -/
theorem losesNothing_iff_replaced : LosesNothing [(16, [1, 2, 3]), (19, [4]), (16, [5])] := by
  refine (losesNothing_iff (by decide)).2 ?_
  have hfirst : Spread ([] ++ [(16, [1, 2, 3])]) := spread_concat.2 ⟨spread_nil, by decide⟩
  have hsecond : Spread ([(16, [1, 2, 3])] ++ [(19, [4])]) :=
    spread_concat.2 ⟨hfirst, by decide⟩
  have hthird : Spread ([(16, [1, 2, 3]), (19, [4])] ++ [(16, [5])]) :=
    spread_concat.2 ⟨hsecond, by decide⟩
  exact hthird

/-- A segment within another one hides all that lies behind it. -/
theorem not_losesNothing : ¬ ∀ segments : List (Nat × List UInt8),
    (∀ s ∈ segments, s.1 + (s.2.length - 1) ≤ maxAddress) → LosesNothing segments := by
  intro h
  obtain ⟨hgained, -⟩ :=
    h [(0, [1, 2, 3, 4]), (1, [9])] (by decide) [(0, [1, 2, 3, 4])] (1, [9]) [] rfl
  have hkept := hgained.kept 2 (by decide) (by decide)
  exact absurd hkept (by decide)

end HexEditor.Image
