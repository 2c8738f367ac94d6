import HexEditor.Patch.Set
import HexEditor.Proofs.OrderedMap

/-!
# Well-formed patch sets

A patch set is well-formed when every patch stands under its own start address, is not
empty, ends in the address space, and shares no address with another patch.

Such a set is the same thing as a list of patches laid out one behind the other
(`wellFormed_iff`): `Holds` says that a set consists of the patches of a list, `Laid` says
that a list is laid out.  What an operation does to a set is stated as what it does to
the list, and the lemmas of the section on single patches give the list after a patch in
the middle of it has been removed, changed or added.
-/

namespace HexEditor

namespace Patch

instance : Membership Nat Patch := ⟨fun p a => p.addr ≤ a ∧ a < p.stop⟩

instance (p : Patch) (a : Nat) : Decidable (a ∈ p) := inferInstanceAs (Decidable (_ ∧ _))

/-- The patch overwrites the address. -/
theorem mem_iff {p : Patch} {a : Nat} : a ∈ p ↔ p.addr ≤ a ∧ a < p.stop := Iff.rfl

/-- The patch overwrites something, and nothing beyond the address space. -/
structure Proper (p : Patch) : Prop where
  nonempty : p.bytes ≠ []
  stop_le : p.stop ≤ maxAddress

theorem Proper.addr_lt_stop {p : Patch} (h : p.Proper) : p.addr < p.stop := by
  have hlength := List.length_pos_of_ne_nil h.nonempty
  unfold stop size
  omega

instance (p : Patch) : Decidable p.Proper :=
  decidable_of_iff (p.bytes ≠ [] ∧ p.stop ≤ maxAddress)
    ⟨fun h => ⟨h.1, h.2⟩, fun h => ⟨h.nonempty, h.stop_le⟩⟩

/-- What a patch is kept under and what is kept. -/
def entry (p : Patch) : Nat × Patch := (p.addr, p)

end Patch

/-! ## Lists of patches -/

/-- The patches are proper, and each ends before or where the next one starts. -/
structure Laid (ps : List Patch) : Prop where
  proper : ∀ p ∈ ps, p.Proper
  apart : ps.Pairwise fun p q => p.stop ≤ q.addr

instance (ps : List Patch) : Decidable (Laid ps) :=
  decidable_of_iff ((∀ p ∈ ps, p.Proper) ∧ ps.Pairwise fun p q => p.stop ≤ q.addr)
    ⟨fun h => ⟨h.1, h.2⟩, fun h => ⟨h.proper, h.apart⟩⟩

theorem Laid.nil : Laid [] := ⟨by simp, .nil⟩

theorem laid_cons {p : Patch} {ps : List Patch} :
    Laid (p :: ps) ↔ p.Proper ∧ (∀ q ∈ ps, p.stop ≤ q.addr) ∧ Laid ps := by
  constructor
  · rintro ⟨hproper, hapart⟩
    obtain ⟨hhead, htail⟩ := List.pairwise_cons.1 hapart
    obtain ⟨hp, hps⟩ := List.forall_mem_cons.1 hproper
    exact ⟨hp, hhead, hps, htail⟩
  · rintro ⟨hp, hhead, hps, htail⟩
    exact ⟨List.forall_mem_cons.2 ⟨hp, hps⟩, List.pairwise_cons.2 ⟨hhead, htail⟩⟩

theorem laid_append {ps qs : List Patch} :
    Laid (ps ++ qs) ↔ Laid ps ∧ Laid qs ∧ ∀ p ∈ ps, ∀ q ∈ qs, p.stop ≤ q.addr := by
  constructor
  · rintro ⟨hproper, hapart⟩
    obtain ⟨hps, hqs, hbetween⟩ := List.pairwise_append.1 hapart
    obtain ⟨hproper, hproper'⟩ := List.forall_mem_append.1 hproper
    exact ⟨⟨hproper, hps⟩, ⟨hproper', hqs⟩, hbetween⟩
  · rintro ⟨hps, hqs, hbetween⟩
    exact ⟨List.forall_mem_append.2 ⟨hps.proper, hqs.proper⟩,
      List.pairwise_append.2 ⟨hps.apart, hqs.apart, hbetween⟩⟩

theorem Laid.addr_lt {ps : List Patch} (h : Laid ps) : ps.Pairwise fun p q => p.addr < q.addr :=
  h.apart.imp_of_mem fun {p _} hp _ hle => (h.proper p hp).addr_lt_stop.trans_le hle

/-- An address is in at most one of the patches. -/
theorem Laid.eq_of_mem {ps : List Patch} (h : Laid ps) {p q : Patch} {a : Nat} (hp : p ∈ ps)
    (hq : q ∈ ps) (hap : a ∈ p) (haq : a ∈ q) : p = q := by
  by_contra hne
  have : Std.Symm fun p q : Patch => ¬(a ∈ p ∧ a ∈ q) := ⟨fun _ _ h h' => h h'.symm⟩
  have hdisjoint : ps.Pairwise fun p q => ¬(a ∈ p ∧ a ∈ q) :=
    h.apart.imp fun hle hmem => absurd hmem.1.2 (hle.trans hmem.2.1).not_gt
  exact hdisjoint.forall hp hq hne ⟨hap, haq⟩

/-- Patches are told by where they start. -/
theorem Laid.eq_of_addr_eq {ps : List Patch} (h : Laid ps) {p q : Patch} (hp : p ∈ ps)
    (hq : q ∈ ps) (haddr : p.addr = q.addr) : p = q :=
  h.eq_of_mem hp hq ⟨Nat.le_refl _, (h.proper p hp).addr_lt_stop⟩
    ⟨haddr.ge, haddr.trans_lt (h.proper q hq).addr_lt_stop⟩

/-! ## Sets that hold a list -/

namespace PatchSet

/-- The set consists of the patches, in this order, each under its start address. -/
def Holds (s : PatchSet) (ps : List Patch) : Prop := s.entries = ps.map Patch.entry

/-- Every patch stands under its start address, overwrites something, ends in the address
space, and shares no address with another one. -/
structure WellFormed (s : PatchSet) : Prop where
  addr_eq : ∀ e ∈ s.entries, e.2.addr = e.1
  nonempty : ∀ e ∈ s.entries, e.2.bytes ≠ []
  stop_le : ∀ e ∈ s.entries, e.2.stop ≤ maxAddress
  disjoint : ∀ e ∈ s.entries, ∀ f ∈ s.entries, ∀ a, a ∈ e.2 → a ∈ f.2 → e = f

variable {s : PatchSet} {ps before after : List Patch} {p q : Patch}

theorem Holds.values_eq (h : s.Holds ps) : s.values = ps := by
  rw [OrderedMap.values, h, List.map_map]
  exact List.map_id ps

/-- A set is determined by what it holds. -/
theorem Holds.unique {t : PatchSet} (hs : s.Holds ps) (ht : t.Holds ps) : s = t := by
  have hentries : s.entries = t.entries := hs.trans ht.symm
  cases s
  cases t
  simpa using hentries

/-- Well-formed sets are the laid out lists. -/
theorem wellFormed_iff : s.WellFormed ↔ s.Holds s.values ∧ Laid s.values := by
  constructor
  · intro h
    have hproper : ∀ e ∈ s.entries, e.2.Proper := fun e he => ⟨h.nonempty e he, h.stop_le e he⟩
    refine ⟨?_, List.forall_mem_map.2 hproper, List.pairwise_map.2 ?_⟩
    · rw [Holds, OrderedMap.values, List.map_map]
      refine (List.map_id s.entries).symm.trans (List.map_congr_left fun e he => ?_)
      exact Prod.ext (h.addr_eq e he).symm rfl
    · refine s.ascending.imp_of_mem fun {e f} he hf hlt => not_lt.1 fun hcross => ?_
      -- the second patch would start inside the first one
      have hin : f.2.addr ∈ e.2 :=
        ⟨by rw [h.addr_eq e he, h.addr_eq f hf]; exact hlt.le, hcross⟩
      have heq := h.disjoint e he f hf _ hin ⟨le_rfl, (hproper f hf).addr_lt_stop⟩
      exact hlt.ne (congrArg Prod.fst heq)
  · rintro ⟨hholds, hlaid⟩
    have hentry : ∀ e ∈ s.entries, ∃ p ∈ s.values, p.entry = e := by
      rw [hholds]
      simp
    refine ⟨?_, ?_, ?_, ?_⟩
    · intro e he
      obtain ⟨p, -, rfl⟩ := hentry e he
      rfl
    · intro e he
      obtain ⟨p, hp, rfl⟩ := hentry e he
      exact (hlaid.proper p hp).nonempty
    · intro e he
      obtain ⟨p, hp, rfl⟩ := hentry e he
      exact (hlaid.proper p hp).stop_le
    · intro e he f hf a hae haf
      obtain ⟨p, hp, rfl⟩ := hentry e he
      obtain ⟨q, hq, rfl⟩ := hentry f hf
      exact congrArg _ (hlaid.eq_of_mem hp hq hae haf)

theorem Holds.wellFormed (h : s.Holds ps) (hlaid : Laid ps) : s.WellFormed :=
  wellFormed_iff.2 (by rw [h.values_eq]; exact ⟨h, hlaid⟩)

theorem holds_empty : Holds (∅ : PatchSet) [] := rfl

theorem wellFormed_empty : (∅ : PatchSet).WellFormed := holds_empty.wellFormed ⟨by simp, .nil⟩

/-! ## Single patches -/

theorem Holds.mem_entries (h : s.Holds ps) {e : Nat × Patch} :
    e ∈ s.entries ↔ ∃ p ∈ ps, p.entry = e := by
  rw [h, List.mem_map]

theorem Holds.addr_lt (h : s.Holds ps) : ps.Pairwise fun p q => p.addr < q.addr := by
  have hasc := s.ascending
  rw [h, List.pairwise_map] at hasc
  exact hasc

/-- The start addresses before and behind a patch in the middle of a list. -/
theorem Holds.addr_around (h : s.Holds (before ++ p :: after)) :
    (∀ q ∈ before, q.addr < p.addr) ∧ ∀ q ∈ after, p.addr < q.addr := by
  obtain ⟨-, hbehind, hbetween⟩ := List.pairwise_append.1 h.addr_lt
  exact ⟨fun q hq => hbetween q hq p (List.mem_cons_self ..), (List.pairwise_cons.1 hbehind).1⟩

/-- The patch of a list at a start address. -/
theorem Holds.get?_eq_some_iff (h : s.Holds ps) {key : Nat} :
    s.get? key = some p ↔ p ∈ ps ∧ p.addr = key := by
  rw [OrderedMap.get?_eq_some_iff, h.mem_entries]
  constructor
  · rintro ⟨q, hq, heq⟩
    obtain ⟨rfl, rfl⟩ := Prod.mk.inj heq
    exact ⟨hq, rfl⟩
  · rintro ⟨hp, rfl⟩
    exact ⟨p, hp, rfl⟩

theorem Holds.get?_middle (h : s.Holds (before ++ p :: after)) : s.get? p.addr = some p :=
  h.get?_eq_some_iff.2 ⟨by simp, rfl⟩

theorem Holds.contains_iff (h : s.Holds ps) {key : Nat} :
    s.contains key = true ↔ ∃ p ∈ ps, p.addr = key := by
  simp [OrderedMap.contains_iff, h.get?_eq_some_iff]

theorem Holds.contains_middle (h : s.Holds (before ++ p :: after)) :
    s.contains p.addr = true :=
  h.contains_iff.2 ⟨p, by simp, rfl⟩

/-- Erasing keeps all patches that start elsewhere. -/
theorem Holds.erase (h : s.Holds ps) (key : Nat) :
    Holds (s.erase key) (ps.filter fun p => p.addr ≠ key) := by
  have hentries : (s.erase key).entries = s.entries.filter fun e => e.1 != key := rfl
  rw [Holds, hentries, h, List.filter_map]
  congr 1
  apply List.filter_congr
  intro p _
  rw [Bool.eq_iff_iff]
  simp [Patch.entry]

theorem Holds.erase_middle (h : s.Holds (before ++ p :: after)) :
    Holds (s.erase p.addr) (before ++ after) := by
  obtain ⟨hbefore, hafter⟩ := h.addr_around
  have hkept := h.erase p.addr
  rwa [List.filter_append, List.filter_cons_of_neg (by simp),
    List.filter_eq_self.2 fun q hq => by simpa using (hbefore q hq).ne,
    List.filter_eq_self.2 fun q hq => by simpa using (hafter q hq).ne'] at hkept

/-- Changing a patch, but not its start address, changes it in its place. -/
theorem Holds.modify_middle (h : s.Holds (before ++ p :: after)) {f : Patch → Patch}
    (hf : (f p).addr = p.addr) :
    Holds (s.modify p.addr f) (before ++ f p :: after) := by
  obtain ⟨hbefore, hafter⟩ := h.addr_around
  have hentries : (s.modify p.addr f).entries =
      s.entries.map fun e => if e.1 = p.addr then (e.1, f e.2) else e := rfl
  have hsame : ∀ qs : List Patch, (∀ q ∈ qs, q.addr ≠ p.addr) →
      (qs.map Patch.entry).map (fun e => if e.1 = p.addr then (e.1, f e.2) else e) =
        qs.map Patch.entry := by
    intro qs hqs
    rw [List.map_map]
    exact List.map_congr_left fun q hq => if_neg (hqs q hq)
  rw [Holds, hentries, h, List.map_append, List.map_append, List.map_cons, List.map_cons,
    hsame before fun q hq => (hbefore q hq).ne, hsame after fun q hq => (hafter q hq).ne',
    List.map_append, List.map_cons]
  simp [Patch.entry, hf]

/-- Adding a patch between others puts it in its place. -/
theorem Holds.add_between (h : s.Holds (before ++ after)) (hbefore : ∀ q ∈ before, q.addr < p.addr)
    (hafter : ∀ q ∈ after, p.addr < q.addr) : Holds (s.add p) (before ++ p :: after) := by
  have hentries : (s.add p).entries = OrderedMap.insertEntry p.addr p s.entries := rfl
  rw [Holds, hentries, h, List.map_append, OrderedMap.insertEntry_append, List.map_append,
    List.map_cons]
  · rfl
  · simpa [Patch.entry] using hbefore
  · simpa [Patch.entry] using hafter

/-- Laid out patches that are added one after another are held as they are. -/
theorem Holds.foldl_add (h : s.Holds before) (hlaid : Laid (before ++ ps)) :
    Holds (ps.foldl add s) (before ++ ps) := by
  induction ps generalizing s before with
  | nil => simpa using h
  | cons p rest ih =>
      have hbehind := (List.pairwise_append.1 hlaid.addr_lt).2.2
      have hadded : Holds (s.add p) (before ++ [p]) := by
        apply add_between (by simpa using h)
        · exact fun q hq => hbehind q hq p (List.mem_cons_self ..)
        · simp
      simpa using ih hadded (by simpa using hlaid)

theorem wellFormed_ofList (h : Laid ps) : (ofList ps).WellFormed :=
  (holds_empty.foldl_add h).wellFormed h

end PatchSet

end HexEditor
