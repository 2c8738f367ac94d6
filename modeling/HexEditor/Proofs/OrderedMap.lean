import HexEditor.OrderedMap
import Mathlib.Data.List.Pairwise
import Mathlib.Data.List.Sort
import Mathlib.Tactic.Common

/-!
# Entries of an ordered map

Ascending entries are determined by what they hold (`eq_of_mem_iff`), and a value is found
at a key exactly when the pair is an entry (`get?_eq_some_iff`).  What an operation does is
therefore said once, about membership in the entries; every other statement about look-ups
and about the order of the entries follows from it.
-/

namespace HexEditor.OrderedMap

variable {β : Type} {m : OrderedMap β} {key other : Nat} {value : β}

/-! ## The entries after an operation -/

/-- Two lists of ascending entries that hold the same are the same. -/
theorem eq_of_mem_iff {es fs : List (Nat × β)} (hes : es.Pairwise fun e f => e.1 < f.1)
    (hfs : fs.Pairwise fun e f => e.1 < f.1) (h : ∀ e, e ∈ es ↔ e ∈ fs) : es = fs := by
  have : Std.Antisymm fun e f : Nat × β => e.1 < f.1 :=
    ⟨fun _ _ hef hfe => absurd hef hfe.asymm⟩
  have : Std.Irrefl fun e f : Nat × β => e.1 < f.1 := ⟨fun e => lt_irrefl e.1⟩
  exact hes.eq_of_mem_iff hfs h

/-- An entry is put in front of the entries with greater keys. -/
theorem insertEntry_append {es fs : List (Nat × β)} (hes : ∀ e ∈ es, e.1 < key)
    (hfs : ∀ f ∈ fs, key < f.1) :
    insertEntry key value (es ++ fs) = es ++ (key, value) :: fs := by
  induction es with
  | nil =>
      cases fs with
      | nil => rfl
      | cons f rest => simp [insertEntry, hfs]
  | cons e rest ih =>
      have hlt : e.1 < key := hes e (List.mem_cons_self ..)
      rw [List.cons_append, insertEntry, if_neg hlt.le.not_gt, if_neg hlt.ne',
        ih fun f hf => hes f (List.mem_cons_of_mem _ hf), List.cons_append]

theorem mem_entries_insert {e : Nat × β} :
    e ∈ (m.insert key value).entries ↔ e = (key, value) ∨ e ∈ m.entries ∧ e.1 ≠ key := by
  have hasc := m.ascending
  change e ∈ insertEntry key value m.entries ↔ _
  generalize m.entries = es at hasc
  induction es with
  | nil => simp [insertEntry]
  | cons head rest ih =>
      obtain ⟨hhead, hrest⟩ := List.pairwise_cons.1 hasc
      -- the keys that follow are above the first one, so none of them is the new key
      have hne : ∀ f ∈ rest, key ≤ head.1 → f.1 ≠ key := fun f hf hle =>
        (hle.trans_lt (hhead f hf)).ne'
      unfold insertEntry
      split
      · next hlt =>
          have hne' : ∀ f ∈ head :: rest, f.1 ≠ key :=
            List.forall_mem_cons.2 ⟨hlt.ne', fun f hf => hne f hf hlt.le⟩
          rw [List.mem_cons]
          exact or_congr_right ⟨fun h => ⟨h, hne' e h⟩, And.left⟩
      · split
        · next heq =>
            simp only [List.mem_cons]
            constructor
            · rintro (h | h)
              · exact .inl h
              · exact .inr ⟨.inr h, hne e h heq.le⟩
            · rintro (h | ⟨rfl | h, hkey⟩)
              · exact .inl h
              · exact absurd heq.symm hkey
              · exact .inr h
        · next hge hkey =>
            rw [List.mem_cons, ih hrest, List.mem_cons]
            constructor
            · rintro (rfl | h | h)
              · exact .inr ⟨.inl rfl, Ne.symm hkey⟩
              · exact .inl h
              · exact .inr ⟨.inr h.1, h.2⟩
            · rintro (h | ⟨rfl | h, hne⟩)
              · exact .inr (.inl h)
              · exact .inl rfl
              · exact .inr (.inr ⟨h, hne⟩)

@[simp] theorem mem_entries_erase {e : Nat × β} :
    e ∈ (m.erase key).entries ↔ e ∈ m.entries ∧ e.1 ≠ key := by
  simp [erase]

/-- Beside the key that it changes, an insertion keeps the entries and their order. -/
theorem entries_insert_filter_ne (m : OrderedMap β) (key : Nat) (value : β) :
    (m.insert key value).entries.filter (fun e => e.1 ≠ key) =
      m.entries.filter (fun e => e.1 ≠ key) := by
  refine eq_of_mem_iff ((m.insert key value).ascending.filter _) (m.ascending.filter _) ?_
  rintro ⟨k, v⟩
  simp only [List.mem_filter, mem_entries_insert, decide_eq_true_eq]
  constructor
  · rintro ⟨h | h, hne⟩
    · exact absurd (congrArg Prod.fst h) hne
    · exact h
  · exact fun h => ⟨.inr h, h.2⟩

/-! ## Looking up -/

theorem eq_of_key_eq {e f : Nat × β} (he : e ∈ m.entries) (hf : f ∈ m.entries)
    (h : e.1 = f.1) : e = f := by
  by_contra hne
  have : Std.Symm fun e f : Nat × β => e.1 ≠ f.1 := ⟨fun _ _ => Ne.symm⟩
  have hkeys : m.entries.Pairwise fun e f => e.1 ≠ f.1 := m.ascending.imp fun hlt => hlt.ne
  exact hkeys.forall he hf hne h

/-- A look-up finds exactly the entries. -/
theorem get?_eq_some_iff : m.get? key = some value ↔ (key, value) ∈ m.entries := by
  unfold get?
  constructor
  · intro h
    obtain ⟨e, he, rfl⟩ := Option.map_eq_some_iff.1 h
    have hkey : e.1 = key := by simpa using List.find?_some he
    exact hkey ▸ List.mem_of_find?_eq_some he
  · intro h
    cases hfind : m.entries.find? (fun e => e.1 == key) with
    | none => simpa using List.find?_eq_none.1 hfind _ h
    | some e =>
        have hkey : e.1 = key := by simpa using List.find?_some hfind
        rw [eq_of_key_eq (List.mem_of_find?_eq_some hfind) h hkey]
        rfl

@[simp] theorem get?_insert_self : (m.insert key value).get? key = some value := by
  simp [get?_eq_some_iff, mem_entries_insert]

theorem get?_insert_of_ne (h : other ≠ key) :
    (m.insert key value).get? other = m.get? other := by
  ext v
  simp [get?_eq_some_iff, mem_entries_insert, h]

theorem get?_erase_of_ne (h : other ≠ key) : (m.erase key).get? other = m.get? other := by
  ext v
  simp [get?_eq_some_iff, h]

@[simp] theorem get?_erase_self : (m.erase key).get? key = none := by
  ext v
  simp [get?_eq_some_iff]

/-- Putting in again what is there changes nothing. -/
theorem insert_of_get? (h : m.get? key = some value) : m.insert key value = m := by
  have hentries : (m.insert key value).entries = m.entries := by
    apply eq_of_mem_iff (m.insert key value).ascending m.ascending
    intro e
    have hmem := get?_eq_some_iff.1 h
    rw [mem_entries_insert]
    constructor
    · rintro (rfl | ⟨he, -⟩)
      · exact hmem
      · exact he
    · intro he
      by_cases hkey : e.1 = key
      · exact .inl (eq_of_key_eq he hmem hkey)
      · exact .inr ⟨he, hkey⟩
  obtain ⟨entries, ascending⟩ := m
  simpa [insert] using hentries

/-- The last of ascending entries is the one with the greatest key. -/
theorem getLast?_eq_some_iff {es : List (Nat × β)} {e : Nat × β}
    (hes : es.Pairwise fun e f => e.1 < f.1) :
    es.getLast? = some e ↔ e ∈ es ∧ ∀ f ∈ es, f.1 ≤ e.1 := by
  have hlast : ∀ {g}, es.getLast? = some g → g ∈ es ∧ ∀ f ∈ es, f.1 ≤ g.1 := by
    intro g hg
    obtain ⟨before, rfl⟩ := List.getLast?_eq_some_iff.1 hg
    obtain ⟨-, -, hbefore⟩ := List.pairwise_append.1 hes
    refine ⟨by simp, fun f hf => ?_⟩
    rcases List.mem_append.1 hf with hf | hf
    · exact (hbefore f hf g (by simp)).le
    · rw [List.mem_singleton.1 hf]
  constructor
  · exact hlast
  · rintro ⟨he, hmax⟩
    cases hg : es.getLast? with
    | none => simp [List.getLast?_eq_none_iff.1 hg] at he
    | some g =>
        have hkey : e.1 = g.1 := le_antisymm ((hlast hg).2 e he) (hmax g (hlast hg).1)
        rw [eq_of_key_eq (m := ⟨es, hes⟩) he (hlast hg).1 hkey]

theorem upTo_eq_filter (m : OrderedMap β) (bound : Nat) :
    m.upTo bound = m.entries.filter fun e => e.1 ≤ bound := by
  obtain ⟨es, hes⟩ := m
  change es.takeWhile _ = es.filter _
  induction es with
  | nil => rfl
  | cons e rest ih =>
      obtain ⟨hhead, hrest⟩ := List.pairwise_cons.1 hes
      by_cases hle : e.1 ≤ bound
      · rw [List.takeWhile_cons_of_pos (by simp [hle]), List.filter_cons_of_pos (by simp [hle]),
          ih hrest]
      · -- the keys that follow are above the first one
        rw [List.takeWhile_cons_of_neg (by simp [hle]), List.filter_cons_of_neg (by simp [hle]),
          List.filter_eq_nil_iff.2]
        intro f hf
        have hlt := hhead f hf
        simp only [decide_eq_true_eq]
        omega

/-- The greatest key at or below a number. -/
theorem floor?_eq_some_iff {bound : Nat} {e : Nat × β} :
    m.floor? bound = some e ↔
      e ∈ m.entries ∧ e.1 ≤ bound ∧ ∀ f ∈ m.entries, f.1 ≤ bound → f.1 ≤ e.1 := by
  rw [floor?, upTo_eq_filter, getLast?_eq_some_iff (m.ascending.filter _)]
  simp only [List.mem_filter, decide_eq_true_eq, and_imp, and_assoc]

/-- A new entry is found from its key on up to the next key; elsewhere the search ends where it
ended before. -/
theorem floor?_insert {bound : Nat} : (m.insert key value).floor? bound =
    if key ≤ bound ∧ ∀ e ∈ m.entries, e.1 ≤ bound → e.1 ≤ key then some (key, value)
    else m.floor? bound := by
  split_ifs with hnew
  · refine floor?_eq_some_iff.2 ⟨mem_entries_insert.2 (.inl rfl), hnew.1, fun f hf hle => ?_⟩
    rcases mem_entries_insert.1 hf with rfl | ⟨hf, -⟩
    · exact le_rfl
    · exact hnew.2 f hf hle
  · ext e
    rw [floor?_eq_some_iff, floor?_eq_some_iff]
    constructor
    · rintro ⟨he, hle, hgreatest⟩
      have hothers : ∀ f ∈ m.entries, f.1 ≤ bound → f.1 ≤ e.1 := by
        intro f hf hfle
        by_cases hkey : f.1 = key
        · exact hkey ▸ hgreatest (key, value) (mem_entries_insert.2 (.inl rfl)) (hkey ▸ hfle)
        · exact hgreatest f (mem_entries_insert.2 (.inr ⟨hf, hkey⟩)) hfle
      rcases mem_entries_insert.1 he with rfl | ⟨he, -⟩
      · exact absurd ⟨hle, hothers⟩ hnew
      · exact ⟨he, hle, hothers⟩
    · rintro ⟨he, hle, hgreatest⟩
      -- the new key is beyond the bound, or a greater one within it is there already
      have hother : key ≤ bound → key < e.1 := by
        refine fun hkey => not_le.1 fun hge => hnew ⟨hkey, fun f hf hfle => ?_⟩
        exact (hgreatest f hf hfle).trans hge
      have hne : e.1 ≠ key := fun heq => (hother (heq ▸ hle)).ne' heq
      refine ⟨mem_entries_insert.2 (.inr ⟨he, hne⟩), hle, fun f hf hfle => ?_⟩
      rcases mem_entries_insert.1 hf with rfl | ⟨hf, -⟩
      · exact (hother hfle).le
      · exact hgreatest f hf hfle

/-- The first key is the least one. -/
theorem head?_keys_eq_some_iff : m.keys.head? = some key ↔
    (∃ e ∈ m.entries, e.1 = key) ∧ ∀ e ∈ m.entries, key ≤ e.1 := by
  obtain ⟨es, hes⟩ := m
  change (es.map (·.1)).head? = some key ↔ _
  cases es with
  | nil => simp
  | cons e rest =>
      obtain ⟨hhead, -⟩ := List.pairwise_cons.1 hes
      have hmin : ∀ f ∈ e :: rest, e.1 ≤ f.1 := by
        intro f hf
        rcases List.mem_cons.1 hf with rfl | hf
        · exact le_rfl
        · exact (hhead f hf).le
      simp only [List.map_cons, List.head?_cons, Option.some.injEq]
      constructor
      · rintro rfl
        exact ⟨⟨e, by simp, rfl⟩, hmin⟩
      · rintro ⟨⟨f, hf, rfl⟩, hle⟩
        exact le_antisymm (hmin f hf) (hle e (by simp))

theorem contains_iff : m.contains key = true ↔ ∃ value, m.get? key = some value := by
  simp [contains, Option.isSome_iff_exists]

theorem contains_insert_of_contains (h : m.contains other = true) :
    (m.insert key value).contains other = true := by
  rcases eq_or_ne other key with rfl | hne
  · exact contains_iff.2 ⟨value, get?_insert_self⟩
  · unfold contains at h ⊢
    rwa [get?_insert_of_ne hne]

theorem contains_erase_of_ne (hne : other ≠ key) :
    (m.erase key).contains other = m.contains other := by
  unfold contains
  rw [get?_erase_of_ne hne]

end HexEditor.OrderedMap
