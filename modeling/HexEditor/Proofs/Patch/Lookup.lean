import HexEditor.Patch.Store
import HexEditor.Proofs.Patch.Layout
import Mathlib.Data.List.Induction

/-!
# Looking patches up

The search for the patches that meet a range walks down from the end of the range and
stops at the first patch that ends before it.  On a set of laid out patches that loses
nothing (`overlappingEntries_eq`): what the walk stops at, and all that lies below, ends
before the range.  So it finds the patches that have an address of the range, and no others
(`overlapping_exact`).

Reading is then looking for the only patch with the address (`read_eq`).
-/

namespace HexEditor

/-- A walk down an ascending list that stops at the first failure finds what has no failure at it
or above it. -/
theorem reverse_takeWhile_reverse {α : Type*} {key : α → Nat} {P : α → Prop} [DecidablePred P]
    {l : List α} (h : l.Pairwise fun a b => key a < key b) :
    (l.reverse.takeWhile fun a => P a).reverse =
      l.filter fun a => P a ∧ ∀ b ∈ l, key a < key b → P b := by
  induction l using List.reverseRecOn with
  | nil => rfl
  | append_singleton l e ih =>
      obtain ⟨hl, -, hlast⟩ := List.pairwise_append.1 h
      have habove : ∀ a ∈ l, key a < key e := fun a ha => hlast a ha e (by simp)
      rw [List.reverse_append, List.reverse_singleton, List.singleton_append, List.filter_append]
      by_cases he : P e
      · have hself : P e ∧ ∀ b ∈ l ++ [e], key e < key b → P b := by
          refine ⟨he, fun b hb hlt => ?_⟩
          rcases List.mem_append.1 hb with hb | hb
          · exact absurd (habove b hb) hlt.asymm
          · exact List.mem_singleton.1 hb ▸ he
        rw [List.takeWhile_cons_of_pos (by simpa using he), List.reverse_cons, ih hl,
          List.filter_cons_of_pos (by simpa using hself), List.filter_nil]
        congr 1
        refine List.filter_congr fun a _ => decide_eq_decide.2 (and_congr_right fun _ =>
          ⟨fun hall b hb hlt => ?_, fun hall b hb => hall b (List.mem_append_left _ hb)⟩)
        rcases List.mem_append.1 hb with hb | hb
        · exact hall b hb hlt
        · exact List.mem_singleton.1 hb ▸ he
      · rw [List.takeWhile_cons_of_neg (by simpa using he), List.filter_eq_nil_iff.2,
          List.filter_cons_of_neg (by simp [he])]
        · rfl
        · intro a ha
          simp only [decide_eq_true_eq, not_and]
          exact fun _ hall => he (hall e (by simp) (habove a ha))

namespace Patch

/-- The patch shares an address with the range from `first` up to, not including, `limit`,
if neither is empty. -/
def Meets (p : Patch) (first limit : Nat) : Prop := p.addr < limit ∧ first < p.stop

instance (p : Patch) (first limit : Nat) : Decidable (p.Meets first limit) :=
  inferInstanceAs (Decidable (_ ∧ _))

theorem meets_succ_iff {p : Patch} {a : Nat} : p.Meets a (a + 1) ↔ a ∈ p := by
  rw [Meets, mem_iff, Nat.lt_succ_iff]

/-- What meets a range has an address in it: its own first one, or that of the range. -/
theorem Proper.meets_iff {p : Patch} (h : p.Proper) {first size : Nat} (hsize : 0 < size) :
    p.Meets first (first + size) ↔ ∃ a ∈ p, first ≤ a ∧ a - first < size := by
  have hstart := h.addr_lt_stop
  constructor
  · rintro ⟨hlow, hhigh⟩
    exact ⟨max p.addr first, ⟨le_max_left .., max_lt hstart hhigh⟩, le_max_right .., by omega⟩
  · rintro ⟨a, ⟨hlow, hhigh⟩, hfirst, hlt⟩
    exact ⟨by omega, hfirst.trans_lt hhigh⟩

theorem byteAt?_isSome_iff {p : Patch} {a : Nat} : (p.byteAt? a).isSome = true ↔ a ∈ p := by
  rw [mem_iff, byteAt?, stop, size]
  split
  · rw [isSome_getElem?]
    omega
  · simp
    omega

theorem byteAt?_eq_none_iff {p : Patch} {a : Nat} : p.byteAt? a = none ↔ a ∉ p := by
  rw [← byteAt?_isSome_iff, Option.not_isSome_iff_eq_none]

end Patch

/-- The byte that the first patch with the address puts there. -/
def byteIn (ps : List Patch) (a : Nat) : Option UInt8 := ps.findSome? (·.byteAt? a)

theorem byteIn_append (ps qs : List Patch) (a : Nat) :
    byteIn (ps ++ qs) a = (byteIn ps a).or (byteIn qs a) := List.findSome?_append

theorem byteIn_cons (p : Patch) (ps : List Patch) (a : Nat) :
    byteIn (p :: ps) a = (p.byteAt? a).or (byteIn ps a) := by
  rw [byteIn, List.findSome?_cons]
  cases p.byteAt? a <;> rfl

theorem byteIn_eq_none_iff {ps : List Patch} {a : Nat} :
    byteIn ps a = none ↔ ∀ p ∈ ps, a ∉ p := by
  simp only [byteIn, List.findSome?_eq_none_iff, Patch.byteAt?_eq_none_iff]

/-- A patch with the address decides the byte. -/
theorem Laid.byteIn_eq {ps : List Patch} (h : Laid ps) {p : Patch} {a : Nat} (hp : p ∈ ps)
    (ha : a ∈ p) : byteIn ps a = p.byteAt? a := by
  obtain ⟨before, after, rfl⟩ := List.append_of_mem hp
  have hbefore : byteIn before a = none := by
    rw [byteIn_eq_none_iff]
    intro q hq haq
    have hle := (laid_append.1 h).2.2 q hq p (List.mem_cons_self ..)
    exact absurd haq.2 (hle.trans ha.1).not_gt
  obtain ⟨b, hb⟩ := Option.isSome_iff_exists.1 (Patch.byteAt?_isSome_iff.2 ha)
  rw [byteIn_append, hbefore, byteIn_cons, hb]
  rfl

/-- The patches with an address are the first one that is found, if there is any. -/
theorem Laid.filter_mem_eq {ps : List Patch} (h : Laid ps) (a : Nat) :
    (ps.filter fun p => a ∈ p) = (ps.find? fun p => a ∈ p).toList := by
  have hin : ∀ p ∈ ps.filter fun p => a ∈ p, a ∈ p := fun p hp => by
    simpa using List.of_mem_filter hp
  have hapart := h.apart.filter fun p => a ∈ p
  rw [← List.head?_filter]
  cases hfound : ps.filter fun p => a ∈ p with
  | nil => rfl
  | cons p rest =>
      cases rest with
      | nil => rfl
      | cons q rest =>
          rw [hfound] at hin hapart
          have hle : p.stop ≤ q.addr := (List.pairwise_cons.1 hapart).1 q (List.mem_cons_self ..)
          have hp := hin p (by simp)
          have hq := hin q (by simp)
          exact absurd hp.2 (hle.trans hq.1).not_gt

/-- The first patch that is found at an address is the only one with it. -/
theorem Laid.find?_mem_eq_some_iff {ps : List Patch} (h : Laid ps) {p : Patch} {a : Nat} :
    (ps.find? fun p => a ∈ p) = some p ↔ p ∈ ps ∧ a ∈ p := by
  constructor
  · intro hfound
    exact ⟨List.mem_of_find?_eq_some hfound, by simpa using List.find?_some hfound⟩
  · rintro ⟨hp, hin⟩
    cases hfind : ps.find? fun p => a ∈ p with
    | none => exact absurd (decide_eq_true hin) (List.find?_eq_none.1 hfind p hp)
    | some q =>
        have hq : a ∈ q := by simpa using List.find?_some hfind
        rw [h.eq_of_mem (List.mem_of_find?_eq_some hfind) hp hq hin]

/-! ## The walk -/

namespace PatchSet

variable {s : PatchSet} {ps : List Patch}

/-- The walk passes a patch that starts at `last` or before and ends after `addr`, if all patches
that it has to pass before end after `addr` as well. -/
theorem scan_eq (h : s.Holds ps) (addr last : Nat) :
    s.scan addr last = (ps.filter fun p => (p.addr ≤ last ∧ addr < p.stop) ∧
      ∀ q ∈ ps, p.addr < q.addr → q.addr ≤ last → addr < q.stop).map Patch.entry := by
  have hbelow : s.upTo last = (ps.filter fun p => p.addr ≤ last).map Patch.entry := by
    rw [OrderedMap.upTo_eq_filter, h, List.filter_map]
    rfl
  have hasc : ((ps.filter fun p => p.addr ≤ last).map Patch.entry).Pairwise
      fun e f => e.1 < f.1 := List.pairwise_map.2 (h.addr_lt.filter _)
  rw [scan, hbelow, reverse_takeWhile_reverse hasc, List.filter_map, List.filter_filter]
  congr 1
  refine List.filter_congr fun p _ => ?_
  rw [Bool.eq_iff_iff, Function.comp_apply, Bool.and_eq_true, decide_eq_true_iff,
    decide_eq_true_iff, decide_eq_true_iff]
  simp only [Patch.entry, List.forall_mem_map, List.forall_mem_filter, decide_eq_true_eq]
  constructor
  · rintro ⟨⟨hin, habove⟩, hle⟩
    exact ⟨⟨hle, hin⟩, fun q hq hlt hqle => habove q hq hqle hlt⟩
  · rintro ⟨⟨hle, hin⟩, habove⟩
    exact ⟨⟨hin, fun q hq hqle hlt => habove q hq hlt hqle⟩, hle⟩

/-- On laid out patches the walk passes all that end after `addr`: whoever does is followed by
patches that end even later. -/
theorem scan_eq_of_laid (h : s.Holds ps) (hlaid : Laid ps) (addr last : Nat) :
    s.scan addr last =
      (ps.filter fun p => p.addr ≤ last ∧ addr < p.stop).map Patch.entry := by
  rw [scan_eq h]
  congr 1
  refine List.filter_congr fun p hp => decide_eq_decide.2 (and_iff_left_of_imp ?_)
  rintro ⟨-, hin⟩ q hq hlt -
  have hstart := (hlaid.proper q hq).addr_lt_stop
  refine (hin.trans_le (not_lt.1 fun hcross => hlt.ne ?_)).trans hstart
  exact congrArg Patch.addr (hlaid.eq_of_mem hp hq ⟨hlt.le, hcross⟩ ⟨le_rfl, hstart⟩)

/-- The search finds exactly the patches that meet the range. -/
theorem overlappingEntries_eq (h : s.Holds ps) (hlaid : Laid ps) {addr size : Nat}
    (hsize : 0 < size) :
    s.overlappingEntries addr size =
      .ok ((ps.filter fun p => p.Meets addr (addr + size)).map Patch.entry) := by
  have hfound : s.scan addr (clampedAdd addr (size - 1)) =
      (ps.filter fun p => p.Meets addr (addr + size)).map Patch.entry := by
    rw [scan_eq_of_laid h hlaid]
    congr 1
    apply List.filter_congr
    intro p hp
    -- a patch starts in the address space, so that clamping the end of the range is no loss
    have hstart := (hlaid.proper p hp).addr_lt_stop
    have hstop := (hlaid.proper p hp).stop_le
    have hclamp : p.addr ≤ clampedAdd addr (size - 1) ↔ p.addr < addr + size := by
      unfold clampedAdd
      omega
    rw [decide_eq_decide, hclamp]
    rfl
  rw [overlappingEntries, if_neg hsize.ne', hfound, if_pos]
  simp only [List.all_eq_true, decide_eq_true_eq, List.forall_mem_map]
  exact fun p hp => (hlaid.proper p (List.mem_of_mem_filter hp)).stop_le

theorem overlapping_eq (h : s.Holds ps) (hlaid : Laid ps) {addr size : Nat}
    (hsize : 0 < size) :
    s.overlapping addr size =
      .ok ((ps.filter fun p => p.Meets addr (addr + size)).map Patch.addr) := by
  rw [overlapping, overlappingEntries_eq h hlaid hsize]
  simp only [Checked.ok_bind, Checked.pure_eq_ok, List.map_map]
  rfl

end PatchSet

/-! ## Reading -/

namespace PatchStore

variable {s : PatchStore} {ps : List Patch}

/-- The first patch found at an address is the only one with it. -/
theorem patchAt?_eq (h : s.set.Holds ps) (hlaid : Laid ps) (a : Nat) :
    s.patchAt? a = .ok (ps.find? fun p => a ∈ p) := by
  have hmeets : (ps.filter fun p => p.Meets a (a + 1)) = ps.filter fun p => a ∈ p := by
    simp only [Patch.meets_succ_iff]
  rw [patchAt?, PatchSet.overlapping_eq h hlaid Nat.one_pos, hmeets]
  simp only [Checked.ok_bind, List.head?_map, List.head?_filter]
  cases hfind : ps.find? fun p => a ∈ p with
  | none => rfl
  | some p => exact congrArg _ (h.get?_eq_some_iff.2 ⟨List.mem_of_find?_eq_some hfind, rfl⟩)

theorem read_eq (h : s.set.Holds ps) (hlaid : Laid ps) (a : Nat) :
    s.read a = .ok (byteIn ps a) := by
  have hbyte : (ps.find? fun p => a ∈ p).bind (·.byteAt? a) = byteIn ps a := by
    cases hfind : ps.find? fun p => a ∈ p with
    | none =>
        have hnone := List.find?_eq_none.1 hfind
        exact (byteIn_eq_none_iff.2 fun p hp hap => hnone p hp (decide_eq_true hap)).symm
    | some p =>
        have hap : a ∈ p := by simpa using List.find?_some hfind
        exact (hlaid.byteIn_eq (List.mem_of_find?_eq_some hfind) hap).symm
  rw [read, patchAt?_eq h hlaid, ← hbyte]
  rfl

/-! ## Nothing is lost, and nothing else is found -/

/-- On a well-formed set, the search for the patches that meet a range always answers, also when the
range reaches beyond the address space.  It finds each patch that has an address of the range, once
and in ascending order, and no other.  The patch at an address is the only one that has it. -/
theorem overlapping_exact (h : s.set.WellFormed) (addr size : Nat) :
    (∃ found, s.set.overlapping addr size = .ok found ∧ found.Pairwise (· < ·) ∧
      ∀ start, start ∈ found ↔
        ∃ p ∈ s.set.values, p.addr = start ∧ ∃ a ∈ p, addr ≤ a ∧ a - addr < size) ∧
    ∃ found, s.patchAt? addr = .ok found ∧ ∀ p, found = some p ↔ p ∈ s.set.values ∧ addr ∈ p := by
  obtain ⟨hholds, hlaid⟩ := PatchSet.wellFormed_iff.1 h
  constructor
  · rcases size.eq_zero_or_pos with rfl | hsize
    · refine ⟨[], rfl, .nil, fun start => ⟨nofun, ?_⟩⟩
      rintro ⟨p, -, -, a, -, -, hlt⟩
      exact absurd hlt (Nat.not_lt_zero _)
    · refine ⟨_, PatchSet.overlapping_eq hholds hlaid hsize, ?_, fun start => ?_⟩
      · exact List.pairwise_map.2 (hlaid.addr_lt.filter _)
      · simp only [List.mem_map, List.mem_filter, decide_eq_true_eq]
        constructor
        · rintro ⟨p, ⟨hp, hmeets⟩, rfl⟩
          exact ⟨p, hp, rfl, ((hlaid.proper p hp).meets_iff hsize).1 hmeets⟩
        · rintro ⟨p, hp, rfl, hshared⟩
          exact ⟨p, ⟨hp, ((hlaid.proper p hp).meets_iff hsize).2 hshared⟩, rfl⟩
  · exact ⟨_, patchAt?_eq hholds hlaid addr, fun p => hlaid.find?_mem_eq_some_iff⟩

/-- The range begins in a patch that ends with the address space, and reaches beyond it. -/
theorem overlapping_exact_top : ∃ s : PatchStore, s.set.WellFormed ∧
    (∃ found, s.set.overlapping 18446744073709551614 5 = .ok found ∧
      18446744073709551612 ∈ found ∧ 3 ∉ found) ∧
    s.patchAt? 18446744073709551614 = .ok (some ⟨18446744073709551612, [4, 5, 6], none⟩) := by
  let s : PatchStore := .ofPatches [⟨3, [1, 2], none⟩, ⟨18446744073709551612, [4, 5, 6], none⟩]
  have hset : s.set.WellFormed := PatchSet.wellFormed_ofList (by decide)
  have hvalues : s.set.values =
      [⟨3, [1, 2], none⟩, ⟨18446744073709551612, [4, 5, 6], none⟩] := rfl
  obtain ⟨⟨found, hfound, -, hiff⟩, patch, hpatch, hat⟩ :=
    overlapping_exact hset 18446744073709551614 5
  rw [hvalues] at hiff hat
  refine ⟨s, hset, ⟨found, hfound, ?_, fun hmem => ?_⟩, ?_⟩
  · exact (hiff _).2 ⟨⟨18446744073709551612, [4, 5, 6], none⟩, by simp, rfl,
      18446744073709551614, by decide, le_rfl, by decide⟩
  · obtain ⟨p, hp, haddr, a, hin, hle, -⟩ := (hiff 3).1 hmem
    simp only [List.mem_cons, List.not_mem_nil, or_false] at hp
    rcases hp with rfl | rfl
    · exact absurd (hle.trans_lt hin.2) (by decide)
    · cases haddr
  · rw [hpatch, (hat ⟨18446744073709551612, [4, 5, 6], none⟩).2 ⟨by simp, by decide⟩]

end PatchStore

end HexEditor
