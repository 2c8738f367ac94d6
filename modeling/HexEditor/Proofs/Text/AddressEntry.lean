import HexEditor.Text.AddressEntry
import Mathlib

/-!
# What is read as an address

An address should be read from its hexadecimal digits, with blanks around them and with or without
`0x` in front, and nothing else should be.  The reading goes in three stages.  It is compared here
with a description of the whole text (`Denotes`), which says what stands between the blanks: one of
some marks, and behind it the digits.

Behind the mark of a hexadecimal number the last stage also takes a plus sign, so that the texts
that are read are those with one of six marks and not with one of three.
-/

namespace HexEditor

namespace Hexadecimal

variable {c : Char} {text : List Char} {d v acc : Nat}

/-- The digits of lower case, from that of zero to that of fifteen. -/
def lowerDigits : List Char :=
  ['0', '1', '2', '3', '4', '5', '6', '7', '8', '9', 'a', 'b', 'c', 'd', 'e', 'f']

/-- The digits of upper case, from that of zero to that of fifteen. -/
def upperDigits : List Char :=
  ['0', '1', '2', '3', '4', '5', '6', '7', '8', '9', 'A', 'B', 'C', 'D', 'E', 'F']

/-- The character is the digit of the number, in either case. -/
def IsDigit (c : Char) (d : Nat) : Prop := lowerDigits[d]? = some c ∨ upperDigits[d]? = some c

/-- The text is made of digits, the most significant one first, of which there is at least one. -/
def Spells (text : List Char) (v : Nat) : Prop :=
  text ≠ [] ∧ ∃ ds, List.Forall₂ IsDigit text ds ∧ v = Nat.ofDigits 16 ds.reverse

/-! ## Reading digits -/

theorem IsDigit.value? (h : IsDigit c d) : value? c = some d := by
  have hlower : lowerDigits.map Hexadecimal.value? = (List.range 16).map some := by decide
  have hupper : upperDigits.map Hexadecimal.value? = (List.range 16).map some := by decide
  have hread : ∀ l : List Char, l.map Hexadecimal.value? = (List.range 16).map some →
      l[d]? = some c → Hexadecimal.value? c = some d := by
    intro l hl hc
    have hd := congrArg (·[d]?) hl
    simp only [List.getElem?_map, hc, Option.map_some] at hd
    obtain ⟨n, hn, hvalue⟩ := Option.map_eq_some_iff.1 hd.symm
    obtain ⟨hlt, rfl⟩ := List.getElem?_eq_some_iff.1 hn
    rw [List.getElem_range] at hvalue
    exact hvalue.symm
  cases h with
  | inl h => exact hread lowerDigits hlower h
  | inr h => exact hread upperDigits hupper h

theorem isDigit_of_value? (h : value? c = some d) : IsDigit c d := by
  have hdecimal : ∀ n, 48 ≤ n → n ≤ 57 → lowerDigits[n - 48]? = some (Char.ofNat n) := by
    intro n hfirst hlast
    interval_cases n <;> rfl
  have hlower : ∀ n, 97 ≤ n → n ≤ 102 → lowerDigits[n - 97 + 10]? = some (Char.ofNat n) := by
    intro n hfirst hlast
    interval_cases n <;> rfl
  have hupper : ∀ n, 65 ≤ n → n ≤ 70 → upperDigits[n - 65 + 10]? = some (Char.ofNat n) := by
    intro n hfirst hlast
    interval_cases n <;> rfl
  rw [← Char.ofNat_toNat c]
  unfold Hexadecimal.value? at h
  split at h
  · next hrange =>
      obtain rfl := Option.some.inj h
      exact .inl (hdecimal _ hrange.1 hrange.2)
  · split at h
    · next hrange =>
        obtain rfl := Option.some.inj h
        exact .inl (hlower _ hrange.1 hrange.2)
    · split at h
      · next hrange =>
          obtain rfl := Option.some.inj h
          exact .inr (hupper _ hrange.1 hrange.2)
      · cases h

theorem valueFrom?_eq_some_iff :
    valueFrom? acc text = some v ↔
      ∃ ds, List.Forall₂ IsDigit text ds ∧
        v = Nat.ofDigits 16 ds.reverse + acc * 16 ^ ds.length := by
  induction text generalizing acc with
  | nil => simp [valueFrom?, eq_comm]
  | cons c rest ih =>
      have hvalue : ∀ (d : Nat) (ds : List Nat),
          Nat.ofDigits 16 (d :: ds).reverse + acc * 16 ^ (d :: ds).length =
            Nat.ofDigits 16 ds.reverse + (acc * 16 + d) * 16 ^ ds.length := by
        intro d ds
        rw [List.reverse_cons, Nat.ofDigits_append, List.length_reverse, Nat.ofDigits_singleton,
          List.length_cons]
        ring
      constructor
      · intro h
        unfold valueFrom? at h
        split at h
        · next d hd =>
            obtain ⟨ds, hds, rfl⟩ := ih.1 h
            exact ⟨d :: ds, .cons (isDigit_of_value? hd) hds, (hvalue d ds).symm⟩
        · cases h
      · rintro ⟨_, hds, hv⟩
        cases hds with
        | @cons _ d _ ds hd hds =>
            unfold valueFrom?
            rw [hd.value?]
            exact ih.2 ⟨ds, hds, hv.trans (hvalue d ds)⟩

theorem valueFrom?_zero (hne : text ≠ []) : valueFrom? 0 text = some v ↔ Spells text v := by
  rw [valueFrom?_eq_some_iff]
  simp only [Nat.zero_mul, Nat.add_zero]
  exact ⟨fun h => ⟨hne, h⟩, And.right⟩

/-! ## Writing digits -/

theorem isDigit_digit (hd : d < 16) : IsDigit (digit d) d := by
  have hall : ∀ d < 16, lowerDigits[d]? = some (digit d) := by decide
  exact .inl (hall d hd)

theorem IsDigit.spells (h : IsDigit c d) : Spells [c] d :=
  ⟨List.cons_ne_nil _ _, [d], .cons h .nil, Nat.ofDigits_singleton.symm⟩

/-- One more digit behind the others. -/
theorem Spells.append (h : Spells text v) (hd : IsDigit c d) :
    Spells (text ++ [c]) (16 * v + d) := by
  obtain ⟨-, ds, hds, rfl⟩ := h
  refine ⟨by simp, ds ++ [d], List.rel_append hds (.cons hd .nil), ?_⟩
  rw [List.reverse_append, List.reverse_singleton, List.singleton_append, Nat.ofDigits_cons,
    Nat.add_comm]

theorem Spells.zero_cons (h : Spells text v) : Spells ('0' :: text) v := by
  obtain ⟨-, ds, hds, rfl⟩ := h
  refine ⟨List.cons_ne_nil _ _, 0 :: ds, .cons (.inl rfl) hds, ?_⟩
  rw [List.reverse_cons, Nat.ofDigits_append, Nat.ofDigits_singleton, Nat.mul_zero, Nat.add_zero]

theorem spells_digits (n : Nat) : Spells (digits n) n := by
  induction n using digits.induct with
  | case1 n hsmall =>
      unfold digits
      rw [if_pos hsmall]
      exact (isDigit_digit hsmall).spells
  | case2 n hlarge ih =>
      unfold digits
      rw [if_neg hlarge]
      have happend := ih.append (isDigit_digit (Nat.mod_lt n (by decide)))
      rwa [Nat.div_add_mod] at happend

theorem spells_padded (width n : Nat) : Spells (padded width n) n := by
  unfold padded
  induction width - (digits n).length with
  | zero => exact spells_digits n
  | succ zeros ih => exact ih.zero_cons

end Hexadecimal

namespace Text

open Hexadecimal (Spells IsDigit)

variable {c : Char} {left middle right digits : List Char} {text : String} {v : Nat}

/-- What may stand in front of the digits of an address. -/
def plainMarks : List (List Char) := [[], ['0', 'x'], ['0', 'X']]

/-- What stands in front of the digits of a number with a sign. -/
def signedMarks : List (List Char) := plainMarks.map (· ++ ['+'])

/-- Between blanks, there are a mark and the digits of an address. -/
def Denotes (marks : List (List Char)) (text : String) (v : Nat) : Prop :=
  ∃ left mark digits right, text.toList = left ++ (mark ++ digits) ++ right ∧
    (∀ c ∈ left, isBlank c = true) ∧ mark ∈ marks ∧ Spells digits v ∧
    (∀ c ∈ right, isBlank c = true) ∧ v ≤ maxAddress

/-! ## Blanks -/

theorem trim_append (hleft : ∀ c ∈ left, isBlank c = true)
    (hright : ∀ c ∈ right, isBlank c = true) (hfirst : ∀ c ∈ middle.head?, isBlank c = false)
    (hlast : ∀ c ∈ middle.getLast?, isBlank c = false) :
    trim (left ++ middle ++ right) = middle := by
  have hend : ∀ rest : List Char, (∀ c ∈ rest.head?, isBlank c = false) →
      rest.dropWhile isBlank = rest := by
    intro rest hhead
    cases rest with
    | nil => rfl
    | cons c rest => exact List.dropWhile_cons_of_neg (by simp [hhead c rfl])
  unfold trim
  rw [List.append_assoc, List.dropWhile_append_of_pos hleft]
  cases middle with
  | nil =>
      rw [List.nil_append, List.dropWhile_eq_nil_iff.2 hright]
      rfl
  | cons c middle =>
      rw [hend (c :: middle ++ right) hfirst, List.reverse_append,
        List.dropWhile_append_of_pos fun c hc => hright c (List.mem_reverse.1 hc), hend,
        List.reverse_reverse]
      rwa [List.head?_reverse]

/-- Trimming takes nothing but blanks away. -/
theorem exists_append_trim (text : List Char) :
    ∃ left right, text = left ++ trim text ++ right ∧ (∀ c ∈ left, isBlank c = true) ∧
      ∀ c ∈ right, isBlank c = true := by
  refine ⟨text.takeWhile isBlank,
    (((text.dropWhile isBlank).reverse).takeWhile isBlank).reverse, ?_, ?_, ?_⟩
  · unfold trim
    rw [List.append_assoc, ← List.reverse_append, List.takeWhile_append_dropWhile,
      List.reverse_reverse, List.takeWhile_append_dropWhile]
  · intro c hc
    exact List.mem_takeWhile_imp hc
  · intro c hc
    exact List.mem_takeWhile_imp (List.mem_reverse.1 hc)

/-! ## Digits and marks -/

theorem not_isBlank_of_isDigit {d : Nat} (h : IsDigit c d) : isBlank c = false := by
  have hall : (Hexadecimal.lowerDigits ++ Hexadecimal.upperDigits).all (!isBlank ·) = true := by
    decide
  have hc : c ∈ Hexadecimal.lowerDigits ++ Hexadecimal.upperDigits :=
    List.mem_append.2 (h.imp List.mem_of_getElem? List.mem_of_getElem?)
  simpa using List.all_eq_true.1 hall c hc

/-- Every character of a numeral is a digit. -/
theorem exists_isDigit (h : Spells digits v) (hc : c ∈ digits) : ∃ d, IsDigit c d := by
  obtain ⟨-, ds, hds, -⟩ := h
  obtain ⟨i, hi, rfl⟩ := List.getElem_of_mem hc
  exact ⟨_, hds.get hi (hds.length_eq ▸ hi)⟩

/-- A numeral contains no other characters. -/
theorem not_mem_of_spells (h : Spells digits v) (hc : Hexadecimal.value? c = none) :
    c ∉ digits := by
  intro hmem
  obtain ⟨d, hd⟩ := exists_isDigit h hmem
  cases hc.symm.trans hd.value?

/-- Without its mark, a number is what the last stage reads. -/
theorem dropPlus_dropHexMark (h : Spells digits v) {mark : List Char}
    (hmark : mark ∈ plainMarks ++ signedMarks) :
    dropPlus (dropHexMark (mark ++ digits)) = digits := by
  have hx : 'x' ∉ digits := not_mem_of_spells h rfl
  have hX : 'X' ∉ digits := not_mem_of_spells h rfl
  have hplus : '+' ∉ digits := not_mem_of_spells h rfl
  have hunsigned : dropPlus digits = digits := by
    unfold dropPlus
    split
    · exact absurd List.mem_cons_self hplus
    · rfl
  have hunmarked : dropHexMark digits = digits := by
    unfold dropHexMark
    split
    · exact absurd (List.mem_cons_of_mem _ List.mem_cons_self) hx
    · exact absurd (List.mem_cons_of_mem _ List.mem_cons_self) hX
    · rfl
  simp only [plainMarks, signedMarks, List.map_cons, List.map_nil, List.cons_append,
    List.nil_append, List.mem_cons, List.not_mem_nil, or_false] at hmark
  obtain rfl | rfl | rfl | rfl | rfl | rfl := hmark
  · rw [List.nil_append, hunmarked, hunsigned]
  · exact hunsigned
  · exact hunsigned
  · rfl
  · rfl
  · rfl

/-- What is taken away in front of the digits is one of the marks. -/
theorem exists_mark_append (text : List Char) :
    ∃ mark ∈ plainMarks ++ signedMarks, text = mark ++ dropPlus (dropHexMark text) := by
  have hsign : ∀ rest, rest = dropPlus rest ∨ rest = '+' :: dropPlus rest := by
    intro rest
    unfold dropPlus
    split
    · exact .inr rfl
    · exact .inl rfl
  unfold dropHexMark
  split
  · next rest =>
      obtain hplain | hsigned := hsign rest
      · exact ⟨['0', 'x'], by decide, congrArg (['0', 'x'] ++ ·) hplain⟩
      · exact ⟨['0', 'x', '+'], by decide, congrArg (['0', 'x'] ++ ·) hsigned⟩
  · next rest =>
      obtain hplain | hsigned := hsign rest
      · exact ⟨['0', 'X'], by decide, congrArg (['0', 'X'] ++ ·) hplain⟩
      · exact ⟨['0', 'X', '+'], by decide, congrArg (['0', 'X'] ++ ·) hsigned⟩
  · obtain hplain | hsigned := hsign text
    · exact ⟨[], by decide, hplain⟩
    · exact ⟨['+'], by decide, hsigned⟩

/-! ## The whole text -/

theorem numeral?_eq_some_iff {rest : List Char} :
    numeral? rest = some v ↔ Spells (dropPlus rest) v ∧ v ≤ maxAddress := by
  unfold numeral?
  split
  · next hnone => simp [hnone, Hexadecimal.Spells]
  · next hne =>
      rw [Option.filter_eq_some_iff, Hexadecimal.valueFrom?_zero hne, decide_eq_true_eq]

theorem address?_of_denotes (h : Denotes (plainMarks ++ signedMarks) text v) :
    address? text = some v := by
  obtain ⟨left, mark, digits, right, htext, hleft, hmark, hspells, hright, hmax⟩ := h
  have hdigit : ∀ c ∈ digits, isBlank c = false := by
    intro c hc
    obtain ⟨d, hd⟩ := exists_isDigit hspells hc
    exact not_isBlank_of_isDigit hd
  have hinked : ∀ c ∈ mark ++ digits, isBlank c = false := by
    have hmarks : ∀ mark ∈ plainMarks ++ signedMarks, mark.all (!isBlank ·) = true := by decide
    intro c hc
    obtain hc | hc := List.mem_append.1 hc
    · simpa using List.all_eq_true.1 (hmarks mark hmark) c hc
    · exact hdigit c hc
  have htrim : trim text.toList = mark ++ digits := by
    rw [htext]
    exact trim_append hleft hright (fun c hc => hinked c (List.mem_of_head? hc))
      fun c hc => hinked c (List.mem_of_getLast? hc)
  unfold address?
  rw [htrim, numeral?_eq_some_iff, dropPlus_dropHexMark hspells hmark]
  exact ⟨hspells, hmax⟩

theorem denotes_of_address? (h : address? text = some v) :
    Denotes (plainMarks ++ signedMarks) text v := by
  obtain ⟨hspells, hmax⟩ := numeral?_eq_some_iff.1 h
  obtain ⟨left, right, htext, hleft, hright⟩ := exists_append_trim text.toList
  obtain ⟨mark, hmark, hmiddle⟩ := exists_mark_append (trim text.toList)
  refine ⟨left, mark, _, right, ?_, hleft, hmark, hspells, hright, hmax⟩
  rw [← hmiddle]
  exact htext

theorem denotes_append {marks more : List (List Char)} :
    Denotes (marks ++ more) text v ↔ Denotes marks text v ∨ Denotes more text v := by
  unfold Denotes
  constructor
  · rintro ⟨left, mark, digits, right, htext, hleft, hmark, hspells, hright, hmax⟩
    obtain hmark | hmark := List.mem_append.1 hmark
    · exact .inl ⟨left, mark, digits, right, htext, hleft, hmark, hspells, hright, hmax⟩
    · exact .inr ⟨left, mark, digits, right, htext, hleft, hmark, hspells, hright, hmax⟩
  · rintro (⟨left, mark, digits, right, htext, hleft, hmark, hspells, hright, hmax⟩ |
      ⟨left, mark, digits, right, htext, hleft, hmark, hspells, hright, hmax⟩)
    · exact ⟨left, mark, digits, right, htext, hleft, List.mem_append_left _ hmark, hspells,
        hright, hmax⟩
    · exact ⟨left, mark, digits, right, htext, hleft, List.mem_append_right _ hmark, hspells,
        hright, hmax⟩

/-- A text with a sign is no text without one. -/
theorem not_denotes_plain {w : Nat} (h : Denotes signedMarks text v) :
    ¬ Denotes plainMarks text w := by
  have hsigned : ∀ mark ∈ signedMarks, '+' ∈ mark := by decide
  have hplain : ∀ mark ∈ plainMarks, '+' ∉ mark := by decide
  obtain ⟨left, mark, digits, right, htext, -, hmark, -⟩ := h
  rintro ⟨left', mark', digits', right', htext', hleft, hmark', hspells, hright, -⟩
  have hplus : '+' ∈ text.toList := by
    rw [htext]
    exact List.mem_append_left _ (List.mem_append_right _
      (List.mem_append_left _ (hsigned mark hmark)))
  rw [htext'] at hplus
  simp only [List.mem_append] at hplus
  obtain (hmem | hmem | hmem) | hmem := hplus
  · exact absurd (hleft _ hmem) (by decide +kernel)
  · exact hplain mark' hmark' hmem
  · exact not_mem_of_spells hspells rfl hmem
  · exact absurd (hright _ hmem) (by decide +kernel)

/-- Digits behind one of the marks, with nothing around them. -/
theorem denotes_ofList {mark : List Char} (hmark : mark ∈ plainMarks) (h : Spells digits v)
    (hmax : v ≤ maxAddress) : Denotes plainMarks (String.ofList (mark ++ digits)) v := by
  refine ⟨[], mark, digits, [], ?_, by simp, hmark, h, by simp, hmax⟩
  rw [String.toList_ofList, List.append_nil, List.nil_append]

/-- A text is read as an address when it denotes one, and also when it denotes one with a plus sign
in front, which no address should have.  All other texts are read as they should be, among them
those in which addresses are shown. -/
theorem address?_reads (text : String) (width : Nat) {a : Nat} (ha : a ≤ maxAddress) :
    (∀ v, address? text = some v ↔ Denotes plainMarks text v ∨ Denotes signedMarks text v) ∧
      ((∀ v, address? text = some v ↔ Denotes plainMarks text v) ↔
        ∀ v, ¬ Denotes signedMarks text v) ∧
      address? (Hexadecimal.lowerPadded width a) = some a ∧
      address? ("0x" ++ Hexadecimal.lower a) = some a := by
  have hreads : ∀ text v, address? text = some v ↔
      Denotes plainMarks text v ∨ Denotes signedMarks text v := by
    intro text v
    rw [← denotes_append]
    exact ⟨denotes_of_address?, address?_of_denotes⟩
  have hpadded : Denotes plainMarks (String.ofList ([] ++ Hexadecimal.padded width a)) a :=
    denotes_ofList (by decide) (Hexadecimal.spells_padded width a) ha
  have hmarked : Denotes plainMarks (String.ofList (['0', 'x'] ++ Hexadecimal.digits a)) a :=
    denotes_ofList (by decide) (Hexadecimal.spells_digits a) ha
  rw [String.ofList_append] at hmarked
  refine ⟨hreads text, ⟨fun hplain v hsigned => ?_, fun hnone v => ?_⟩,
    (hreads _ a).2 (.inl hpadded), (hreads _ a).2 (.inl hmarked)⟩
  · exact not_denotes_plain hsigned ((hplain v).1 ((hreads text v).2 (.inr hsigned)))
  · rw [hreads, or_iff_left (hnone v)]

/-- The text with blanks is read, and so is the greatest address as it is shown. -/
theorem address?_reads_greatest :
    maxAddress ≤ maxAddress ∧ address? " 0X400 " = some 0x400 ∧
      address? (Hexadecimal.lowerPadded 8 maxAddress) = some maxAddress ∧
      address? ("0x" ++ Hexadecimal.lower maxAddress) = some maxAddress := by
  obtain ⟨hreads, -, hshown⟩ := address?_reads " 0X400 " 8 (le_refl maxAddress)
  have hspells : Spells ['4', '0', '0'] 0x400 :=
    ⟨by decide, [4, 0, 0], .cons (.inl rfl) (.cons (.inl rfl) (.cons (.inl rfl) .nil)), rfl⟩
  refine ⟨le_rfl, (hreads _).2 (.inl ?_), hshown⟩
  exact ⟨[' '], ['0', 'X'], ['4', '0', '0'], [' '], by decide +kernel, by simp [isBlank], by decide,
    hspells, by simp [isBlank], by decide⟩

/-- A sign gets through, also behind the mark of a hexadecimal number. -/
theorem not_address?_plain :
    address? "+1f" = some 0x1f ∧ address? "0x+1f" = some 0x1f ∧
      ¬ ∀ text v, address? text = some v ↔ Denotes plainMarks text v := by
  have hsigned : Denotes signedMarks "+1f" 0x1f :=
    ⟨[], ['+'], ['1', 'f'], [], by decide +kernel, by simp, by decide,
      ⟨by decide, [1, 15], .cons (.inl rfl) (.cons (.inl rfl) .nil), rfl⟩, by simp, by decide⟩
  refine ⟨by decide +kernel, by decide +kernel, fun hplain => ?_⟩
  exact not_denotes_plain hsigned ((hplain "+1f" 0x1f).1 (by decide +kernel))

end Text

end HexEditor
