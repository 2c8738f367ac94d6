import HexEditor.Memory.Strings
import HexEditor.Proofs.Memory.Image

/-!
# The strings of an image

The scan for strings walks once through the bytes of a segment, and remembers no more than how many
of the last bytes were printable.  `Pending` says what that number stands for: a run that begins
where no printable byte stands before it, and that may still go on.  From it follows by induction
that the scan finds the maximal runs of printable bytes and nothing else (`mem_printableRuns_iff`).

The strings of all segments are kept under their start addresses, and the one highlighted around an
address is looked up under the greatest start at or below it.  That finds the string with the
address, because no two strings share one: neither do two maximal runs of a segment
(`PrintableRun.Maximal.eq_of_common`) nor two segments, so that no other string starts between the
start of a string and its end.
-/

namespace HexEditor

/-! ## Runs -/

/-- A printable byte stands at the position. -/
def PrintableAt (bytes : List UInt8) (i : Nat) : Prop :=
  ∃ b, bytes[i]? = some b ∧ 0x20 ≤ b ∧ b ≤ 0x7E

/-- All bytes of the run are printable, and no printable byte stands right before it or right
behind it. -/
structure PrintableRun.Maximal (bytes : List UInt8) (run : PrintableRun) : Prop where
  size_pos : 0 < run.size
  printable : ∀ i, run.offset ≤ i → i < run.offset + run.size → PrintableAt bytes i
  left : ∀ i, i + 1 = run.offset → ¬ PrintableAt bytes i
  right : ¬ PrintableAt bytes (run.offset + run.size)

variable {bytes rest : List UInt8} {offset before i : Nat} {run other : PrintableRun}

theorem printableAt_iff : PrintableAt bytes i ↔ ∃ b, bytes[i]? = some b ∧ isPrintable b = true := by
  simp [PrintableAt, isPrintable]

theorem PrintableAt.lt_length (h : PrintableAt bytes i) : i < bytes.length := by
  obtain ⟨b, hb, -⟩ := h
  exact (List.getElem?_eq_some_iff.1 hb).1

namespace PrintableRun.Maximal

/-- A run lies within the bytes. -/
theorem stop_le (h : run.Maximal bytes) : run.offset + run.size ≤ bytes.length := by
  have hpos := h.size_pos
  have hlast := (h.printable (run.offset + run.size - 1) (by omega) (by omega)).lt_length
  omega

/-- Of two runs with a common position, neither begins after the other, or ends before it. -/
theorem le_of_common (h : run.Maximal bytes) (hother : other.Maximal bytes)
    (hi : run.offset ≤ i ∧ i < run.offset + run.size)
    (hi' : other.offset ≤ i ∧ i < other.offset + other.size) :
    run.offset ≤ other.offset ∧ other.offset + other.size ≤ run.offset + run.size := by
  refine ⟨not_lt.1 fun hlt => ?_, not_lt.1 fun hlt => ?_⟩
  · exact h.left (run.offset - 1) (by omega) (hother.printable _ (by omega) (by omega))
  · exact h.right (hother.printable _ (by omega) hlt)

/-- Two runs with a common position are the same. -/
theorem eq_of_common (h : run.Maximal bytes) (hother : other.Maximal bytes)
    (hi : run.offset ≤ i ∧ i < run.offset + run.size)
    (hi' : other.offset ≤ i ∧ i < other.offset + other.size) : run = other := by
  obtain ⟨hfirst, hstop⟩ := h.le_of_common hother hi hi'
  obtain ⟨hfirst', hstop'⟩ := hother.le_of_common h hi' hi
  have hoffset : run.offset = other.offset := by omega
  have hsize : run.size = other.size := by omega
  cases run
  cases other
  simp_all

end PrintableRun.Maximal

/-! ## The scan -/

/-- Before `offset` the bytes end in a run of `before` printable ones, which begins where no
printable byte stands before it. -/
structure Pending (bytes : List UInt8) (offset before : Nat) : Prop where
  before_le : before ≤ offset
  printable : ∀ i, offset - before ≤ i → i < offset → PrintableAt bytes i
  left : ∀ i, i + 1 = offset - before → ¬ PrintableAt bytes i

namespace Pending

theorem start (bytes : List UInt8) : Pending bytes 0 0 := ⟨le_rfl, by simp, by simp⟩

/-- A printable byte makes the run longer. -/
theorem longer (h : Pending bytes offset before) (hmore : PrintableAt bytes offset) :
    Pending bytes (offset + 1) (before + 1) := by
  have hsame : offset + 1 - (before + 1) = offset - before := by omega
  refine ⟨Nat.succ_le_succ h.before_le, fun i hlow hhigh => ?_, hsame ▸ h.left⟩
  rcases Nat.lt_succ_iff_lt_or_eq.1 hhigh with hlt | rfl
  · exact h.printable i (hsame ▸ hlow) hlt
  · exact hmore

/-- Any other byte ends it, and nothing is pending behind that. -/
theorem ended (hstop : ¬ PrintableAt bytes offset) : Pending bytes (offset + 1) 0 := by
  refine ⟨Nat.zero_le _, fun i hlow hhigh => by omega, fun i hi => ?_⟩
  obtain rfl : i = offset := by omega
  exact hstop

/-- The maximal run that ends at the byte which ends the pending one is that one. -/
theorem maximal_iff (h : Pending bytes offset before) (hstop : ¬ PrintableAt bytes offset) :
    run.Maximal bytes ∧ run.offset + run.size = offset ↔
      before ≠ 0 ∧ run = ⟨offset - before, before⟩ := by
  have hle := h.before_le
  constructor
  · rintro ⟨hrun, hend⟩
    have hpos := hrun.size_pos
    have hfirst : offset - before ≤ run.offset := by
      refine not_lt.1 fun hlt => h.left (offset - before - 1) (by omega) ?_
      exact hrun.printable _ (by omega) (by omega)
    have hlast : run.offset ≤ offset - before := by
      refine not_lt.1 fun hlt => hrun.left (run.offset - 1) (by omega) ?_
      exact h.printable _ (by omega) (by omega)
    obtain ⟨first, size⟩ := run
    dsimp only at *
    refine ⟨by omega, ?_⟩
    congr 1 <;> omega
  · rintro ⟨hne, rfl⟩
    have hend : offset - before + before = offset := by omega
    exact ⟨⟨Nat.pos_of_ne_zero hne, fun i hlow hhigh => h.printable i hlow (hend ▸ hhigh), h.left,
      hend.symm ▸ hstop⟩, hend⟩

end Pending

/-- The rest of the scan finds the maximal runs that end at the position it has come to, or behind
it. -/
theorem mem_printableRunsFrom_iff (h : Pending bytes offset before)
    (hrest : bytes.drop offset = rest) :
    run ∈ printableRunsFrom offset before rest ↔
      run.Maximal bytes ∧ offset ≤ run.offset + run.size := by
  induction rest generalizing offset before with
  | nil =>
      have hlength : bytes.length ≤ offset := List.drop_eq_nil_iff.1 hrest
      have hstop : ¬ PrintableAt bytes offset := fun hat => hlength.not_gt hat.lt_length
      have hhere : run.Maximal bytes ∧ offset ≤ run.offset + run.size ↔
          run.Maximal bytes ∧ run.offset + run.size = offset :=
        and_congr_right fun hrun => ⟨(hrun.stop_le.trans hlength).antisymm, fun heq => heq.ge⟩
      rw [hhere, h.maximal_iff hstop]
      unfold printableRunsFrom
      split <;> simp_all
  | cons b rest ih =>
      have hb : bytes[offset]? = some b := by
        rw [← List.head?_drop, hrest, List.head?_cons]
      have hdrop : bytes.drop (offset + 1) = rest := by
        rw [← List.tail_drop, hrest, List.tail_cons]
      have hat : PrintableAt bytes offset ↔ isPrintable b = true := by
        rw [printableAt_iff, hb]
        simp
      -- a run that ends here, or one that ends behind this byte
      have hsplit : run.Maximal bytes ∧ offset ≤ run.offset + run.size ↔
          run.Maximal bytes ∧ run.offset + run.size = offset ∨
            run.Maximal bytes ∧ offset + 1 ≤ run.offset + run.size := by
        rw [← and_or_left, le_iff_eq_or_lt, Nat.succ_le_iff, eq_comm]
      rw [hsplit]
      unfold printableRunsFrom
      by_cases hprintable : isPrintable b = true
      · have hnone : ¬ (run.Maximal bytes ∧ run.offset + run.size = offset) :=
          fun hrun => hrun.1.right (hrun.2 ▸ hat.2 hprintable)
        rw [if_pos hprintable, or_iff_right hnone]
        exact ih (h.longer (hat.2 hprintable)) hdrop
      · have hstop := hat.not.2 hprintable
        have hbehind := ih (.ended hstop) hdrop
        rw [if_neg hprintable, h.maximal_iff hstop]
        split
        · next hzero => rw [hbehind, or_iff_right fun hrun => hrun.1 hzero]
        · next hne => rw [List.mem_cons, hbehind, and_iff_right hne]

/-- The scan finds the maximal runs of printable bytes. -/
theorem mem_printableRuns_iff : run ∈ printableRuns bytes ↔ run.Maximal bytes := by
  rw [printableRuns, mem_printableRunsFrom_iff (.start bytes) (List.drop_zero ..)]
  simp

/-! ## Looking a string up -/

namespace ItemMap

/-- Items that start at different addresses are all kept, each under its start. -/
theorem mem_entries_foldl_add {items : List Item} {m : ItemMap} {e : Nat × Item}
    (hstarts : ∀ i ∈ items, ∀ j ∈ items, i.addr = j.addr → i = j) :
    e ∈ (items.foldl add m).entries ↔
      (∃ i ∈ items, e = (i.addr, i)) ∨ e ∈ m.entries ∧ ∀ i ∈ items, i.addr ≠ e.1 := by
  induction items generalizing m with
  | nil => simp
  | cons item rest ih =>
      have hrest : ∀ i ∈ rest, ∀ j ∈ rest, i.addr = j.addr → i = j := fun i hi j hj =>
        hstarts i (List.mem_cons_of_mem _ hi) j (List.mem_cons_of_mem _ hj)
      rw [List.foldl_cons, ih hrest, add, OrderedMap.mem_entries_insert]
      simp only [List.mem_cons, exists_eq_or_imp, forall_eq_or_imp]
      constructor
      · rintro (h | ⟨rfl | ⟨he, hne⟩, hfree⟩)
        · exact .inl (.inr h)
        · exact .inl (.inl rfl)
        · exact .inr ⟨he, hne.symm, hfree⟩
      · rintro ((rfl | h) | ⟨he, hne, hfree⟩)
        · -- an item behind it that starts where it does is the same one
          by_cases hlater : ∃ i ∈ rest, i.addr = item.addr
          · obtain ⟨i, hi, haddr⟩ := hlater
            obtain rfl := hstarts i (List.mem_cons_of_mem _ hi) item List.mem_cons_self haddr
            exact .inl ⟨i, hi, rfl⟩
          · exact .inr ⟨.inl rfl, fun i hi haddr => hlater ⟨i, hi, haddr⟩⟩
        · exact .inl h
        · exact .inr ⟨.inr ⟨he, hne.symm⟩, hfree⟩

theorem mem_entries_ofList {items : List Item} {e : Nat × Item}
    (hstarts : ∀ i ∈ items, ∀ j ∈ items, i.addr = j.addr → i = j) :
    e ∈ (ofList items).entries ↔ ∃ i ∈ items, e = (i.addr, i) := by
  rw [ofList, mem_entries_foldl_add hstarts, or_iff_left]
  exact fun h => absurd h.1 List.not_mem_nil

end ItemMap

namespace Image

variable {m : Image} {least start size start' size' a : Nat}

/-- From `start` on there are `size` bytes that are a maximal run of printable bytes of one
segment, and not too few for a string. -/
def IsString (m : Image) (least start size : Nat) : Prop :=
  ∃ s ∈ m.segments.entries, ∃ run : PrintableRun, run.Maximal s.2 ∧ least ≤ run.size ∧
    start = s.1 + run.offset ∧ size = run.size

theorem IsString.size_pos (h : m.IsString least start size) : 0 < size := by
  obtain ⟨s, -, run, hrun, -, -, rfl⟩ := h
  exact hrun.size_pos

/-- A string lies in a segment. -/
theorem IsString.exists_segment (h : m.IsString least start size) :
    ∃ s ∈ m.segments.entries, s.1 ≤ start ∧ start + size ≤ s.1 + s.2.length := by
  obtain ⟨s, hs, run, hrun, -, rfl, rfl⟩ := h
  have hstop := hrun.stop_le
  exact ⟨s, hs, by omega, by omega⟩

/-- Two strings that share an address are the same. -/
theorem IsString.eq_of_common (hapart : m.Apart) (h : m.IsString least start size)
    (h' : m.IsString least start' size') (ha : start ≤ a ∧ a < start + size)
    (ha' : start' ≤ a ∧ a < start' + size') : start = start' ∧ size = size' := by
  obtain ⟨s, hs, run, hrun, -, rfl, rfl⟩ := h
  obtain ⟨t, ht, other, hother, -, rfl, rfl⟩ := h'
  have hstop := hrun.stop_le
  have hstop' := hother.stop_le
  obtain rfl : s = t := hapart s hs t ht a (by omega) (by omega) (by omega) (by omega)
  obtain rfl := hrun.eq_of_common hother (i := a - s.1) (by omega) (by omega)
  exact ⟨rfl, rfl⟩

/-- The strings of the segments, as items. -/
def stringItems (m : Image) (least : Nat) : List Item :=
  m.segments.entries.flatMap fun s =>
    ((printableRuns s.2).filter (least ≤ ·.size)).map fun run =>
      .data (s.1 + run.offset) run.size .string

theorem mem_stringItems_iff {item : Item} : item ∈ m.stringItems least ↔
    ∃ start size, m.IsString least start size ∧ item = .data start size .string := by
  simp only [stringItems, List.mem_flatMap, List.mem_map, List.mem_filter, decide_eq_true_eq,
    mem_printableRuns_iff]
  constructor
  · rintro ⟨s, hs, run, ⟨hrun, hleast⟩, rfl⟩
    exact ⟨_, _, ⟨s, hs, run, hrun, hleast, rfl, rfl⟩, rfl⟩
  · rintro ⟨_, _, ⟨s, hs, run, hrun, hleast, rfl, rfl⟩, rfl⟩
    exact ⟨s, hs, run, ⟨hrun, hleast⟩, rfl⟩

/-- Segments that end in the address space can be searched. -/
theorem strings_eq (hfits : ∀ s ∈ m.segments.entries, s.1 + s.2.length ≤ maxAddress)
    (least : Nat) : m.strings least = .ok (.ofList (m.stringItems least)) := by
  have hsegment : ∀ s ∈ m.segments.entries, segmentStrings least s.1 s.2 =
      .ok (((printableRuns s.2).filter (least ≤ ·.size)).map fun run =>
        .data (s.1 + run.offset) run.size .string) := by
    intro s hs
    refine Checked.mapM_eq_ok fun run hrun => ?_
    have hfit := hfits s hs
    have hstop := (mem_printableRuns_iff.1 (List.mem_of_mem_filter hrun)).stop_le
    rw [checkedAdd_of_le (by omega)]
    rfl
  rw [strings, Checked.mapM_eq_ok hsegment, stringItems, List.flatMap_def]
  rfl

/-- The entries of the strings. -/
theorem mem_entries_stringItems_iff (hapart : m.Apart) {e : Nat × Item} :
    e ∈ (ItemMap.ofList (m.stringItems least)).entries ↔
      ∃ start size, m.IsString least start size ∧ e = (start, .data start size .string) := by
  rw [ItemMap.mem_entries_ofList]
  · constructor
    · rintro ⟨i, hi, rfl⟩
      obtain ⟨start, size, hstring, rfl⟩ := mem_stringItems_iff.1 hi
      exact ⟨start, size, hstring, rfl⟩
    · rintro ⟨start, size, hstring, rfl⟩
      exact ⟨_, mem_stringItems_iff.2 ⟨start, size, hstring, rfl⟩, rfl⟩
  · intro i hi j hj haddr
    obtain ⟨start, size, hstring, rfl⟩ := mem_stringItems_iff.1 hi
    obtain ⟨start', size', hstring', rfl⟩ := mem_stringItems_iff.1 hj
    obtain rfl : start = start' := haddr
    have hpos := hstring.size_pos
    have hpos' := hstring'.size_pos
    obtain ⟨-, rfl⟩ := hstring.eq_of_common hapart hstring' (a := start) (by omega) (by omega)
    rfl

/-- The item looked up for an address is the string with the address, if there is one. -/
theorem floor?_stringItems (hapart : m.Apart) (h : m.IsString least start size)
    (ha : start ≤ a ∧ a < start + size) :
    (ItemMap.ofList (m.stringItems least)).floor? a = some (start, .data start size .string) := by
  refine OrderedMap.floor?_eq_some_iff.2
    ⟨(mem_entries_stringItems_iff hapart).2 ⟨start, size, h, rfl⟩, ha.1, fun f hf hle => ?_⟩
  obtain ⟨start', size', h', rfl⟩ := (mem_entries_stringItems_iff hapart).1 hf
  -- a string that started behind this one, at or before the address, would start within it
  refine not_lt.1 fun hlt => hlt.ne ?_
  dsimp only at hlt hle
  have hpos := h'.size_pos
  exact (h.eq_of_common hapart h' (a := start') (by omega) (by omega)).1

/-- Around an address of a string, the string is highlighted as one region. -/
theorem highlights_of_isString (hapart : m.Apart)
    (hfits : ∀ s ∈ m.segments.entries, s.1 + s.2.length ≤ maxAddress)
    (h : m.IsString least start size) (ha : start ≤ a ∧ a < start + size) :
    ∃ r, (ItemMap.ofList (m.stringItems least)).highlights a = [r] ∧ r.category = .string ∧
      r.kind = .plain ∧ r.active = false ∧ r.addr = start ∧ r.size = size := by
  obtain ⟨s, hs, -, hstop⟩ := h.exists_segment
  have hfit : start + size ≤ maxAddress := hstop.trans (hfits s hs)
  have hbehind : ¬ clampedAdd start size ≤ a := by
    rw [clampedAdd, Nat.min_eq_left hfit]
    exact ha.2.not_ge
  have hpos := h.size_pos
  have hrange : 0 < size ∧ start + (size - 1) ≤ maxAddress := ⟨hpos, by omega⟩
  let r : Region :=
    { category := .string, addr := start, size, size_pos := hrange.1, last_le := hrange.2 }
  refine ⟨r, ?_, rfl, rfl, rfl, rfl, rfl⟩
  unfold ItemMap.highlights
  rw [floor?_stringItems hapart h ha]
  have hregion : Region.plain? .string start size = some r := dif_pos hrange
  exact (if_neg hbehind).trans (congrArg Option.toList hregion)

/-- Around any other address nothing is highlighted. -/
theorem highlights_of_no_string (hapart : m.Apart)
    (hout : ∀ start size, m.IsString least start size → ¬(start ≤ a ∧ a < start + size)) :
    (ItemMap.ofList (m.stringItems least)).highlights a = [] := by
  unfold ItemMap.highlights
  cases hfloor : (ItemMap.ofList (m.stringItems least)).floor? a with
  | none => rfl
  | some e =>
      obtain ⟨hmem, hle, -⟩ := OrderedMap.floor?_eq_some_iff.1 hfloor
      obtain ⟨start, size, h, rfl⟩ := (mem_entries_stringItems_iff hapart).1 hmem
      have hend : clampedAdd start size ≤ a :=
        (Nat.min_le_left ..).trans (not_lt.1 fun hlt => hout start size h ⟨hle, hlt⟩)
      exact if_pos hend

/-- What is highlighted around an address is the string with the address, as one region; around an
address without a string it is nothing.  No region crosses from a segment into another one. -/
theorem strings_highlights (hapart : m.Apart)
    (hfits : ∀ s ∈ m.segments.entries, s.1 + s.2.length ≤ maxAddress) (least : Nat) :
    ∃ items, m.strings least = .ok items ∧ ∀ a,
      (∀ start size, m.IsString least start size → start ≤ a ∧ a < start + size →
        ∃ r, items.highlights a = [r] ∧ r.category = .string ∧ r.kind = .plain ∧
          r.active = false ∧ r.addr = start ∧ r.size = size) ∧
      ((∀ start size, m.IsString least start size → ¬(start ≤ a ∧ a < start + size)) →
        items.highlights a = []) ∧
      ∀ r ∈ items.highlights a, ∃ s ∈ m.segments.entries,
        s.1 ≤ r.addr ∧ r.addr + r.size ≤ s.1 + s.2.length := by
  refine ⟨_, strings_eq hfits least, fun a =>
    ⟨fun start size h ha => highlights_of_isString hapart hfits h ha,
      highlights_of_no_string hapart, fun r hr => ?_⟩⟩
  by_cases hin : ∃ start size, m.IsString least start size ∧ (start ≤ a ∧ a < start + size)
  · obtain ⟨start, size, h, ha⟩ := hin
    obtain ⟨r', heq, -, -, -, haddr, hsize⟩ := highlights_of_isString hapart hfits h ha
    obtain rfl := List.mem_singleton.1 (heq ▸ hr)
    rw [haddr, hsize]
    exact h.exists_segment
  · rw [highlights_of_no_string hapart fun start size h ha => hin ⟨start, size, h, ha⟩] at hr
    exact absurd hr List.not_mem_nil

/-- Two segments side by side, of which the second goes on with printable bytes where the first one
ends with some: those are two strings.  A printable byte on its own is not highlighted. -/
theorem strings_highlights_adjacent :
    let m := ofSegments [(8, [0, 0x41, 0x42]), (11, [0x43, 0x44, 0, 0x45])]
    ∃ items, m.strings 2 = .ok items ∧
      (∃ r, items.highlights 10 = [r] ∧ r.addr = 9 ∧ r.size = 2) ∧
      (∃ r, items.highlights 11 = [r] ∧ r.addr = 11 ∧ r.size = 2) ∧
      items.highlights 14 = [] := by
  intro m
  have hproper : m.Proper := by decide
  obtain ⟨items, hitems, hall⟩ := strings_highlights hproper.apart (by decide) 2
  have hstring : ∀ (s : Nat × List UInt8) (run : PrintableRun), s ∈ m.segments.entries →
      run ∈ printableRuns s.2 → 2 ≤ run.size → m.IsString 2 (s.1 + run.offset) run.size :=
    fun s run hs hrun hleast => ⟨s, hs, run, mem_printableRuns_iff.1 hrun, hleast, rfl, rfl⟩
  have hfirst : m.IsString 2 9 2 :=
    hstring (8, [0, 0x41, 0x42]) ⟨1, 2⟩ (by decide) (by decide) le_rfl
  have hsecond : m.IsString 2 11 2 :=
    hstring (11, [0x43, 0x44, 0, 0x45]) ⟨0, 2⟩ (by decide) (by decide) le_rfl
  have hlone : ∀ item ∈ m.stringItems 2, ¬(item.addr ≤ 14 ∧ 14 < item.addr + item.size) := by
    decide
  obtain ⟨r, hr, -, -, -, haddr, hsize⟩ := (hall 10).1 9 2 hfirst (by decide)
  obtain ⟨r', hr', -, -, -, haddr', hsize'⟩ := (hall 11).1 11 2 hsecond (by decide)
  refine ⟨items, hitems, ⟨r, hr, haddr, hsize⟩, ⟨r', hr', haddr', hsize'⟩,
    (hall 14).2.1 fun start size h => ?_⟩
  exact hlone _ (mem_stringItems_iff.2 ⟨start, size, h, rfl⟩)

end Image

end HexEditor
