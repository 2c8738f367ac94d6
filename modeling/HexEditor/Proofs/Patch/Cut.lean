import HexEditor.Proofs.Patch.Lookup

/-!
# Cutting patches at a range

What a write does is said here about lists of patches, without a store.  The part of a
patch below an address, and its part from an address on, are patches again (`below?`,
`beyond?`).  `Written` gives the three shapes that the patches can have after a write:

* the bytes went into a patch that encloses the range;
* the range was cut out, and the bytes made the patch that ends before them longer;
* the range was cut out, and the bytes became a patch of their own.

Each shape is laid out again (`Written.laid`), and the bytes of the list are those of the
write on its range and the old ones elsewhere (`Written.byteIn_eq`).
-/

namespace HexEditor

namespace Patch

/-- What the patch overwrites below `addr`, if it starts there. -/
def below? (p : Patch) (addr : Nat) : Option Patch :=
  if p.addr < addr then some { p with bytes := p.bytes.take (addr - p.addr) } else none

/-- What the patch overwrites from `limit` on, if it ends there. -/
def beyond? (p : Patch) (limit : Nat) : Option Patch :=
  if limit < p.stop then
    some { p with addr := max p.addr limit, bytes := p.bytes.drop (limit - p.addr) }
  else none

/-- The range from `first` up to, not including, `limit` lies in the patch. -/
def Encloses (p : Patch) (first limit : Nat) : Prop := p.addr ≤ first ∧ limit ≤ p.stop

instance (p : Patch) (first limit : Nat) : Decidable (p.Encloses first limit) :=
  inferInstanceAs (Decidable (_ ∧ _))

/-- The patch with some of its bytes replaced, from `addr` on. -/
def overwrite (p : Patch) (addr : Nat) (bytes : List UInt8) : Patch :=
  let before := addr - p.addr
  { p with bytes := p.bytes.take before ++ bytes ++ p.bytes.drop (before + bytes.length) }

variable {p q : Patch} {addr limit : Nat} {bytes : List UInt8}

/-! ## Single patches -/

@[simp] theorem stop_append (p : Patch) (bytes : List UInt8) :
    (p.append bytes).stop = p.stop + bytes.length := by
  simp [append, stop, size, Nat.add_assoc]

theorem byteAt?_append (p : Patch) (bytes : List UInt8) (a : Nat) :
    (p.append bytes).byteAt? a =
      if p.stop ≤ a then bytes[a - p.stop]? else p.byteAt? a := by
  have hleft : (p.append bytes).byteAt? a =
      if p.addr ≤ a then (p.bytes ++ bytes)[a - p.addr]? else none := rfl
  rw [hleft, byteAt?, stop, size]
  by_cases hle : p.addr ≤ a
  · rw [if_pos hle, if_pos hle, List.getElem?_append]
    by_cases hlt : a - p.addr < p.bytes.length
    · rw [if_pos hlt, if_neg (by omega)]
    · rw [if_neg hlt, if_pos (by omega)]
      congr 1
      omega
  · rw [if_neg hle, if_neg hle, if_neg (by omega)]

theorem addr_of_below? (h : p.below? addr = some q) : q.addr = p.addr := by
  unfold below? at h
  split at h
  · injection h with h
    rw [← h]
  · simp at h

theorem stop_of_below? (h : p.below? addr = some q) : q.stop = min addr p.stop := by
  unfold below? at h
  split at h
  · injection h with h
    subst h
    simp only [stop, size, List.length_take]
    omega
  · simp at h

theorem Proper.below? (hp : p.Proper) (h : p.below? addr = some q) : q.Proper := by
  have hstart := hp.addr_lt_stop
  have hstop := hp.stop_le
  have haddr := addr_of_below? h
  have hend := stop_of_below? h
  refine ⟨fun hnil => ?_, by omega⟩
  have hlt : p.addr < addr := by
    by_contra hge
    simp [Patch.below?, hge] at h
  have hsize : q.stop = q.addr := by simp [stop, size, hnil]
  omega

theorem below?_eq_self (hp : p.Proper) (h : p.stop ≤ addr) : p.below? addr = some p := by
  have hlt : p.addr < addr := hp.addr_lt_stop.trans_le h
  have htake : p.bytes.take (addr - p.addr) = p.bytes := by
    refine List.take_of_length_le ?_
    unfold stop size at h
    omega
  rw [Patch.below?, if_pos hlt, htake]

theorem below?_eq_none (h : addr ≤ p.addr) : p.below? addr = none :=
  if_neg h.not_gt

theorem byteAt?_below? (p : Patch) (addr a : Nat) :
    (p.below? addr).bind (·.byteAt? a) = if a < addr then p.byteAt? a else none := by
  unfold Patch.below?
  by_cases hstart : p.addr < addr
  · rw [if_pos hstart, Option.bind_some]
    simp only [byteAt?, List.getElem?_take]
    split_ifs <;> first | rfl | omega
  · rw [if_neg hstart, Option.bind_none]
    split_ifs with hlt
    · exact (if_neg (by omega)).symm
    · rfl

theorem addr_of_beyond? (h : p.beyond? limit = some q) : q.addr = max p.addr limit := by
  unfold beyond? at h
  split at h
  · injection h with h
    rw [← h]
  · simp at h

theorem stop_of_beyond? (h : p.beyond? limit = some q) : q.stop = p.stop := by
  unfold beyond? at h
  split at h
  · next hlt =>
      injection h with h
      subst h
      simp only [stop, size, List.length_drop] at hlt ⊢
      omega
  · simp at h

theorem Proper.beyond? (hp : p.Proper) (h : p.beyond? limit = some q) : q.Proper := by
  have hstart := hp.addr_lt_stop
  have haddr := addr_of_beyond? h
  have hend := stop_of_beyond? h
  refine ⟨fun hnil => ?_, hend ▸ hp.stop_le⟩
  have hlt : limit < p.stop := by
    by_contra hge
    simp [Patch.beyond?, hge] at h
  have hsize : q.stop = q.addr := by simp [stop, size, hnil]
  omega

theorem beyond?_eq_self (hp : p.Proper) (h : limit ≤ p.addr) : p.beyond? limit = some p := by
  rw [Patch.beyond?, if_pos (h.trans_lt hp.addr_lt_stop), Nat.sub_eq_zero_of_le h,
    List.drop_zero, Nat.max_eq_left h]

theorem beyond?_eq_none (h : p.stop ≤ limit) : p.beyond? limit = none :=
  if_neg h.not_gt

theorem byteAt?_beyond? (p : Patch) (limit a : Nat) :
    (p.beyond? limit).bind (·.byteAt? a) = if limit ≤ a then p.byteAt? a else none := by
  unfold Patch.beyond?
  by_cases hend : limit < p.stop
  · rw [if_pos hend, Option.bind_some]
    simp only [byteAt?, List.getElem?_drop]
    split_ifs
    · congr 1
      omega
    all_goals first | rfl | omega
  · rw [if_neg hend, Option.bind_none]
    split_ifs with hle
    · exact (byteAt?_eq_none_iff.2 fun hmem => hend (hle.trans_lt hmem.2)).symm
    · rfl

theorem Encloses.overwrite_stop (h : p.Encloses addr (addr + bytes.length)) :
    (p.overwrite addr bytes).stop = p.stop := by
  obtain ⟨hfirst, hlimit⟩ := h
  simp only [stop, size, overwrite, List.length_append, List.length_take,
    List.length_drop] at hlimit ⊢
  omega

theorem Encloses.byteAt?_overwrite (h : p.Encloses addr (addr + bytes.length)) (a : Nat) :
    (p.overwrite addr bytes).byteAt? a =
      if addr ≤ a ∧ a < addr + bytes.length then bytes[a - addr]? else p.byteAt? a := by
  obtain ⟨hfirst, hlimit⟩ := h
  unfold stop size at hlimit
  have hbefore : (p.bytes.take (addr - p.addr)).length = addr - p.addr := by
    rw [List.length_take]
    omega
  simp only [byteAt?, overwrite, List.append_assoc, List.getElem?_append, hbefore,
    List.getElem?_take, List.getElem?_drop]
  split_ifs
  all_goals first
    | rfl
    | omega
    | (congr 1; omega)

end Patch

/-! ## Lists of patches -/

variable {ps qs before after : List Patch} {p q : Patch} {addr limit : Nat}
  {bytes : List UInt8}

/-- Replacing every patch by a part of it, or by nothing, leaves the list laid out. -/
theorem Laid.filterMap (h : Laid ps) {f : Patch → Option Patch}
    (hf : ∀ p ∈ ps, ∀ q, f p = some q → q.Proper ∧ p.addr ≤ q.addr ∧ q.stop ≤ p.stop) :
    Laid (ps.filterMap f) := by
  constructor
  · intro q hq
    obtain ⟨p, hp, hpq⟩ := List.mem_filterMap.1 hq
    exact (hf p hp q hpq).1
  · refine List.pairwise_filterMap.2 (h.apart.imp_of_mem ?_)
    intro p p' hp hp' hle q hq q' hq'
    obtain ⟨-, -, hstop⟩ := hf p hp q hq
    obtain ⟨-, haddr, -⟩ := hf p' hp' q' hq'
    exact (hstop.trans hle).trans haddr

theorem Laid.below (h : Laid ps) (addr : Nat) : Laid (ps.filterMap (·.below? addr)) := by
  refine h.filterMap fun p hp q hq => ⟨(h.proper p hp).below? hq, ?_, ?_⟩
  · exact (Patch.addr_of_below? hq).ge
  · exact (Patch.stop_of_below? hq).trans_le (Nat.min_le_right _ _)

theorem Laid.beyond (h : Laid ps) (limit : Nat) : Laid (ps.filterMap (·.beyond? limit)) := by
  refine h.filterMap fun p hp q hq => ⟨(h.proper p hp).beyond? hq, ?_, ?_⟩
  · exact (Nat.le_max_left _ _).trans (Patch.addr_of_beyond? hq).ge
  · exact (Patch.stop_of_beyond? hq).le

theorem stop_le_of_mem_below (hq : q ∈ ps.filterMap (·.below? addr)) : q.stop ≤ addr := by
  obtain ⟨p, -, hpq⟩ := List.mem_filterMap.1 hq
  exact (Patch.stop_of_below? hpq).trans_le (Nat.min_le_left _ _)

theorem le_addr_of_mem_beyond (hq : q ∈ ps.filterMap (·.beyond? limit)) : limit ≤ q.addr := by
  obtain ⟨p, -, hpq⟩ := List.mem_filterMap.1 hq
  exact (Nat.le_max_right _ _).trans (Patch.addr_of_beyond? hpq).ge

theorem byteIn_filterMap (f : Patch → Option Patch) (ps : List Patch) (a : Nat) :
    byteIn (ps.filterMap f) a = ps.findSome? fun p => (f p).bind (·.byteAt? a) := by
  rw [byteIn, ← List.head?_filterMap, List.filterMap_filterMap, List.head?_filterMap]

theorem byteIn_below (ps : List Patch) (addr a : Nat) :
    byteIn (ps.filterMap (·.below? addr)) a = if a < addr then byteIn ps a else none := by
  rw [byteIn_filterMap]
  simp only [Patch.byteAt?_below?]
  split_ifs
  · rfl
  · simp

theorem byteIn_beyond (ps : List Patch) (limit a : Nat) :
    byteIn (ps.filterMap (·.beyond? limit)) a = if limit ≤ a then byteIn ps a else none := by
  rw [byteIn_filterMap]
  simp only [Patch.byteAt?_beyond?]
  split_ifs
  · rfl
  · simp

/-- A patch in the middle can shrink. -/
theorem Laid.replace (h : Laid (before ++ p :: after)) (hproper : q.Proper)
    (haddr : p.addr ≤ q.addr) (hstop : q.stop ≤ p.stop) : Laid (before ++ q :: after) := by
  obtain ⟨hbefore, hrest, hbetween⟩ := laid_append.1 h
  obtain ⟨-, hahead, hafter⟩ := laid_cons.1 hrest
  refine laid_append.2 ⟨hbefore, laid_cons.2 ⟨hproper, ?_, hafter⟩, ?_⟩
  · exact fun r hr => hstop.trans (hahead r hr)
  · intro r hr
    refine List.forall_mem_cons.2 ⟨?_, ?_⟩
    · exact (hbetween r hr p (List.mem_cons_self ..)).trans haddr
    · exact fun r' hr' => hbetween r hr r' (List.mem_cons_of_mem _ hr')

/-! ## Writing -/

/-- The patches `qs` are what is left of `ps` when `bytes` have been written at `addr`. -/
inductive Written (addr : Nat) (bytes : List UInt8) (ps : List Patch) : List Patch → Prop
  /-- A patch encloses the range and takes the bytes. -/
  | inPlace {before after : List Patch} {p : Patch} (hps : ps = before ++ p :: after)
      (hin : p.Encloses addr (addr + bytes.length)) :
      Written addr bytes ps (before ++ p.overwrite addr bytes :: after)
  /-- What is left below the range ends with a patch that touches it and takes the bytes. -/
  | extended {before : List Patch} {p : Patch}
      (hout : ∀ q ∈ ps, ¬ q.Encloses addr (addr + bytes.length))
      (hbelow : ps.filterMap (·.below? addr) = before ++ [p]) (htouch : p.stop = addr) :
      Written addr bytes ps
        (before ++ p.append bytes :: ps.filterMap (·.beyond? (addr + bytes.length)))
  /-- Nothing touches the range from below, and the bytes become a patch. -/
  | created (hout : ∀ q ∈ ps, ¬ q.Encloses addr (addr + bytes.length))
      (hfree : ∀ q ∈ ps.filterMap (·.below? addr), q.stop ≠ addr) :
      Written addr bytes ps
        (ps.filterMap (·.below? addr) ++
          { addr, bytes } :: ps.filterMap (·.beyond? (addr + bytes.length)))

theorem Written.laid (h : Written addr bytes ps qs) (hlaid : Laid ps) (hbytes : bytes ≠ [])
    (hfits : addr + bytes.length ≤ maxAddress) : Laid qs := by
  cases h with
  | @inPlace before after p hps hin =>
      subst hps
      have hp := hlaid.proper p (by simp)
      have hstop := hin.overwrite_stop
      refine hlaid.replace ⟨by simp [Patch.overwrite, hbytes], hstop ▸ hp.stop_le⟩ le_rfl hstop.le
  | @extended before p hout hbelow htouch =>
      -- the patch that ends at the range is the last of those below it
      have hlow := hlaid.below addr
      rw [hbelow] at hlow
      obtain ⟨hbefore, -, hbetween⟩ := laid_append.1 hlow
      refine laid_append.2 ⟨hbefore, laid_cons.2 ⟨⟨?_, ?_⟩, ?_, hlaid.beyond _⟩, ?_⟩
      · simp [Patch.append, hbytes]
      · rw [Patch.stop_append, htouch]
        exact hfits
      · intro r hr
        rw [Patch.stop_append, htouch]
        exact le_addr_of_mem_beyond hr
      · intro r hr
        have hle : r.stop ≤ p.addr := hbetween r hr p (List.mem_singleton_self p)
        refine List.forall_mem_cons.2 ⟨hle, fun r' hr' => ?_⟩
        have hrange : r.stop ≤ addr := stop_le_of_mem_below (by rw [hbelow]; simp [hr])
        exact hrange.trans ((Nat.le_add_right _ _).trans (le_addr_of_mem_beyond hr'))
  | created hout hfree =>
      refine laid_append.2 ⟨hlaid.below _, laid_cons.2 ⟨⟨hbytes, hfits⟩, ?_, hlaid.beyond _⟩, ?_⟩
      · exact fun r hr => le_addr_of_mem_beyond hr
      · intro r hr
        have hrange : r.stop ≤ addr := stop_le_of_mem_below hr
        refine List.forall_mem_cons.2 ⟨hrange, fun r' hr' => ?_⟩
        exact hrange.trans ((Nat.le_add_right _ _).trans (le_addr_of_mem_beyond hr'))

/-- On the range of the write stand its bytes, elsewhere what stood there before. -/
theorem Written.byteIn_eq (h : Written addr bytes ps qs) (hlaid : Laid ps) (a : Nat) :
    byteIn qs a =
      if addr ≤ a ∧ a < addr + bytes.length then bytes[a - addr]? else byteIn ps a := by
  -- the bytes between what is left below the range and what is left beyond it
  have hcut : ∀ b : Option UInt8, (b = if addr ≤ a ∧ a < addr + bytes.length then
      bytes[a - addr]? else none) →
      (byteIn (ps.filterMap (·.below? addr)) a).or
        (b.or (byteIn (ps.filterMap (·.beyond? (addr + bytes.length))) a)) =
      if addr ≤ a ∧ a < addr + bytes.length then bytes[a - addr]? else byteIn ps a := by
    rintro b rfl
    rw [byteIn_below, byteIn_beyond]
    by_cases hlow : a < addr
    · rw [if_pos hlow, if_neg (by omega), if_neg (by omega), if_neg (by omega)]
      simp
    · by_cases hhigh : addr + bytes.length ≤ a
      · rw [if_neg hlow, if_pos hhigh, if_neg (by omega), if_neg (by omega)]
        simp
      · rw [if_neg hlow, if_neg hhigh, if_pos (by omega), if_pos (by omega)]
        simp
  cases h with
  | @inPlace before after p hps hin =>
      subst hps
      rw [byteIn_append, byteIn_cons, byteIn_append, byteIn_cons, hin.byteAt?_overwrite]
      by_cases hrange : addr ≤ a ∧ a < addr + bytes.length
      · have hmem : a ∈ p := ⟨hin.1.trans hrange.1, hrange.2.trans_le hin.2⟩
        -- the patches before the one that takes the bytes end before it starts
        have hbefore : byteIn before a = none := by
          refine byteIn_eq_none_iff.2 fun q hq haq => ?_
          have hle := (laid_append.1 hlaid).2.2 q hq p (List.mem_cons_self ..)
          exact absurd haq.2 (hle.trans hmem.1).not_gt
        rw [if_pos hrange, if_pos hrange, hbefore, Option.none_or, List.getElem?_eq_getElem]
        · rfl
        · omega
      · rw [if_neg hrange, if_neg hrange]
  | @extended before p hout hbelow htouch =>
      have hp : byteIn [p] a = p.byteAt? a := by rw [byteIn_cons]; simp [byteIn]
      have hsplit : (p.append bytes).byteAt? a = (p.byteAt? a).or
          (if addr ≤ a ∧ a < addr + bytes.length then bytes[a - addr]? else none) := by
        rw [Patch.byteAt?_append, htouch]
        by_cases hle : addr ≤ a
        · have hnone : p.byteAt? a = none :=
            Patch.byteAt?_eq_none_iff.2 fun hmem => absurd hmem.2 (by omega)
          rw [if_pos hle, hnone, Option.none_or]
          split_ifs with hin
          · rfl
          · exact List.getElem?_eq_none (by omega)
        · rw [if_neg hle, if_neg (by omega), Option.or_none]
      rw [← hcut _ rfl, byteIn_append, byteIn_cons, hsplit, hbelow, byteIn_append, hp]
      simp only [Option.or_assoc]
  | created hout hfree =>
      rw [← hcut _ rfl, byteIn_append, byteIn_cons]
      congr 2
      simp only [Patch.byteAt?]
      split_ifs with h1 h2
      · rfl
      · exact List.getElem?_eq_none (by omega)
      all_goals first | rfl | omega

end HexEditor
