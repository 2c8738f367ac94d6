import HexEditor.Proofs.Patch.Request
import Mathlib.Data.Set.Card
import Mathlib.Order.Interval.Finset.Nat

/-!
# The store as a byte map

Seen through its reads, a store is a partial map from addresses to bytes, and the layout of
its patches cannot be told (`ReadsAs`).  On that map a request does what its name says
(`PatchRequest.update`): a write sets the addresses of its range, a revert forgets those of
the patches that it takes away, and everything else leaves the map alone.

The simulation follows the three ways in which a store responds to a request.  Only the
reshaping of a list says anything, and there each shape is a statement about `byteIn`.
-/

namespace HexEditor

/-- What a successful request to a store with the patches `ps` makes of the bytes. -/
def PatchRequest.update (ps : List Patch) :
    PatchRequest → (Nat → Option UInt8) → Nat → Option UInt8
  | .write addr bytes, m, a =>
    if addr ≤ a ∧ a < addr + bytes.length then bytes[a - addr]? else m a
  | .revert addr, m, a => if ∃ p ∈ ps, p.addr = addr ∧ a ∈ p then none else m a
  | .revertAll addrs, m, a => if ∃ p ∈ ps, p.addr ∈ addrs ∧ a ∈ p then none else m a
  | _, m, a => m a

/-- Every read of the store is answered with what the map has there, and the patches have
as many bytes as the map. -/
structure PatchStore.ReadsAs (s : PatchStore) (m : Nat → Option UInt8) : Prop where
  read_eq : ∀ a, s.read a = .ok (m a)
  encard_eq : {a | (m a).isSome}.encard = ((s.set.values.map Patch.size).sum : ℕ)

variable {ps qs before after : List Patch} {r : PatchRequest} {o : Option Patch} {a : Nat}

/-! ## How many bytes there are -/

theorem Patch.encard_eq_size (p : Patch) : {a | a ∈ p}.encard = (p.size : ℕ) := by
  have hrange : {a | a ∈ p} = (Finset.Ico p.addr p.stop : Set Nat) := by
    ext a
    simp only [Set.mem_ofPred_eq, Patch.mem_iff, Finset.coe_Ico, Set.mem_Ico]
  rw [hrange, Set.encard_coe_eq_coe_finsetCard, Nat.card_Ico, Patch.stop, Nat.add_sub_cancel_left]

/-- Patches without common addresses have as many bytes as all of them together. -/
theorem Laid.encard_byteIn (h : Laid ps) :
    {a | (byteIn ps a).isSome}.encard = ((ps.map Patch.size).sum : ℕ) := by
  induction ps with
  | nil => simp [byteIn]
  | cons p rest ih =>
      obtain ⟨-, hahead, hrest⟩ := laid_cons.1 h
      have hunion : {a | (byteIn (p :: rest) a).isSome} =
          {a | a ∈ p} ∪ {a | (byteIn rest a).isSome} := by
        ext a
        rw [Set.mem_union, Set.mem_ofPred_eq, Set.mem_ofPred_eq, Set.mem_ofPred_eq, byteIn_cons,
          Option.isSome_or, Bool.or_eq_true, Patch.byteAt?_isSome_iff]
      have hdisjoint : Disjoint {a | a ∈ p} {a | (byteIn rest a).isSome} := by
        refine Set.disjoint_left.2 fun a hap hrest => ?_
        refine Option.isSome_iff_ne_none.1 hrest (byteIn_eq_none_iff.2 fun q hq haq => ?_)
        exact absurd hap.2 ((hahead q hq).trans haq.1).not_gt
      rw [hunion, Set.encard_union_eq hdisjoint, ih hrest, p.encard_eq_size, List.map_cons,
        List.sum_cons]
      push_cast
      rfl

/-! ## What reshaping does to the bytes -/

/-- Cutting a patch in two cuts none of its bytes. -/
theorem byteIn_cut {p low high : Patch} {cut : Nat} (hlow : p.below? cut = some low)
    (hhigh : p.beyond? cut = some high) : byteIn [low, high] a = p.byteAt? a := by
  have hbelow := Patch.byteAt?_below? p cut a
  have hbeyond := Patch.byteAt?_beyond? p cut a
  rw [hlow, Option.bind_some] at hbelow
  rw [hhigh, Option.bind_some] at hbeyond
  rw [byteIn_cons, byteIn_cons, hbelow, hbeyond]
  by_cases ha : a < cut
  · rw [if_pos ha, if_neg ha.not_ge]
    simp [byteIn]
  · rw [if_neg ha, if_pos (not_lt.1 ha)]
    simp [byteIn]

/-- Without some of the patches, what they overwrote is gone and the rest is as before. -/
theorem Laid.byteIn_filter (h : Laid ps) (gone : Patch → Prop) [DecidablePred gone] :
    byteIn (ps.filter fun p => ¬gone p) a =
      if ∃ p ∈ ps, gone p ∧ a ∈ p then none else byteIn ps a := by
  have hkept : Laid (ps.filter fun p => ¬gone p) :=
    ⟨fun p hp => h.proper p (List.mem_of_mem_filter hp), h.apart.filter _⟩
  split_ifs with hgone
  · obtain ⟨p, hp, hpgone, hap⟩ := hgone
    refine byteIn_eq_none_iff.2 fun q hq haq => ?_
    obtain ⟨hq, hqkept⟩ := List.mem_filter.1 hq
    rw [h.eq_of_mem hp hq hap haq] at hpgone
    exact of_decide_eq_true hqkept hpgone
  · by_cases hin : ∃ p ∈ ps, a ∈ p
    · obtain ⟨p, hp, hap⟩ := hin
      have hstays : p ∈ ps.filter fun p => ¬gone p :=
        List.mem_filter.2 ⟨hp, decide_eq_true fun hpgone => hgone ⟨p, hp, hpgone, hap⟩⟩
      rw [hkept.byteIn_eq hstays hap, h.byteIn_eq hp hap]
    · have hout : ∀ p ∈ ps, a ∉ p := fun p hp hap => hin ⟨p, hp, hap⟩
      rw [byteIn_eq_none_iff.2 hout,
        byteIn_eq_none_iff.2 fun p hp => hout p (List.mem_of_mem_filter hp)]

/-- Without a patch in the middle, what it overwrote is gone. -/
theorem Laid.byteIn_remove {p : Patch} (h : Laid (before ++ p :: after)) :
    byteIn (before ++ after) a =
      if ∃ q ∈ before ++ p :: after, q.addr = p.addr ∧ a ∈ q then none
      else byteIn (before ++ p :: after) a := by
  obtain ⟨hbefore, hrest, hbetween⟩ := laid_append.1 h
  obtain ⟨hp, hahead, -⟩ := laid_cons.1 hrest
  have hkept : (before ++ p :: after).filter (fun q => ¬q.addr = p.addr) = before ++ after := by
    rw [List.filter_append, List.filter_cons_of_neg (by simp),
      List.filter_eq_self.2 fun q hq => ?_, List.filter_eq_self.2 fun q hq => ?_]
    · exact decide_eq_true (hp.addr_lt_stop.trans_le (hahead q hq)).ne'
    · have hlt := (hbefore.proper q hq).addr_lt_stop
      exact decide_eq_true (hlt.trans_le (hbetween q hq p (List.mem_cons_self ..))).ne
  rw [← hkept]
  exact h.byteIn_filter (·.addr = p.addr)

/-- Reshaped patches have the bytes that the request asks for. -/
theorem Reshaped.byteIn_eq (h : Reshaped ps r o qs) (hlaid : Laid ps) :
    byteIn qs = r.update ps (byteIn ps) := by
  funext a
  cases h with
  | written hbytes hfits h => exact h.byteIn_eq hlaid a
  | @split before after p low high cut hps hlow hhigh =>
      subst hps
      have hmiddle : byteIn ([low, high] ++ after) a = byteIn (p :: after) a := by
        rw [byteIn_append, byteIn_cut hlow hhigh, byteIn_cons]
      exact (byteIn_append ..).trans ((congrArg _ hmiddle).trans (byteIn_append ..).symm)
  | @merged _ before run after p hps htouch hne hr =>
      subst hps
      have hmiddle : byteIn (HexEditor.merged p run :: after) a =
          byteIn (p :: run ++ after) a := by
        rw [byteIn_append, byteIn_run htouch, byteIn_cons]
      -- only the two requests that merge name a run, and neither of them changes a byte
      have hsame : r.update (before ++ p :: (run ++ after)) = id := by
        cases r with
        | merge => rfl
        | mergeRun => rfl
        | _ => simp [PatchRequest.run?] at hr
      rw [hsame]
      exact (byteIn_append ..).trans ((congrArg _ hmiddle).trans (byteIn_append ..).symm)
  | reverted hps =>
      subst hps
      exact hlaid.byteIn_remove
  | revertedAll hne hfound => exact hlaid.byteIn_filter (·.addr ∈ _)
  | @commented before after p comment hps =>
      subst hps
      have hbytes : ∀ b, byteIn (before ++ { p with comment := b } :: after) a =
          byteIn (before ++ p :: after) a := fun b => by
        rw [byteIn_append, byteIn_append, byteIn_cons, byteIn_cons]
        rfl
      exact hbytes _

/-! ## The simulation -/

namespace PatchStore

variable {s : PatchStore} {reply : Reply (Option Patch)} {m : Nat → Option UInt8}

theorem readsAs_byteIn (h : s.set.Holds ps) (hlaid : Laid ps) : s.ReadsAs (byteIn ps) :=
  ⟨read_eq h hlaid, by rw [h.values_eq]; exact hlaid.encard_byteIn⟩

/-- A well-formed store reads as exactly one map. -/
theorem ReadsAs.eq_byteIn (hm : s.ReadsAs m) (h : s.set.Holds ps) (hlaid : Laid ps) :
    m = byteIn ps := by
  funext a
  have hread := hm.read_eq a
  rw [PatchStore.read_eq h hlaid] at hread
  exact (Except.ok.inj hread).symm

theorem update_of_idle (h : r.Idle) : r.update ps m = m := by
  funext a
  cases r with
  | write addr bytes =>
      have hbytes : bytes = [] := h
      subst hbytes
      refine if_neg fun hin => ?_
      simp only [List.length_nil] at hin
      omega
  | revertAll addrs =>
      have haddrs : addrs = [] := h
      subst haddrs
      exact if_neg (by simp)
  | mergeRun => rfl
  | _ => exact h.elim

/-- A reply leaves a store that reads as the map that the request makes of the old one, or
as the old one if it was refused. -/
theorem Responds.readsAs (hreply : Responds s ps r reply) (h : s.set.Holds ps)
    (hlaid : Laid ps) (hm : s.ReadsAs m) :
    (∀ o, reply.answer = .ok o → reply.store.ReadsAs (r.update ps m)) ∧
      ∀ e, reply.answer = .error e → reply.store.ReadsAs m := by
  cases hreply with
  | idle hidle =>
      rw [update_of_idle hidle]
      exact ⟨fun _ _ => hm, fun _ _ => hm⟩
  | refused => exact ⟨nofun, fun _ _ => hm⟩
  | reshaped hheld hreshaped =>
      refine ⟨fun _ _ => ?_, nofun⟩
      rw [hm.eq_byteIn h hlaid, ← hreshaped.byteIn_eq hlaid]
      exact readsAs_byteIn hheld (hreshaped.laid hlaid)

theorem readsAs_empty (changes : Broadcast PatchEvent) :
    PatchStore.ReadsAs ⟨∅, changes⟩ fun _ => none :=
  readsAs_byteIn PatchSet.holds_empty ⟨by simp, .nil⟩

/-- The store simulates a byte map.  The empty store reads as the empty map; after any
sequence of requests the store reads as some map, with as many bytes as the patches have;
and the next request changes that map as `PatchRequest.update` says, or, if it is refused,
not at all. -/
theorem requests_simulate_byteMap (changes : Broadcast PatchEvent)
    (requests : List PatchRequest) :
    PatchStore.ReadsAs ⟨∅, changes⟩ (fun _ => none) ∧
      ∃ s m, PatchStore.performAll ⟨∅, changes⟩ requests = .ok s ∧ s.ReadsAs m ∧
        ∀ r, ∃ reply, s.perform r = .ok reply ∧
          (∀ o, reply.answer = .ok o → reply.store.ReadsAs (r.update s.set.values m)) ∧
          ∀ e, reply.answer = .error e → reply.store.ReadsAs m := by
  obtain ⟨s, hrun, hs⟩ := performAll_eq_ok (s := ⟨∅, changes⟩) PatchSet.wellFormed_empty requests
  obtain ⟨hheld, hlaid⟩ := PatchSet.wellFormed_iff.1 hs
  have hreads := readsAs_byteIn hheld hlaid
  refine ⟨readsAs_empty changes, s, _, hrun, hreads, fun r => ?_⟩
  obtain ⟨reply, hperform, hreply, -⟩ := perform_eq_ok hs r
  exact ⟨reply, hperform, Responds.readsAs hreply hheld hlaid hreads⟩

end PatchStore

end HexEditor
