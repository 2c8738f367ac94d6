import HexEditor.Patch.Request
import HexEditor.Proofs.Patch.Edit
import HexEditor.Proofs.Patch.Write

/-!
# What the store answers to a request

On laid out patches every request is answered, in one of three ways (`perform_responds`):
it asks for nothing and nothing happens, it is refused and nothing happens, or the patches
are reshaped and the change is announced once.  `Reshaped` says for each request how.

What a single request keeps, a sequence of requests keeps: it always comes to an end, with
well-formed patches (`performAll_eq_ok`).
-/

namespace HexEditor

namespace PatchRequest

/-- The start addresses of the patches that the request merges. -/
def run? : PatchRequest → Option (List Nat)
  | .merge addr other => some [addr, other]
  | .mergeRun addrs => some addrs
  | _ => none

/-- The request succeeds without a change. -/
def Idle : PatchRequest → Prop
  | .write _ bytes => bytes = []
  | .mergeRun addrs => addrs.length ≤ 1
  | .revertAll addrs => addrs = []
  | _ => False

/-- The error says something about the request. -/
def Refused : PatchRequest → PatchError → Prop
  | .write addr bytes, e =>
    e = .addressOverflow addr bytes.length ∧ maxAddress < addr + bytes.length
  | .split addr cut, e => e = .notFound addr ∨ e = .invalidSplit addr cut
  | .merge addr other, e =>
    e = .notFound addr ∨ e = .notFound other ∨ e = .notAdjacent addr other
  | .mergeRun addrs, e =>
    (∃ a ∈ addrs, e = .notFound a) ∨ ∃ a b, [a, b] <:+: addrs ∧ e = .notAdjacent a b
  | .revert addr, e => e = .notFound addr
  | .revertAll addrs, e => ∃ a ∈ addrs, e = .notFound a
  | .setComment addr _, e => e = .notFound addr

end PatchRequest

/-- The patches `ps` have become the patches `qs`, and the answer to the request is `o`. -/
inductive Reshaped (ps : List Patch) : PatchRequest → Option Patch → List Patch → Prop
  | written {addr : Nat} {bytes : List UInt8} {qs : List Patch} (hbytes : bytes ≠ [])
      (hfits : addr + bytes.length ≤ maxAddress) (h : Written addr bytes ps qs) :
      Reshaped ps (.write addr bytes) none qs
  | split {before after : List Patch} {p low high : Patch} {cut : Nat}
      (hps : ps = before ++ p :: after) (hlow : p.below? cut = some low)
      (hhigh : p.beyond? cut = some high) :
      Reshaped ps (.split p.addr cut) none (before ++ low :: high :: after)
  | merged {r : PatchRequest} {before run after : List Patch} {p : Patch}
      (hps : ps = before ++ p :: (run ++ after)) (htouch : Touching (p :: run)) (hne : run ≠ [])
      (hr : r.run? = some ((p :: run).map Patch.addr)) :
      Reshaped ps r none (before ++ merged p run :: after)
  | reverted {before after : List Patch} {p : Patch} (hps : ps = before ++ p :: after) :
      Reshaped ps (.revert p.addr) (some p) (before ++ after)
  | revertedAll {addrs : List Nat} (hne : addrs ≠ [])
      (hfound : ∀ a ∈ addrs, ∃ p ∈ ps, p.addr = a) :
      Reshaped ps (.revertAll addrs) none (ps.filter fun p => p.addr ∉ addrs)
  | commented {before after : List Patch} {p : Patch} {comment : Option String}
      (hps : ps = before ++ p :: after) :
      Reshaped ps (.setComment p.addr comment) none
        (before ++ { p with comment := comment.filter (· ≠ "") } :: after)

/-- How a store with the patches `ps` replies to a request. -/
inductive Responds (s : PatchStore) (ps : List Patch) (r : PatchRequest) :
    PatchStore.Reply (Option Patch) → Prop
  | idle (h : r.Idle) : Responds s ps r ⟨.ok none, s⟩
  | refused {e : PatchError} (h : r.Refused e) : Responds s ps r (s.refuse e)
  | reshaped {t : PatchSet} {o : Option Patch} {qs : List Patch} (hheld : t.Holds qs)
      (h : Reshaped ps r o qs) : Responds s ps r ⟨.ok o, s.changedTo t⟩

variable {ps qs : List Patch} {r : PatchRequest} {o : Option Patch}

/-! ## What reshaping keeps -/

theorem Laid.mono_comment {before after : List Patch} {p : Patch} {comment : Option String}
    (h : Laid (before ++ p :: after)) : Laid (before ++ { p with comment } :: after) :=
  have hp := h.proper p (by simp)
  h.replace ⟨hp.nonempty, hp.stop_le⟩ le_rfl le_rfl

theorem Reshaped.laid (h : Reshaped ps r o qs) (hlaid : Laid ps) : Laid qs := by
  cases h with
  | written hbytes hfits h => exact h.laid hlaid hbytes hfits
  | @split before after p low high cut hps hlow hhigh =>
      subst hps
      obtain ⟨hbefore, hrest, hbetween⟩ := laid_append.1 hlaid
      obtain ⟨hp, hahead, hafter⟩ := laid_cons.1 hrest
      have hlowStop : low.stop = min cut p.stop := Patch.stop_of_below? hlow
      have hhighAddr : high.addr = max p.addr cut := Patch.addr_of_beyond? hhigh
      have hhighStop : high.stop = p.stop := Patch.stop_of_beyond? hhigh
      -- the two parts meet at the cut and reach no further than the patch did
      refine laid_append.2 ⟨hbefore, laid_cons.2 ⟨hp.below? hlow, ?_, laid_cons.2
        ⟨hp.beyond? hhigh, fun q hq => hhighStop ▸ hahead q hq, hafter⟩⟩, fun q hq => ?_⟩
      · refine List.forall_mem_cons.2 ⟨by omega, fun q hq => ?_⟩
        exact (hlowStop.trans_le (Nat.min_le_right _ _)).trans (hahead q hq)
      · have hle := hbetween q hq p (List.mem_cons_self ..)
        refine List.forall_mem_cons.2 ⟨?_, List.forall_mem_cons.2 ⟨by omega, fun q' hq' => ?_⟩⟩
        · exact hle.trans (Patch.addr_of_below? hlow).ge
        · exact hbetween q hq q' (List.mem_cons_of_mem _ hq')
  | @merged _ before run after p hps htouch hne hr =>
      subst hps
      obtain ⟨hbefore, hrest, hbetween⟩ := laid_append.1 hlaid
      obtain ⟨hp, hahead, hrest⟩ := laid_cons.1 hrest
      obtain ⟨hrun, hafter, hover⟩ := laid_append.1 hrest
      refine laid_append.2 ⟨hbefore, laid_cons.2 ⟨⟨?_, ?_⟩, fun q hq => ?_, hafter⟩, fun q hq => ?_⟩
      · rw [merged_bytes]
        simp [hp.nonempty]
      · exact merged_stop_le htouch (List.forall_mem_cons.2
          ⟨hp.stop_le, fun q hq => (hrun.proper q hq).stop_le⟩)
      · exact merged_stop_le htouch (List.forall_mem_cons.2
          ⟨hahead q (List.mem_append_right _ hq), fun q' hq' => hover q' hq' q hq⟩)
      · refine List.forall_mem_cons.2 ⟨?_, fun q' hq' => hbetween q hq q' (by simp [hq'])⟩
        rw [merged_addr]
        exact hbetween q hq p (List.mem_cons_self ..)
  | @reverted before after p hps =>
      subst hps
      obtain ⟨hbefore, hrest, hbetween⟩ := laid_append.1 hlaid
      exact laid_append.2 ⟨hbefore, (laid_cons.1 hrest).2.2,
        fun q hq q' hq' => hbetween q hq q' (List.mem_cons_of_mem _ hq')⟩
  | revertedAll hne hfound =>
      exact ⟨fun p hp => hlaid.proper p (List.mem_of_mem_filter hp), hlaid.apart.filter _⟩
  | commented hps =>
      subst hps
      exact hlaid.mono_comment

/-! ## What the replies say -/

section Replies

variable {s : PatchStore} {reply : PatchStore.Reply (Option Patch)}

theorem Responds.wellFormed (hreply : Responds s ps r reply)
    (h : s.set.Holds ps) (hlaid : Laid ps) : reply.store.set.WellFormed := by
  cases hreply with
  | idle => exact h.wellFormed hlaid
  | refused => exact h.wellFormed hlaid
  | reshaped hheld hreshaped => exact PatchSet.Holds.wellFormed hheld (hreshaped.laid hlaid)

/-- No request is answered with the complaint that the set is corrupt. -/
theorem Responds.answer_ne (hreply : Responds s ps r reply)
    (first last addr limit : Nat) : reply.answer ≠ .error (.overlapInvariant first last addr limit) := by
  cases hreply with
  | idle => exact nofun
  | reshaped => exact nofun
  | refused h =>
      rintro ⟨⟩
      cases r <;> simp [PatchRequest.Refused] at h

/-- A write of something that fits the address space succeeds. -/
theorem Responds.write_succeeds {addr : Nat} {bytes : List UInt8}
    (hreply : Responds s ps (.write addr bytes) reply) (hfits : addr + bytes.length ≤ maxAddress) :
    reply.answer = .ok none := by
  cases hreply with
  | idle => rfl
  | refused h => exact absurd hfits h.2.not_ge
  | reshaped _ h => cases h <;> rfl

end Replies

/-! ## Every request is answered -/

namespace PatchStore

variable {s : PatchStore}

theorem exists_of_firstMissing?_none (h : s.set.Holds ps) {addrs : List Nat}
    (hmissing : s.firstMissing? addrs = none) : ∀ a ∈ addrs, ∃ p ∈ ps, p.addr = a := by
  intro a ha
  have hheld : s.set.contains a = true := by simpa using List.find?_eq_none.1 hmissing a ha
  exact h.contains_iff.1 hheld

theorem firstApart?_total (h : s.set.Holds ps) (hlaid : Laid ps) {addrs : List Nat}
    (hfound : ∀ a ∈ addrs, ∃ p ∈ ps, p.addr = a) :
    s.firstApart? addrs = .ok none ∨
      ∃ a b, [a, b] <:+: addrs ∧ s.firstApart? addrs = .ok (some (a, b)) := by
  -- the pairs that are tried are those of the induction: each address with the next one
  induction addrs with
  | nil => exact .inl rfl
  | cons a rest ih =>
      cases rest with
      | nil => exact .inl rfl
      | cons b rest =>
          obtain ⟨p, hp, rfl⟩ := hfound a (List.mem_cons_self ..)
          rw [firstApart?_cons_cons h hlaid hp]
          split
          · refine (ih fun a ha => hfound a (List.mem_cons_of_mem _ ha)).imp_right ?_
            rintro ⟨c, d, hinfix, hapart⟩
            exact ⟨c, d, hinfix.trans (List.suffix_cons ..).isInfix, hapart⟩
          · exact .inr ⟨_, b, (List.prefix_append [_, b] rest).isInfix, rfl⟩

/-- Merging a list of start addresses does nothing, is refused, or merges a run. -/
theorem mergeRun_responds (h : s.set.Holds ps) (hlaid : Laid ps) (addrs : List Nat) :
    (addrs.length ≤ 1 ∧ s.mergeRun addrs = .ok ⟨.ok (), s⟩) ∨
      (∃ e, (PatchRequest.mergeRun addrs).Refused e ∧ s.mergeRun addrs = .ok (s.refuse e)) ∨
      ∃ (t : PatchSet) (before run after : List Patch) (p : Patch),
        ps = before ++ p :: (run ++ after) ∧ Touching (p :: run) ∧ run ≠ [] ∧
          (p :: run).map Patch.addr = addrs ∧
          s.mergeRun addrs = .ok ⟨.ok (), s.changedTo t⟩ ∧
          t.Holds (before ++ merged p run :: after) := by
  cases hmissing : s.firstMissing? addrs with
  | some a =>
      refine .inr (.inl ⟨.notFound a, .inl ⟨a, List.mem_of_find?_eq_some hmissing, rfl⟩, ?_⟩)
      unfold mergeRun
      rw [hmissing]
      rfl
  | none =>
      have hfound := exists_of_firstMissing?_none h hmissing
      rcases firstApart?_total h hlaid hfound with hnear | ⟨a, b, hinfix, hapart⟩
      -- with fewer than two addresses there is nothing to merge
      · rcases addrs with _ | ⟨a, _ | ⟨b, rest⟩⟩
        · exact .inl ⟨by simp, by unfold mergeRun; rw [hmissing]; rfl⟩
        · exact .inl ⟨by simp, by unfold mergeRun; rw [hmissing]; rfl⟩
        · obtain ⟨before, run, after, rfl, htouch, haddrs⟩ :=
            exists_run h hlaid (by simp) hfound hnear
          rcases run with _ | ⟨p, _ | ⟨q, run⟩⟩
          · simp at haddrs
          · simp at haddrs
          · obtain ⟨t, hmerge, hheld⟩ := mergeRun_eq h hlaid htouch (by simp)
            rw [haddrs] at hmerge
            exact .inr (.inr ⟨t, before, q :: run, after, p, rfl, htouch, by simp, haddrs, hmerge,
              hheld⟩)
      · refine .inr (.inl ⟨.notAdjacent a b, .inr ⟨a, b, hinfix, rfl⟩, ?_⟩)
        unfold mergeRun
        rw [hmissing]
        simp only [hapart, Checked.ok_bind, Checked.pure_eq_ok]

/-- Every request is answered. -/
theorem perform_responds (h : s.set.Holds ps) (hlaid : Laid ps) (r : PatchRequest) :
    ∃ reply, s.perform r = .ok reply ∧ Responds s ps r reply := by
  -- a patch that is found stands somewhere in the list
  have hplace : ∀ {addr p}, s.set.get? addr = some p →
      ∃ before after, ps = before ++ p :: after ∧ p.addr = addr := fun hget => by
    obtain ⟨hp, haddr⟩ := h.get?_eq_some_iff.1 hget
    obtain ⟨before, after, hps⟩ := List.append_of_mem hp
    exact ⟨before, after, hps, haddr⟩
  cases r with
  | write addr bytes =>
      by_cases hbytes : bytes = []
      · exact ⟨_, by rw [perform, write, hbytes]; rfl, .idle hbytes⟩
      · by_cases hfits : addr + bytes.length ≤ maxAddress
        · obtain ⟨t, qs, hwrite, hheld, hwritten⟩ := write_eq h hlaid hbytes hfits
          exact ⟨_, by rw [perform, hwrite]; rfl, .reshaped hheld (.written hbytes hfits hwritten)⟩
        · refine ⟨_, ?_, .refused (e := .addressOverflow addr bytes.length)
            ⟨rfl, not_le.1 hfits⟩⟩
          rw [perform, write, if_neg (by simpa using hbytes), if_pos (not_le.1 hfits)]
          rfl
  | split addr cut =>
      by_cases hcut : ∃ p ∈ ps, p.addr = addr ∧ p.addr < cut ∧ cut < p.stop
      · obtain ⟨p, hp, rfl, hlow, hhigh⟩ := hcut
        obtain ⟨before, after, rfl⟩ := List.append_of_mem hp
        obtain ⟨t, low, high, hsplit, hbelow, hbeyond, hheld⟩ := split_eq h hlaid hlow hhigh
        exact ⟨_, by rw [perform, hsplit]; rfl, .reshaped hheld (.split rfl hbelow hbeyond)⟩
      · have hout : ∀ p ∈ ps, p.addr = addr → ¬ (p.addr < cut ∧ cut < p.stop) :=
          fun p hp haddr hin => hcut ⟨p, hp, haddr, hin⟩
        rcases split_refused h hlaid hout with hsplit | hsplit
        · exact ⟨_, by rw [perform, hsplit]; rfl, .refused (e := .notFound addr) (.inl rfl)⟩
        · exact ⟨_, by rw [perform, hsplit]; rfl,
            .refused (e := .invalidSplit addr cut) (.inr rfl)⟩
  | merge addr other =>
      have hmerge : s.perform (.merge addr other) =
          (s.mergeRun [addr, other] >>= fun reply => .ok (reply.map fun _ => none)) := rfl
      rcases mergeRun_responds h hlaid [addr, other] with
        ⟨hshort, -⟩ | ⟨e, he, hrun⟩ | ⟨t, before, run, after, p, hps, htouch, hne, haddrs, hrun, hheld⟩
      · simp at hshort
      · refine ⟨_, by rw [hmerge, hrun]; rfl, .refused (e := e) ?_⟩
        simp only [PatchRequest.Refused, List.mem_cons, List.not_mem_nil, or_false] at he ⊢
        rcases he with ⟨a, rfl | rfl, rfl⟩ | ⟨a, b, hinfix, rfl⟩
        · exact .inl rfl
        · exact .inr (.inl rfl)
        -- of two addresses there is only one pair of neighbours
        · obtain ⟨rfl, rfl⟩ : a = addr ∧ b = other := by simpa using hinfix.eq_of_length rfl
          exact .inr (.inr rfl)
      · exact ⟨_, by rw [hmerge, hrun]; rfl,
          .reshaped hheld (.merged hps htouch hne (by rw [haddrs]; rfl))⟩
  | mergeRun addrs =>
      rcases mergeRun_responds h hlaid addrs with
        ⟨hshort, hrun⟩ | ⟨e, he, hrun⟩ | ⟨t, before, run, after, p, hps, htouch, hne, haddrs, hrun, hheld⟩
      · exact ⟨_, by rw [perform, hrun]; rfl, .idle hshort⟩
      · exact ⟨_, by rw [perform, hrun]; rfl, .refused he⟩
      · exact ⟨_, by rw [perform, hrun]; rfl,
          .reshaped hheld (.merged hps htouch hne (by rw [haddrs]; rfl))⟩
  | revert addr =>
      cases hget : s.set.get? addr with
      | none =>
          exact ⟨_, by rw [perform, revert, hget]; rfl, .refused (e := .notFound addr) rfl⟩
      | some p =>
          obtain ⟨before, after, rfl, rfl⟩ := hplace hget
          obtain ⟨t, hrevert, hheld⟩ := revert_eq h
          exact ⟨_, by rw [perform, hrevert]; rfl, .reshaped hheld (.reverted rfl)⟩
  | revertAll addrs =>
      by_cases hne : addrs = []
      · exact ⟨_, by rw [perform, hne]; rfl, .idle hne⟩
      cases hmissing : s.firstMissing? addrs with
      | some a =>
          exact ⟨_, by rw [perform, revertAll, hmissing]; rfl,
            .refused (e := .notFound a) ⟨a, List.mem_of_find?_eq_some hmissing, rfl⟩⟩
      | none =>
          have hfound := exists_of_firstMissing?_none h hmissing
          obtain ⟨t, hrevert, hheld⟩ := revertAll_eq h hne hfound
          exact ⟨_, by rw [perform, hrevert]; rfl, .reshaped hheld (.revertedAll hne hfound)⟩
  | setComment addr comment =>
      cases hget : s.set.get? addr with
      | none =>
          have hnone : s.set.contains addr = false := by rw [OrderedMap.contains, hget]; rfl
          exact ⟨_, by rw [perform, setComment, hnone]; rfl, .refused (e := .notFound addr) rfl⟩
      | some p =>
          obtain ⟨before, after, rfl, rfl⟩ := hplace hget
          obtain ⟨t, hcomment, hheld⟩ := setComment_eq h comment
          exact ⟨_, by rw [perform, hcomment]; rfl, .reshaped hheld (.commented rfl)⟩

/-! ## Sequences of requests -/

theorem performAll_cons (s : PatchStore) (r : PatchRequest) (rest : List PatchRequest) :
    s.performAll (r :: rest) = (s.perform r >>= fun reply => reply.store.performAll rest) := by
  rw [performAll, List.foldlM_cons]
  cases s.perform r <;> rfl

/-- A well-formed store answers every request, and is well-formed afterwards. -/
theorem perform_eq_ok (h : s.set.WellFormed) (r : PatchRequest) :
    ∃ reply, s.perform r = .ok reply ∧ Responds s s.set.values r reply ∧
      reply.store.set.WellFormed := by
  obtain ⟨hheld, hlaid⟩ := PatchSet.wellFormed_iff.1 h
  obtain ⟨reply, hperform, hreply⟩ := perform_responds hheld hlaid r
  exact ⟨reply, hperform, hreply, hreply.wellFormed hheld hlaid⟩

/-- A well-formed store goes through every sequence of requests, and is well-formed
afterwards. -/
theorem performAll_eq_ok (h : s.set.WellFormed) (requests : List PatchRequest) :
    ∃ t, s.performAll requests = .ok t ∧ t.set.WellFormed := by
  induction requests generalizing s with
  | nil => exact ⟨s, rfl, h⟩
  | cons r rest ih =>
      obtain ⟨reply, hperform, -, hreply⟩ := perform_eq_ok h r
      obtain ⟨t, hrest, ht⟩ := ih hreply
      exact ⟨t, by rw [performAll_cons, hperform]; exact hrest, ht⟩

/-- From the empty store every sequence of requests ends in a well-formed store.  There
every further request is answered as well, the set is never found corrupt, and a write that
fits the address space succeeds. -/
theorem requests_keep_wellFormed (changes : Broadcast PatchEvent)
    (requests : List PatchRequest) :
    ∃ s, PatchStore.performAll ⟨∅, changes⟩ requests = .ok s ∧ s.set.WellFormed ∧
      ∀ r, ∃ reply, s.perform r = .ok reply ∧ reply.store.set.WellFormed ∧
        (∀ first last addr limit,
          reply.answer ≠ .error (.overlapInvariant first last addr limit)) ∧
        ∀ addr bytes, r = .write addr bytes → bytes ≠ [] → addr + bytes.length ≤ maxAddress →
          reply.answer = .ok none := by
  obtain ⟨s, hrun, hs⟩ := performAll_eq_ok (s := ⟨∅, changes⟩) PatchSet.wellFormed_empty requests
  refine ⟨s, hrun, hs, fun r => ?_⟩
  obtain ⟨reply, hperform, hreply, hwell⟩ := perform_eq_ok hs r
  refine ⟨reply, hperform, hwell, hreply.answer_ne, ?_⟩
  rintro addr bytes rfl - hfits
  exact hreply.write_succeeds hfits

end PatchStore

end HexEditor
