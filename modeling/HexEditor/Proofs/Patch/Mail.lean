import HexEditor.Proofs.Broadcast
import HexEditor.Proofs.Patch.Request

/-!
# What the store tells its subscribers

Whoever remembers the patches may go on doing so until mail arrives: `Tells` says that the set
is as it was, or that the subscriber has been told.  A store tells of every request that it
carries out, since it announces exactly the requests that reshape the set.
-/

namespace HexEditor.PatchStore

variable {s t u : PatchStore} {inbox : SubscriberId}

/-- The set is well-formed, and the next subscriber gets a number that nobody has. -/
structure Sound (s : PatchStore) : Prop where
  wellFormed : s.set.WellFormed
  fresh : s.changes.Fresh

/-- From `s` to `t` the subscriber has been told if the set has changed. -/
def Tells (inbox : SubscriberId) (s t : PatchStore) : Prop :=
  ∃ new, s.changes.Delivers inbox new t.changes ∧ (new ≠ [] ∨ t.set = s.set)

/-- The store `t` comes from `s` by requests. -/
structure Evolves (s t : PatchStore) : Prop where
  sound : s.Sound → t.Sound
  tells : ∀ inbox, Tells inbox s t

namespace Tells

theorem refl (inbox : SubscriberId) (s : PatchStore) : Tells inbox s s :=
  ⟨[], .refl _ _, .inr rfl⟩

theorem trans (hst : Tells inbox s t) (htu : Tells inbox t u) : Tells inbox s u := by
  obtain ⟨new, hnew, hset⟩ := hst
  obtain ⟨more, hmore, hset'⟩ := htu
  refine ⟨new ++ more, hnew.trans hmore, ?_⟩
  rcases hset with hne | hset
  · exact .inl (by simp [hne])
  · rcases hset' with hne | hset'
    · exact .inl (by simp [hne])
    · exact .inr (hset'.trans hset)

/-- What only touches the mail of others has nothing to tell. -/
theorem of_changes {changes : Broadcast PatchEvent} (h : s.changes.Delivers inbox [] changes) :
    Tells inbox s { s with changes } := ⟨[], h, .inr rfl⟩

end Tells

namespace Evolves

theorem refl (s : PatchStore) : Evolves s s := ⟨id, fun inbox => .refl inbox s⟩

theorem trans (hst : Evolves s t) (htu : Evolves t u) : Evolves s u :=
  ⟨fun h => htu.sound (hst.sound h), fun inbox => (hst.tells inbox).trans (htu.tells inbox)⟩

end Evolves

theorem sound_default : Sound {} := ⟨PatchSet.wellFormed_empty, Broadcast.fresh_default⟩

/-- A reply leaves a store that comes from the old one. -/
theorem Responds.evolves {ps : List Patch} {r : PatchRequest} {reply : Reply (Option Patch)}
    (hreply : Responds s ps r reply) (hlaid : Laid ps) : Evolves s reply.store := by
  cases hreply with
  | idle => exact .refl s
  | refused => exact .refl s
  | reshaped hheld hreshaped =>
      refine ⟨fun hs => ⟨PatchSet.Holds.wellFormed hheld (hreshaped.laid hlaid),
        hs.fresh.announce _⟩, fun inbox => ?_⟩
      exact ⟨[.changed], Broadcast.announce_delivers _ _ _, .inl (by simp)⟩

/-- Whatever is asked of a sound store is answered. -/
theorem exists_perform (hs : s.Sound) (r : PatchRequest) :
    ∃ reply, s.perform r = .ok reply ∧ Evolves s reply.store := by
  obtain ⟨hheld, hlaid⟩ := PatchSet.wellFormed_iff.1 hs.wellFormed
  obtain ⟨reply, hperform, hreply⟩ := perform_responds hheld hlaid r
  exact ⟨reply, hperform, Responds.evolves hreply hlaid⟩

/-- So is every operation that a request stands for. -/
theorem exists_reply {α : Type} (hs : s.Sound) {r : PatchRequest} {x : Checked (Reply α)}
    {f : α → Option Patch} (hx : s.perform r = x >>= fun reply => pure (reply.map f)) :
    ∃ reply, x = .ok reply ∧ Evolves s reply.store := by
  obtain ⟨answer, hperform, hevolves⟩ := exists_perform hs r
  rw [hx] at hperform
  obtain ⟨reply, rfl, hmap⟩ := Checked.bind_eq_ok_iff.1 hperform
  have hstore : reply.store = answer.store := congrArg Reply.store (Except.ok.inj hmap)
  exact ⟨reply, rfl, hstore ▸ hevolves⟩

/-! ## The operations by name -/

theorem Sound.exists_write (hs : s.Sound) (addr : Nat) (bytes : List UInt8) :
    ∃ reply, s.write addr bytes = .ok reply ∧ Evolves s reply.store :=
  exists_reply (r := .write addr bytes) hs rfl

theorem Sound.exists_split (hs : s.Sound) (addr cut : Nat) :
    ∃ reply, s.split addr cut = .ok reply ∧ Evolves s reply.store :=
  exists_reply (r := .split addr cut) hs rfl

theorem Sound.exists_mergeRun (hs : s.Sound) (addrs : List Nat) :
    ∃ reply, s.mergeRun addrs = .ok reply ∧ Evolves s reply.store :=
  exists_reply (r := .mergeRun addrs) hs rfl

theorem Sound.revert_evolves (hs : s.Sound) (addr : Nat) : Evolves s (s.revert addr).store := by
  obtain ⟨reply, heq, h⟩ := exists_reply (r := .revert addr) (x := .ok (s.revert addr)) hs rfl
  cases heq
  exact h

theorem Sound.revertAll_evolves (hs : s.Sound) (addrs : List Nat) :
    Evolves s (s.revertAll addrs).store := by
  obtain ⟨reply, heq, h⟩ :=
    exists_reply (r := .revertAll addrs) (x := .ok (s.revertAll addrs)) hs rfl
  cases heq
  exact h

theorem Sound.setComment_evolves (hs : s.Sound) (addr : Nat) (comment : Option String) :
    Evolves s (s.setComment addr comment).store := by
  obtain ⟨reply, heq, h⟩ :=
    exists_reply (r := .setComment addr comment) (x := .ok (s.setComment addr comment)) hs rfl
  cases heq
  exact h

end HexEditor.PatchStore
