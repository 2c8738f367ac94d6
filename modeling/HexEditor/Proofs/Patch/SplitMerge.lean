import HexEditor.Proofs.Patch.Request

/-!
# Splitting and merging undo each other

A split leaves two patches, of which the second starts where the first one ends, so that they can
be merged; and the patch that two patches have been merged into can be split where the second one
started.  In both directions the patches are laid out again as they were, and a set is determined
by the patches that it holds.

What is not symmetric are the comments.  A split gives the comment of the patch to both halves, and
a merge drops the comment of the second patch.  Merging after a split therefore restores everything,
while splitting after a merge gives the second patch the comment of the first one.
-/

namespace HexEditor

/-! ## Single patches -/

namespace Patch

variable {p q low high : Patch} {cut : Nat}

/-- The two parts of a patch meet at the cut. -/
theorem parts_meet (hlow : p.below? cut = some low) (hhigh : p.beyond? cut = some high) :
    low.addr = p.addr ∧ low.stop = cut ∧ high.addr = cut := by
  have hstart : p.addr < cut := by
    by_contra hle
    rw [below?_eq_none (not_lt.1 hle)] at hlow
    cases hlow
  have hend : cut < p.stop := by
    by_contra hle
    rw [beyond?_eq_none (not_lt.1 hle)] at hhigh
    cases hhigh
  refine ⟨addr_of_below? hlow, ?_, ?_⟩
  · rw [stop_of_below? hlow, Nat.min_eq_left hend.le]
  · rw [addr_of_beyond? hhigh, Nat.max_eq_right hstart.le]

/-- A patch is its two parts put together. -/
theorem append_of_parts (hlow : p.below? cut = some low) (hhigh : p.beyond? cut = some high) :
    low.append high.bytes = p := by
  unfold below? at hlow
  unfold beyond? at hhigh
  split at hlow
  · split at hhigh
    · obtain rfl := Option.some.inj hlow
      obtain rfl := Option.some.inj hhigh
      simp [append, List.take_append_drop]
    · cases hhigh
  · cases hlow

/-- The part of two merged patches below the place where they met is the first one. -/
theorem below?_append (hp : p.Proper) (bytes : List UInt8) :
    (p.append bytes).below? p.stop = some p := by
  have hstart : (p.append bytes).addr < p.stop := hp.addr_lt_stop
  have hsize : p.stop - p.addr = p.bytes.length := Nat.add_sub_cancel_left ..
  rw [below?, if_pos hstart]
  simp [append, hsize]

/-- The part beyond it has the bytes of the second one, but the comment of the first one. -/
theorem beyond?_append (hq : q.Proper) (htouch : p.stop = q.addr) :
    (p.append q.bytes).beyond? q.addr = some { q with comment := p.comment } := by
  have hend : q.addr < (p.append q.bytes).stop := by
    rw [stop_append, htouch]
    exact hq.addr_lt_stop
  have hsize : q.addr - p.addr = p.bytes.length := by
    rw [← htouch]
    exact Nat.add_sub_cancel_left ..
  have hstart : p.addr ≤ q.addr := htouch ▸ Nat.le_add_right ..
  rw [beyond?, if_pos hend]
  simp [append, hsize, Nat.max_eq_right hstart]

end Patch

/-! ## The requests -/

namespace PatchStore

variable {s t : PatchStore} {addr cut other : Nat}

/-- A request that does something, and succeeds, reshapes the patches. -/
theorem reshaped_of_ok (h : s.set.WellFormed) {r : PatchRequest} {o : Option Patch}
    (hidle : ¬ r.Idle) (hr : s.perform r = .ok ⟨.ok o, t⟩) :
    ∃ qs, t.set.Holds qs ∧ Reshaped s.set.values r o qs := by
  obtain ⟨reply, hperform, hreply, -⟩ := perform_eq_ok h r
  obtain rfl := Except.ok.inj (hr.symm.trans hperform)
  cases hreply with
  | idle h => exact absurd h hidle
  | reshaped hheld hreshaped => exact ⟨_, hheld, hreshaped⟩

/-- After a split the two parts of a patch stand in its place. -/
theorem parts_of_split (h : s.set.WellFormed) (hsplit : s.split addr cut = .ok ⟨.ok (), t⟩) :
    ∃ before p low high after, s.set.values = before ++ p :: after ∧ p.addr = addr ∧
      p.below? cut = some low ∧ p.beyond? cut = some high ∧
      t.set.Holds (before ++ low :: high :: after) ∧ Laid (before ++ low :: high :: after) := by
  have hperform : s.perform (.split addr cut) = .ok ⟨.ok none, t⟩ := by
    rw [perform, hsplit]
    rfl
  obtain ⟨qs, hheld, hreshaped⟩ := reshaped_of_ok h id hperform
  have hlaid := hreshaped.laid (PatchSet.wellFormed_iff.1 h).2
  cases hreshaped with
  | split hps hlow hhigh => exact ⟨_, _, _, _, _, hps, rfl, hlow, hhigh, hheld, hlaid⟩
  | merged _ _ _ hr => cases hr

/-- After a merge one patch stands in the place of two that touched. -/
theorem joined_of_merge (h : s.set.WellFormed) (hmerge : s.merge addr other = .ok ⟨.ok (), t⟩) :
    ∃ before p q after, s.set.values = before ++ p :: q :: after ∧ p.addr = addr ∧
      q.addr = other ∧ p.stop = q.addr ∧ t.set.Holds (before ++ p.append q.bytes :: after) ∧
      Laid (before ++ p.append q.bytes :: after) := by
  have hperform : s.perform (.merge addr other) = .ok ⟨.ok none, t⟩ := by
    rw [perform, hmerge]
    rfl
  obtain ⟨qs, hheld, hreshaped⟩ := reshaped_of_ok h id hperform
  have hlaid := hreshaped.laid (PatchSet.wellFormed_iff.1 h).2
  cases hreshaped with
  | @merged _ before run after p hps htouch hne hr =>
      -- two addresses are those of a run of two patches
      obtain ⟨q, rfl⟩ : ∃ q, run = [q] := by
        have hlength : run.length = 1 := by
          simpa [PatchRequest.run?] using congrArg (Option.map List.length) hr
        exact List.length_eq_one_iff.1 hlength
      obtain ⟨rfl, rfl⟩ : addr = p.addr ∧ other = q.addr := by
        simpa [PatchRequest.run?] using hr
      have hpq : p.stop = q.addr := (List.isChain_cons_cons.1 htouch).1
      exact ⟨before, p, q, after, by simpa using hps, rfl, rfl, hpq, hheld, hlaid⟩

/-- Merging the halves of a patch gives the patch back, and splitting what two patches have been
merged into gives both back, of which the second now has the comment of the first. -/
theorem split_merge_undo (h : s.set.WellFormed) (addr other : Nat) :
    (∀ t, s.split addr other = .ok ⟨.ok (), t⟩ →
        ∃ u, t.merge addr other = .ok ⟨.ok (), u⟩ ∧ u.set = s.set) ∧
      ∀ t, s.merge addr other = .ok ⟨.ok (), t⟩ →
        ∃ p u, s.set.get? addr = some p ∧ t.split addr other = .ok ⟨.ok (), u⟩ ∧
          u.set = s.set.modify other fun q => { q with comment := p.comment } := by
  obtain ⟨hs, hproper, -⟩ := PatchSet.wellFormed_iff.1 h
  constructor
  · intro t hsplit
    obtain ⟨before, p, low, high, after, hps, rfl, hlow, hhigh, ht, hlaid⟩ :=
      parts_of_split h hsplit
    obtain ⟨hstart, hstop, hcut⟩ := Patch.parts_meet hlow hhigh
    have htouch : Touching [low, high] := List.isChain_pair.2 (hstop.trans hcut.symm)
    have hheld : t.set.Holds (before ++ low :: ([high] ++ after)) := ht
    obtain ⟨u, hmerge, hu⟩ := mergeRun_eq hheld hlaid htouch (List.cons_ne_nil high [])
    have hrun : [low, high].map Patch.addr = [p.addr, other] := by simp [hstart, hcut]
    have hwhole : merged low [high] = p := Patch.append_of_parts hlow hhigh
    rw [hrun] at hmerge
    rw [hwhole, ← hps] at hu
    exact ⟨_, hmerge, hu.unique hs⟩
  · intro t hmerge
    obtain ⟨before, p, q, after, hps, rfl, rfl, htouch, ht, hlaid⟩ := joined_of_merge h hmerge
    rw [hps] at hs hproper
    have hp : p.Proper := hproper p (by simp)
    have hq : q.Proper := hproper q (by simp)
    have hlow : p.addr < q.addr := htouch ▸ hp.addr_lt_stop
    have hhigh : q.addr < (p.append q.bytes).stop :=
      (stop_append_of_touching htouch).symm ▸ hq.addr_lt_stop
    obtain ⟨u, first, second, hsplit, hfirst, hsecond, hu⟩ :=
      split_eq (p := p.append q.bytes) ht hlaid hlow hhigh
    have hbelow : some first = some p :=
      calc some first = (p.append q.bytes).below? q.addr := hfirst.symm
        _ = (p.append q.bytes).below? p.stop := by rw [htouch]
        _ = some p := Patch.below?_append hp q.bytes
    have hbeyond : some second = some { q with comment := p.comment } :=
      calc some second = (p.append q.bytes).beyond? q.addr := hsecond.symm
        _ = some { q with comment := p.comment } := Patch.beyond?_append hq htouch
    rw [Option.some.inj hbelow, Option.some.inj hbeyond] at hu
    -- the comment of the second patch is all that has changed
    have hmid : s.set.Holds ((before ++ [p]) ++ q :: after) := by simpa using hs
    have hcommented := hmid.modify_middle (f := fun q => { q with comment := p.comment }) rfl
    refine ⟨p, _, hs.get?_middle, hsplit, hu.unique ?_⟩
    simpa using hcommented

/-- The halves of the first patch, and the first two patches, with all the comments. -/
theorem split_merge_undo_commented :
    let s := ofPatches [⟨16, [1, 2, 3], some "a"⟩, ⟨19, [4], some "b"⟩, ⟨20, [5], none⟩]
    s.set.WellFormed ∧
      (∃ t u, s.split 16 18 = .ok ⟨.ok (), t⟩ ∧ t.merge 16 18 = .ok ⟨.ok (), u⟩ ∧
        u.set = s.set) ∧
      ∃ t u, s.merge 16 19 = .ok ⟨.ok (), t⟩ ∧ t.split 16 19 = .ok ⟨.ok (), u⟩ ∧
        u.set.values = [⟨16, [1, 2, 3], some "a"⟩, ⟨19, [4], some "a"⟩, ⟨20, [5], none⟩] := by
  intro s
  have hwell : s.set.WellFormed := PatchSet.wellFormed_ofList (by decide)
  refine ⟨hwell, ?_, ?_⟩
  · obtain ⟨t, hsplit⟩ : ∃ t, s.split 16 18 = .ok ⟨.ok (), t⟩ := ⟨_, rfl⟩
    obtain ⟨u, hmerge, hu⟩ := (split_merge_undo hwell 16 18).1 t hsplit
    exact ⟨t, u, hsplit, hmerge, hu⟩
  · obtain ⟨t, hmerge⟩ : ∃ t, s.merge 16 19 = .ok ⟨.ok (), t⟩ := ⟨_, rfl⟩
    obtain ⟨p, u, hp, hsplit, hu⟩ := (split_merge_undo hwell 16 19).2 t hmerge
    refine ⟨t, u, hmerge, hsplit, ?_⟩
    have hcomment : p.comment = some "a" := by
      obtain rfl := Option.some.inj hp
      rfl
    rw [hu, hcomment]
    decide

end PatchStore

end HexEditor
