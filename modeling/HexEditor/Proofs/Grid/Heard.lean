import HexEditor.Proofs.Grid.Listeners
import HexEditor.Proofs.Grid.Upkeep

/-!
# What others hear of a command

Whatever is done to the grid of a view, be it a key or any other command, others learn of it in
two ways only: the project's store carries out requests, and the group is told where the cursor
has gone (`Heard`).  The grid keeps its one listener, unless it is given another.
-/

namespace HexEditor.Scene

variable {s t u : Scene} {b : Bool}

/-- From `s` to `t` others have heard of nothing but requests to the store and positions of the
cursor. -/
structure Heard (s t : Scene) : Prop where
  upkept : s.grid.Upkept → t.grid.Upkept
  bounded : s.grid.cursor.stop ≤ maxAddress → t.grid.cursor.stop ≤ maxAddress
  member : t.around.member = s.around.member
  store : s.around.project.patches.Evolves t.around.project.patches
  group : ∃ cursors, t.around.group = s.around.group.setCursors s.around.member cursors

namespace Heard

theorem of_grid {f : Grid → Grid} (h : s.grid.Upkept → (f s.grid).Upkept)
    (hstop : (f s.grid).cursor.stop = s.grid.cursor.stop) : Heard s (s.mapGrid f) :=
  ⟨h, hstop.trans_le, rfl, .refl _, [], rfl⟩

theorem refl (s : Scene) : Heard s s := of_grid (f := id) id rfl

theorem of_kept (h : Kept s t) : Heard s t := by
  obtain ⟨cursors, hgroup, -⟩ := h.group
  exact ⟨h.upkept, h.region.2.trans_le, h.member, h.store, cursors, hgroup⟩

theorem trans (hst : Heard s t) (htu : Heard t u) : Heard s u where
  upkept := htu.upkept ∘ hst.upkept
  bounded := htu.bounded ∘ hst.bounded
  member := htu.member.trans hst.member
  store := hst.store.trans htu.store
  group := SyncGroup.exists_setCursors_trans hst.group (hst.member ▸ htu.group)

theorem of_write (hs : s.around.project.patches.Sound) {addr : Nat} {value : UInt8}
    (hwrite : s.write addr value = .ok (b, t)) : Heard s t := by
  have hgrid : ∀ source, Heard s (s.mapGrid fun g => { g with source }) :=
    fun _ => of_grid (fun h => ⟨h.listeners, h.moving⟩) rfl
  unfold write at hwrite
  cases hsource : s.grid.source with
  | none =>
      rw [hsource] at hwrite
      obtain ⟨-, rfl⟩ := Prod.mk.inj (Except.ok.inj hwrite)
      exact refl s
  | some source =>
      rw [hsource] at hwrite
      cases source with
      | image m =>
          dsimp only at hwrite
          split at hwrite
          · obtain ⟨-, rfl⟩ := Prod.mk.inj (Except.ok.inj hwrite)
            exact hgrid _
          · obtain ⟨-, rfl⟩ := Prod.mk.inj (Except.ok.inj hwrite)
            exact refl s
      | addressPattern =>
          obtain ⟨-, rfl⟩ := Prod.mk.inj (Except.ok.inj hwrite)
          exact refl s
      | project =>
          obtain ⟨reply, hreply, hevolves⟩ := hs.exists_write addr [value]
          simp only [Project.write, hreply, Checked.ok_bind, Checked.pure_eq_ok] at hwrite
          obtain ⟨-, rfl⟩ := Prod.mk.inj (Except.ok.inj hwrite)
          exact of_kept (.of_evolves hevolves)

theorem of_setCursor (h : s.grid.Upkept) {addr : Nat} {pane : Option Pane}
    {nibble : Option Nibble} (hset : s.setCursor addr pane nibble = .ok (b, t)) : Heard s t := by
  rw [setCursor_eq h] at hset
  split at hset
  · next hin =>
      obtain ⟨-, rfl⟩ := Prod.mk.inj (Except.ok.inj hset)
      exact of_kept (.of_moved hin pane nibble)
  · obtain ⟨-, rfl⟩ := Prod.mk.inj (Except.ok.inj hset)
    exact refl s

/-- Handling keys and the pointer is heard of in no other way. -/
theorem of_handles (h : s.grid.Upkept) (hs : s.around.project.patches.Sound)
    (hhandles : Handles dispatch s t) : Heard s t := by
  refine hhandles.keeps (P := Heard s) ?_ (refl s)
  intro t u hstep ht
  refine ht.trans ?_
  cases hstep with
  | press on => exact of_kept (.of_pressed t on)
  | beginSelection => exact of_kept (.of_anchor t)
  | clearSelection => exact of_kept (.of_anchor t)
  | write hwrite => exact of_write (ht.store.sound hs) hwrite
  | setCursor hset => exact of_setCursor (ht.upkept h) hset

/-- Nor is any other command, as long as it brings in no listener. -/
theorem of_performed {c : Command} (h : s.grid.Upkept) (hs : s.around.project.patches.Sound)
    (hlistener : c.listener? = none) (hc : Performed dispatch s c t) : Heard s t := by
  by_cases hmoves : c.moves = true
  · exact of_handles h hs (hc.handles hmoves)
  · have hgiven := congrArg Given.listeners (hc.given_of_not_moves (Bool.not_eq_true _ ▸ hmoves))
    rw [Given.after_listeners, hlistener, Option.toList_none, List.append_nil] at hgiven
    have hupkept : t.grid.Upkept := ⟨hgiven.trans h.listeners, hc.moving.trans h.moving⟩
    cases hc with
    | handled hmoves' => exact absurd hmoves' hmoves
    | region hregion =>
        -- a region that reaches further ends at the greatest address
        obtain ⟨sheet, hsheet, rfl⟩ := setRegion_cursor hregion
        obtain ⟨rows, -, hret⟩ := Checked.bind_eq_ok_iff.1 hsheet
        obtain rfl := Except.ok.inj hret
        exact ⟨fun _ => hupkept, fun _ => clampedAdd_le _ _, rfl, .refl _, [], rfl⟩
    | changed hchange => exact of_grid (fun _ => hupkept) (change?_frame hchange s.grid).2.1
    | looked => exact refl s
    | logTaken => exact ⟨id, id, rfl, .refl _, [], rfl⟩

end Heard

end HexEditor.Scene
