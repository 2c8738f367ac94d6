import HexEditor.Proofs.View.InStep

/-!
# What a request to a view is made of

Every request to a view is made of a few parts: keys and the pointer, the blinking, the
highlighting, the clipboard, replies of the store, and pumping (`Part`).  The walk through the
requests is made once (`perform_parts`); whatever each part keeps is then kept by all of them.
Those that end with pumping say so.
-/

namespace HexEditor.Desk

variable {d e f : Desk} {s : Scene} {b : Bool}

/-- One of the parts that requests to a view are made of. -/
inductive Part (d : Desk) : Desk → Prop
  | handled {s : Scene} (h : Scene.Handles Scene.dispatch d.scene s) : Part d (d.withScene s)
  | blinked {blink : Blink} {focused pressed : Bool}
      (h : blink.alwaysShow = d.view.grid.blink.alwaysShow) :
      Part d (d.mapGrid fun g => { g with blink, focused, pressed })
  | highlighted (on : Bool) : Part d (d.setSmart on)
  | copied (clipboard : Option (List UInt8)) : Part d { d with view := { d.view with clipboard } }
  | replied {patches : PatchStore} (h : d.project.patches.Evolves patches) :
      Part d { d with project := { d.project with patches } }
  | pumped {b : Bool} {e : Desk} (h : d.pump = .ok (b, e)) : Part d e

/-- The desk `e` comes from `d` by such parts. -/
def Parts : Desk → Desk → Prop := Relation.ReflTransGen Part

/-- The last part is pumping. -/
def Ends (d e : Desk) : Prop := ∃ f b, Parts d f ∧ f.pump = .ok (b, e)

namespace Parts

theorem refl (d : Desk) : Parts d d := Relation.ReflTransGen.refl

theorem tail (h : Parts d e) (hpart : Part e f) : Parts d f := Relation.ReflTransGen.tail h hpart

theorem single (h : Part d e) : Parts d e := Relation.ReflTransGen.single h

theorem trans (hde : Parts d e) (hef : Parts e f) : Parts d f :=
  Relation.ReflTransGen.trans hde hef

/-- What each part keeps is kept by all of them together. -/
theorem keeps {P : Desk → Prop} (h : Parts d e) (hpart : ∀ {e f}, Part e f → P e → P f)
    (hd : P d) : P e := by
  induction h with
  | refl => exact hd
  | tail _ hlast ih => exact hpart hlast ih

end Parts

theorem Ends.parts (h : Ends d e) : Parts d e := by
  obtain ⟨f, b, hf, hpump⟩ := h
  exact hf.tail (.pumped hpump)

theorem Ends.of_parts (hde : Parts d e) (hef : Ends e f) : Ends d f := by
  obtain ⟨e', b, he', hpump⟩ := hef
  exact ⟨e', b, hde.trans he', hpump⟩

theorem ends_of_pump (h : d.pump = .ok (b, e)) : Ends d e := ⟨d, b, .refl d, h⟩

/-! ## Keys and the pointer -/

theorem ends_of_onGridThenPump {op : Scene → Checked (Bool × Scene)}
    (hop : ∀ b s, op d.scene = .ok (b, s) → Scene.Handles Scene.dispatch d.scene s)
    (hdone : d.onGridThenPump op = .ok (b, e)) : Ends d e := by
  unfold onGridThenPump onGrid at hdone
  obtain ⟨⟨b', d'⟩, hgrid, hrest⟩ := Checked.bind_eq_ok_iff.1 hdone
  obtain ⟨⟨answer, s⟩, hscene, hplaced⟩ := Checked.bind_eq_ok_iff.1 hgrid
  obtain ⟨⟨b'', e'⟩, hpump, hanswer⟩ := Checked.bind_eq_ok_iff.1 hrest
  obtain ⟨-, rfl⟩ := Prod.mk.inj (Except.ok.inj hplaced)
  obtain ⟨-, rfl⟩ := Prod.mk.inj (Except.ok.inj hanswer)
  exact ⟨_, b'', .single (.handled (hop _ _ hscene)), hpump⟩

theorem ends_of_jumpTo {addr : Nat} (hjump : d.jumpTo addr = .ok (b, e)) : Ends d e := by
  have hcleared : Parts d (d.mapGrid (·.clearSelection)) :=
    .single (.handled ((Scene.Handles.refl d.scene).tail .clearSelection))
  refine .of_parts hcleared (ends_of_onGridThenPump ?_ hjump)
  exact fun b s hset => (Scene.Handles.refl _).tail (.setCursor hset)

/-! ## Replies of the store -/

theorem ends_of_afterReply {α : Type} {reply : PatchStore.Reply α} {answer : Except PatchError α}
    (hstore : d.project.patches.Evolves reply.store)
    (hdone : d.afterReply reply = .ok (answer, e)) : Ends d e := by
  unfold afterReply at hdone
  obtain ⟨⟨b, e'⟩, hpump, hdone⟩ := Checked.bind_eq_ok_iff.1 hdone
  obtain ⟨-, rfl⟩ := Prod.mk.inj (Except.ok.inj hdone)
  exact ⟨_, b, .single (.replied hstore), hpump⟩

/-- Merging some runs, one after the other, is a sequence of requests. -/
theorem evolves_of_mergeRuns {store : PatchStore} {runs : List (List Nat)}
    {reply : PatchStore.Reply Unit} (hs : store.Sound)
    (hmerge : mergeRuns store runs = .ok reply) : store.Evolves reply.store := by
  induction runs generalizing store with
  | nil =>
      cases hmerge
      exact .refl store
  | cons run rest ih =>
      obtain ⟨first, hfirst, hevolves⟩ := hs.exists_mergeRun run
      rw [mergeRuns, hfirst, Checked.ok_bind] at hmerge
      cases hanswer : first.answer with
      | ok =>
          rw [hanswer] at hmerge
          exact hevolves.trans (ih (hevolves.sound hs) hmerge)
      | error =>
          rw [hanswer] at hmerge
          cases hmerge
          exact hevolves

theorem ends_of_mergeSelected {answer : Except PatchError Bool} (hd : d.Sound)
    (hmerge : d.mergeSelected = .ok (answer, e)) : Ends d e := by
  unfold mergeSelected at hmerge
  obtain ⟨runs, -, hmerge⟩ := Checked.bind_eq_ok_iff.1 hmerge
  obtain ⟨reply, hreply, hmerge⟩ := Checked.bind_eq_ok_iff.1 hmerge
  obtain ⟨answer, hdone⟩ := Checked.exists_of_return_map_fst hmerge
  exact ends_of_afterReply (evolves_of_mergeRuns hd.store hreply) hdone

theorem ends_of_revertSelected {answer : Except PatchError Nat} (hd : d.Sound)
    (hrevert : d.revertSelected = .ok (answer, e)) : Ends d e := by
  unfold revertSelected at hrevert
  obtain ⟨answer, hdone⟩ := Checked.exists_of_return_map_fst hrevert
  exact ends_of_afterReply (hd.store.revertAll_evolves _) hdone

/-- Pasting does nothing, or writes and pumps. -/
theorem parts_of_paste {answer : Except PatchError Unit} (hd : d.Sound)
    (hpaste : d.paste = .ok (answer, e)) :
    Parts d e ∧ (d.view.clipboard.isSome = true → Ends d e) := by
  unfold paste at hpaste
  cases hclip : d.view.clipboard with
  | none =>
      rw [hclip] at hpaste
      obtain ⟨-, rfl⟩ := Prod.mk.inj (Except.ok.inj hpaste)
      exact ⟨.refl d, nofun⟩
  | some bytes =>
      rw [hclip] at hpaste
      obtain ⟨reply, hwrite, hdone⟩ := Checked.bind_eq_ok_iff.1 hpaste
      obtain ⟨reply', hwrite', hevolves⟩ := hd.store.exists_write d.view.grid.cursor.addr bytes
      rw [hwrite] at hwrite'
      obtain rfl := Except.ok.inj hwrite'
      have hends := ends_of_afterReply hevolves hdone
      exact ⟨hends.parts, fun _ => hends⟩

theorem copySelection_eq {n : Nat} (hcopy : d.copySelection = .ok (n, e)) :
    ∃ clipboard, e = { d with view := { d.view with clipboard } } := by
  unfold copySelection at hcopy
  split at hcopy
  · obtain ⟨-, rfl⟩ := Prod.mk.inj (Except.ok.inj hcopy)
    exact ⟨none, rfl⟩
  · obtain ⟨bytes, -, hcopy⟩ := Checked.bind_eq_ok_iff.1 hcopy
    obtain ⟨-, rfl⟩ := Prod.mk.inj (Except.ok.inj hcopy)
    exact ⟨some bytes, rfl⟩

theorem parts_of_copySelection {n : Nat} (hcopy : d.copySelection = .ok (n, e)) : Parts d e := by
  obtain ⟨clipboard, rfl⟩ := copySelection_eq hcopy
  exact .single (.copied clipboard)

/-! ## All requests -/

/-- An action other than copying ends with pumping, and pasting only if there is something to
paste. -/
theorem parts_of_activate {action : ViewAction} {answer : Except PatchError Unit} (hd : d.Sound)
    (hact : d.activate action = .ok (answer, e)) :
    Parts d e ∧ ((ViewRequest.activate action).pumps d.view = true → Ends d e) := by
  have hboth : Ends d e →
      Parts d e ∧ ((ViewRequest.activate action).pumps d.view = true → Ends d e) :=
    fun hends => ⟨hends.parts, fun _ => hends⟩
  cases action with
  | copy =>
      obtain ⟨⟨n, d'⟩, hcopy, hrest⟩ := Checked.bind_eq_ok_iff.1 hact
      obtain ⟨⟨b, e'⟩, hpump, hanswer⟩ := Checked.bind_eq_ok_iff.1 hrest
      obtain ⟨-, rfl⟩ := Prod.mk.inj (Except.ok.inj hanswer)
      exact hboth (.of_parts (parts_of_copySelection hcopy) (ends_of_pump hpump))
  | paste => exact parts_of_paste hd hact
  | split addr cut =>
      obtain ⟨reply, hreply, hevolves⟩ := hd.store.exists_split addr cut
      unfold activate at hact
      dsimp only at hact
      rw [hreply, Checked.ok_bind] at hact
      exact hboth (ends_of_afterReply hevolves hact)
  | editComment addr => exact hboth (ends_of_afterReply (.refl _) hact)
  | setComment addr comment =>
      exact hboth (ends_of_afterReply (hd.store.setComment_evolves addr comment) hact)
  | revert addr =>
      obtain ⟨answer, hdone⟩ := Checked.exists_of_return_map_fst hact
      exact hboth (ends_of_afterReply (hd.store.revert_evolves addr) hdone)
  | mergeSelected =>
      obtain ⟨answer, hdone⟩ := Checked.exists_of_return_map_fst hact
      exact hboth (ends_of_mergeSelected hd hdone)
  | revertSelected =>
      obtain ⟨answer, hdone⟩ := Checked.exists_of_return_map_fst hact
      exact hboth (ends_of_revertSelected hd hdone)

/-- Every request is made of these parts. -/
theorem perform_parts {r : ViewRequest} (hd : d.Sound) (hdone : d.perform r = .ok e) :
    Parts d e ∧ (r.pumps d.view = true → Ends d e) := by
  have hboth : Ends d e → Parts d e ∧ (r.pumps d.view = true → Ends d e) :=
    fun hends => ⟨hends.parts, fun _ => hends⟩
  have L := Scene.lockstep_handles Scene.dispatch d.scene
  have hself : d.scene = d.scene ∧ Scene.Handles Scene.dispatch d.scene d.scene :=
    ⟨rfl, .refl d.scene⟩
  cases r with
  | key k modifiers =>
      obtain ⟨b, hkey⟩ := Checked.exists_of_return_snd hdone
      exact hboth (ends_of_onGridThenPump
        (fun _ _ => Scene.handles_of_rel (L.key hself k modifiers)) hkey)
  | press p extend =>
      obtain ⟨b, hpress⟩ := Checked.exists_of_return_snd hdone
      exact hboth (ends_of_onGridThenPump
        (fun _ _ => Scene.handles_of_rel (L.press_at hself p extend)) hpress)
  | drag p =>
      obtain ⟨b, hdrag⟩ := Checked.exists_of_return_snd hdone
      exact hboth (ends_of_onGridThenPump (fun _ _ => Scene.handles_of_rel (L.drag hself p)) hdrag)
  | release =>
      obtain rfl := Except.ok.inj hdone
      exact ⟨.single (.blinked rfl), nofun⟩
  | doubleClick =>
      obtain ⟨b, hclick⟩ := Checked.exists_of_return_snd hdone
      exact hboth (ends_of_onGridThenPump
        (fun _ _ => Scene.handles_of_rel (L.doubleClick hself)) hclick)
  | jumpTo addr =>
      obtain ⟨b, hjump⟩ := Checked.exists_of_return_snd hdone
      exact hboth (ends_of_jumpTo hjump)
  | focusIn now =>
      obtain rfl := Except.ok.inj hdone
      exact ⟨.single (.blinked rfl), nofun⟩
  | focusOut =>
      obtain rfl := Except.ok.inj hdone
      exact ⟨.single (.blinked rfl), nofun⟩
  | tick now =>
      obtain rfl := Except.ok.inj hdone
      exact ⟨.single (.blinked (Blink.tick_keeps _ now).2.2), nofun⟩
  | setSmart on =>
      obtain rfl := Except.ok.inj hdone
      exact ⟨.single (.highlighted on), nofun⟩
  | copy =>
      obtain ⟨n, hcopy⟩ := Checked.exists_of_return_snd hdone
      exact ⟨parts_of_copySelection hcopy, nofun⟩
  | paste =>
      obtain ⟨answer, hpaste⟩ := Checked.exists_of_return_snd hdone
      exact parts_of_paste hd hpaste
  | mergeSelected =>
      obtain ⟨answer, hmerge⟩ := Checked.exists_of_return_snd hdone
      exact hboth (ends_of_mergeSelected hd hmerge)
  | revertSelected =>
      obtain ⟨answer, hrevert⟩ := Checked.exists_of_return_snd hdone
      exact hboth (ends_of_revertSelected hd hrevert)
  | activate action =>
      obtain ⟨answer, hact⟩ := Checked.exists_of_return_snd hdone
      exact parts_of_activate hd hact
  | pump =>
      obtain ⟨b, hpump⟩ := Checked.exists_of_return_snd hdone
      exact hboth (ends_of_pump hpump)

end HexEditor.Desk
