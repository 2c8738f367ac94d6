import HexEditor.Proofs.Grid.Typing
import HexEditor.Proofs.View.Attained

/-!
# Hex entry

Digits that are typed into a view are the halves of the bytes that it writes.  Each key goes
through the grid to the project and then pumps the view, and pumping must not take the cursor away
between two digits.  Only mail that has waited since before the typing can do that, and only at
the first digit, for after it nothing asks the view to go anywhere (`Taking.exists_key`).

The first digit of a byte leaves the view waiting for the second one (`Entered.exists_key`), and
with that the byte is written (`Halfway.exists_key`).  So, pair by pair, are all of them
(`Entered.exists_typeText`): the bytes are read where they have been typed, everything else is
read as before, and where no patch was in the way they are a patch of their own
(`typeText_writes`).  How many members the group has makes no difference; nor is being the only
one enough, for what a member has announced may still wait in the mail when it is gone
(`not_typeText_writes_alone`).
-/

namespace HexEditor

namespace Hexadecimal

/-- The bytes of which the digits are the halves. -/
def bytes : List Nat → List UInt8
  | high :: low :: rest => .ofNat (16 * high + low) :: bytes rest
  | _ => []

theorem length_bytes (digits : List Nat) : (bytes digits).length = digits.length / 2 := by
  induction digits using bytes.induct with
  | case1 high low rest ih =>
      simp only [bytes, List.length_cons, ih]
      omega
  | case2 digits hshort =>
      match digits with
      | [] => rfl
      | [_] => simp [bytes]
      | high :: low :: rest => exact absurd rfl (hshort high low rest)

theorem bytes_getElem? {digits : List Nat} {i high low : Nat} (hhigh : digits[2 * i]? = some high)
    (hlow : digits[2 * i + 1]? = some low) :
    (bytes digits)[i]? = some (.ofNat (16 * high + low)) := by
  induction i generalizing digits with
  | zero =>
      match digits with
      | [] => cases hhigh
      | [_] => cases hlow
      | first :: second :: rest =>
          obtain rfl := Option.some.inj hhigh
          obtain rfl := Option.some.inj hlow
          rfl
  | succ i ih =>
      match digits with
      | [] => cases hhigh
      | [_] => cases hlow
      | first :: second :: rest => exact ih hhigh hlow

end Hexadecimal

namespace Desk

variable {d e : Desk} {a : Nat} {bytes : List UInt8} {c : Char} {digit : Nat}

/-! ## One digit -/

/-- Nothing that waits in the mail makes the view go elsewhere than to `addr`. -/
def Stays (addr : Nat) (d : Desk) : Prop :=
  ∀ x, d.target? = some x → d.view.follow = true →
    x = addr ∨ d.view.grid.cursor.inBounds x = false

theorem stays_of_target? (h : d.target? = none) (addr : Nat) : d.Stays addr := by
  intro x hx
  rw [h] at hx
  cases hx

/-- Where nothing makes the view go elsewhere, pumping ends its selection at most. -/
theorem cursor_pumped_of_stays (h : d.Stays d.view.grid.cursor.addr) :
    d.pumped.view.grid.cursor.clearSelection = d.view.grid.cursor.clearSelection := by
  have hrenews := renews_renewed d
  have hfollowed : ∀ x, d.target? = some x →
      (d.renewed.followed x).view.grid.cursor.clearSelection =
        d.renewed.view.grid.cursor.clearSelection := by
    intro x hx
    unfold followed
    split
    · rfl
    · next hgo =>
        have hgo' : d.renewed.view.follow = true ∧ x ≠ d.renewed.view.grid.cursor.addr := by
          simpa using hgo
        obtain ⟨hfollow, hne⟩ := hgo'
        rw [hrenews.view] at hfollow
        rw [hrenews.cursor] at hne
        have hout := (h x hx hfollow).resolve_left hne
        dsimp only
        rw [if_neg (by simp [hrenews.cursor, hout])]
        rfl
  unfold pumped
  rw [publishSelection_grid, ← hrenews.cursor]
  cases htarget : d.target? with
  | none => rfl
  | some x => exact hfollowed x htarget

/-- The view shows its project and has the cursor among the bytes. -/
structure Taking (d : Desk) : Prop where
  sound : d.Sound
  tuned : d.view.Tuned d.project d.group
  source : d.view.grid.source = some .project
  pane : d.view.grid.cursor.pane = .bytes

/-- From `d` to `e` a digit has been typed, which has written `byte`. -/
structure Keyed (byte : UInt8) (d e : Desk) : Prop where
  taking : e.Taking
  target : e.target? = none
  image : e.project.image = d.project.image
  cursor : e.view.grid.cursor.clearSelection = d.view.grid.cursor.typed.clearSelection
  written : Written d.view.grid.cursor.addr [byte] d.project.patches.set.values
    e.project.patches.set.values

theorem Keyed.region {byte : UInt8} (h : Keyed byte d e) :
    e.view.grid.cursor.start = d.view.grid.cursor.start ∧
      e.view.grid.cursor.stop = d.view.grid.cursor.stop := by
  obtain ⟨hstart, hstop⟩ := Cursor.typed_region d.view.grid.cursor
  have htyped := h.cursor
  exact ⟨(congrArg Cursor.start htyped).trans hstart, (congrArg Cursor.stop htyped).trans hstop⟩

namespace Taking

theorem ofView (h : d.Taking) : d.view.grid.OfView :=
  ⟨h.tuned.upkept.listeners, h.source, h.tuned.upkept.moving⟩

/-- A digit is written, and the cursor goes on as typing takes it, unless mail takes it
elsewhere. -/
theorem exists_key (h : d.Taking)
    (hin : d.view.grid.cursor.inBounds d.view.grid.cursor.addr = true)
    (hstays : d.Stays d.view.grid.cursor.typed.addr) (hc : Hexadecimal.value? c = some digit) :
    ∃ e, d.key (.text c) {} = .ok (true, e) ∧ Keyed (d.view.grid.cursor.half.apply
      ((d.project.byte? d.view.grid.cursor.addr).getD 0) (.ofNat digit)) d e := by
  have hbounds : d.view.grid.cursor.start ≤ d.view.grid.cursor.addr ∧
      d.view.grid.cursor.addr < d.view.grid.cursor.stop := by
    simpa [Cursor.inBounds] using hin
  have hfits : d.scene.grid.cursor.addr < maxAddress := hbounds.2.trans_le h.tuned.bounded
  obtain ⟨t, hkey, hcursor, hwritten⟩ := Scene.exists_key_digit (s := d.scene) h.ofView
    h.sound.store.wellFormed h.pane hfits hc
  have hkept := Scene.Kept.of_key h.ofView h.sound.store hkey
  obtain ⟨htuned, hleads⟩ := tuned_of_heard h.tuned (.of_kept hkept)
  have htarget : (d.withScene t).target? = d.target? := by
    obtain ⟨cursors, hgroup, -⟩ := hkept.group
    exact target?_of_setCursors h.tuned.hearsGroup rfl rfl hgroup
  have hstays' : (d.withScene t).Stays (d.withScene t).view.grid.cursor.addr := by
    intro x hx hfollow
    have haddr : (d.withScene t).view.grid.cursor.addr = d.view.grid.cursor.typed.addr :=
      congrArg Cursor.addr hcursor
    rw [haddr, show (d.withScene t).view.grid.cursor.inBounds x = _ from hkept.inBounds_eq x]
    exact hstays x (htarget ▸ hx) hfollow
  have hstill := cursor_pumped_of_stays hstays'
  have hpane : t.grid.cursor.pane = .bytes := by
    rw [hcursor]
    exact (Cursor.typed_pane _).trans h.pane
  have hproject := project_pumped (d.withScene t)
  have hsource := (pumped_grid (d.withScene t)).2.1
  have htaking : (d.withScene t).pumped.Taking :=
    ⟨(leads_pumped _).sound (hleads.sound h.sound), tuned_pumped htuned,
      hsource.trans (hkept.source.trans h.source), (congrArg Cursor.pane hstill).trans hpane⟩
  obtain ⟨b, hpump⟩ := pump_eq htuned.upkept
  refine ⟨(d.withScene t).pumped, ?_, htaking, pumped_target? htuned.hearsGroup, ?_, ?_, ?_⟩
  · unfold Desk.key onGridThenPump onGrid
    dsimp only
    rw [hkey, Checked.ok_bind, Checked.pure_eq_ok, Checked.ok_bind]
    dsimp only
    rw [hpump, Checked.ok_bind, Checked.pure_eq_ok]
  · rw [hproject]
    exact hkept.image
  · rw [hstill]
    exact congrArg Cursor.clearSelection hcursor
  · rw [hproject]
    exact hwritten

end Taking

/-! ## All digits -/

/-- From `d` to `e` the bytes have been typed from `a` on. -/
structure Typing (a : Nat) (bytes : List UInt8) (d e : Desk) : Prop where
  taking : e.Taking
  image : e.project.image = d.project.image
  typed : Typed a bytes d.project.patches.set.values e.project.patches.set.values
  region : e.view.grid.cursor.start = d.view.grid.cursor.start ∧
    e.view.grid.cursor.stop = d.view.grid.cursor.stop

/-- The view is ready for the first half of a byte, if there is room for it. -/
structure Entered (a : Nat) (bytes : List UInt8) (d e : Desk) : Prop
    extends Typing a bytes d e where
  stays : e.Stays (a + bytes.length)
  inside : a + bytes.length < d.view.grid.cursor.stop →
    e.view.grid.cursor.addr = a + bytes.length ∧ e.view.grid.cursor.nibble ≠ some .low
  behind : bytes ≠ [] → e.view.grid.cursor.Behind (a + bytes.length)

/-- The view is ready for the second half of the last byte, `old` with another high half. -/
structure Halfway (a : Nat) (bytes : List UInt8) (old : UInt8) (high : Nat) (d e : Desk) : Prop
    extends Typing a (bytes ++ [Nibble.high.apply old (.ofNat high)]) d e where
  target : e.target? = none
  addr : e.view.grid.cursor.addr = a + bytes.length
  nibble : e.view.grid.cursor.nibble = some .low

variable {high low : Nat}

/-- Whatever byte is there, the first digit changes its high half. -/
theorem Entered.exists_key (h : Entered a bytes d e) (ha : d.view.grid.cursor.start ≤ a)
    (hroom : a + bytes.length < d.view.grid.cursor.stop)
    (hhigh : Hexadecimal.value? c = some high) :
    ∃ f old, e.key (.text c) {} = .ok (true, f) ∧ Halfway a bytes old high d f := by
  obtain ⟨hstart, hstop⟩ := h.region
  obtain ⟨haddr, hnibble⟩ := h.inside hroom
  have hin : e.view.grid.cursor.inBounds e.view.grid.cursor.addr = true := by
    simp [Cursor.inBounds, hstart, hstop, haddr]
    omega
  have hhalf : e.view.grid.cursor.half = .high := Cursor.half_of_ne_low hnibble
  have htyped := Cursor.typed_of_high hhalf hin
  have hstays : e.Stays e.view.grid.cursor.typed.addr := by
    rw [htyped]
    exact haddr ▸ h.stays
  obtain ⟨f, hkey, hkeyed⟩ := h.taking.exists_key hin hstays hhigh
  have hwritten := hkeyed.written
  have hcursor := hkeyed.cursor
  obtain ⟨hfstart, hfstop⟩ := hkeyed.region
  rw [hhalf, haddr] at hwritten
  rw [htyped] at hcursor
  refine ⟨f, _, hkey, ⟨hkeyed.taking, hkeyed.image.trans h.image, h.typed.append hwritten ?_,
    hfstart.trans hstart, hfstop.trans hstop⟩, hkeyed.target, ?_, congrArg Cursor.nibble hcursor⟩
  · exact hroom.trans_le (hstop ▸ h.taking.tuned.bounded)
  · exact (congrArg Cursor.addr hcursor).trans haddr

/-- The second digit leaves nothing of the byte that was there. -/
theorem Halfway.exists_key {old : UInt8} (h : Halfway a bytes old high d e) (hlt : high < 16)
    (ha : d.view.grid.cursor.start ≤ a) (hroom : a + bytes.length < d.view.grid.cursor.stop)
    (hlow : Hexadecimal.value? c = some low) :
    ∃ f, e.key (.text c) {} = .ok (true, f) ∧
      Entered a (bytes ++ [.ofNat (16 * high + low)]) d f := by
  obtain ⟨hstart, hstop⟩ := h.region
  have hin : e.view.grid.cursor.inBounds e.view.grid.cursor.addr = true := by
    simp [Cursor.inBounds, hstart, hstop, h.addr]
    omega
  obtain ⟨f, hkey, hkeyed⟩ := h.taking.exists_key hin (stays_of_target? h.target _) hlow
  have hwritten := hkeyed.written
  obtain ⟨hfstart, hfstop⟩ := hkeyed.region
  have hhalf : e.view.grid.cursor.half = .low := by rw [Cursor.half, h.nibble]; rfl
  -- what the first digit has written is read back
  have hread : e.project.byte? (a + bytes.length) =
      some (Nibble.high.apply old (.ofNat high)) := by
    rw [Project.byte?, h.typed.byteIn_last, Option.some_or]
  rw [hhalf, h.addr, hread, Option.getD_some,
    Nibble.low_apply_high old hlt (Hexadecimal.value?_lt hlow)] at hwritten
  have hlength : a + (bytes ++ [UInt8.ofNat (16 * high + low)]).length =
      a + bytes.length + 1 := by
    simp [Nat.add_assoc]
  have hbehind : f.view.grid.cursor.Behind (a + bytes.length + 1) := by
    show f.view.grid.cursor.clearSelection.Behind _
    rw [hkeyed.cursor, ← h.addr]
    exact Cursor.behind_typed h.nibble hin
  refine ⟨f, hkey, ⟨hkeyed.taking, hkeyed.image.trans h.image, h.typed.replace hwritten ?_,
    hfstart.trans hstart, hfstop.trans hstop⟩, stays_of_target? hkeyed.target _, ?_, ?_⟩
  · exact hroom.trans_le (hstop ▸ h.taking.tuned.bounded)
  · intro hroom'
    rw [hlength] at hroom' ⊢
    obtain ⟨haddr, hnibble⟩ := hbehind.of_ne (by omega)
    exact ⟨haddr, by simp [hnibble]⟩
  · intro _
    rw [hlength]
    exact hbehind

/-- All digits write the bytes of which they are the halves. -/
theorem Entered.exists_typeText (h : Entered a bytes d e) (ha : d.view.grid.cursor.start ≤ a)
    {digits : List Nat} {n : Nat} (hlength : digits.length = 2 * n) {text : List Char}
    (htext : text.map Hexadecimal.value? = digits.map some)
    (hroom : a + bytes.length + n ≤ d.view.grid.cursor.stop) :
    ∃ f, e.typeText text = .ok (List.replicate text.length true, f) ∧
      Entered a (bytes ++ Hexadecimal.bytes digits) d f := by
  induction n generalizing bytes e digits text with
  | zero =>
      obtain rfl := List.eq_nil_of_length_eq_zero hlength
      obtain rfl := List.map_eq_nil_iff.1 htext
      exact ⟨e, rfl, by simpa [Hexadecimal.bytes] using h⟩
  | succ n ih =>
      obtain ⟨high, digits, rfl⟩ := List.exists_cons_of_length_eq_add_one hlength
      obtain ⟨low, digits, rfl⟩ := List.exists_cons_of_length_eq_add_one (Nat.succ.inj hlength)
      obtain ⟨c₁, text, rfl, hhigh, htext⟩ := List.map_eq_cons_iff.1 htext
      obtain ⟨c₂, text, rfl, hlow, htext⟩ := List.map_eq_cons_iff.1 htext
      have hroom' : a + bytes.length < d.view.grid.cursor.stop := by omega
      obtain ⟨e₁, old, hkey₁, hhalfway⟩ := h.exists_key ha hroom' hhigh
      obtain ⟨e₂, hkey₂, hpair⟩ :=
        hhalfway.exists_key (Hexadecimal.value?_lt hhigh) ha hroom' hlow
      have hlength' : digits.length = 2 * n := by
        simp only [List.length_cons] at hlength
        omega
      have hrest : a + (bytes ++ [UInt8.ofNat (16 * high + low)]).length + n ≤
          d.view.grid.cursor.stop := by
        simp only [List.length_append, List.length_singleton]
        omega
      obtain ⟨f, htyped, hf⟩ := ih hpair hlength' htext hrest
      refine ⟨f, ?_, by simpa [Hexadecimal.bytes] using hf⟩
      simp only [typeText, hkey₁, hkey₂, htyped, Checked.ok_bind]
      rfl

/-! ## From outside -/

/-- The view shows its project, and the next key that is typed begins the byte at `a`. -/
structure AwaitsByte (a : Nat) (d : Desk) : Prop where
  source : d.view.grid.source = some .project
  pane : d.view.grid.cursor.pane = .bytes
  addr : d.view.grid.cursor.addr = a
  inside : d.view.grid.cursor.inBounds a = true
  nibble : d.view.grid.cursor.nibble ≠ some .low

/-- From `d` to `e` the digits, two for each of `n` bytes, have been written from `a` on, and
nothing else. -/
structure HexWritten (a n : Nat) (digits : List Nat) (d e : Desk) : Prop where
  bytes : ∀ i < n, ∀ high low, digits[2 * i]? = some high → digits[2 * i + 1]? = some low →
    e.project.read (a + i) = .ok (some (.ofNat (16 * high + low)))
  others : ∀ x, x < a ∨ a + n ≤ x → e.project.read x = d.project.read x
  image : e.project.image = d.project.image
  region : e.view.grid.cursor.start = d.view.grid.cursor.start ∧
    e.view.grid.cursor.stop = d.view.grid.cursor.stop
  cursor : e.view.grid.cursor.Behind (a + n)
  /-- Where no patch is in the way, and none ends at `a`, there is one more. -/
  patches : (∀ x, a ≤ x + 1 → x < a + n → d.project.patches.read x = .ok none) →
    ∃ lows highs bytes, d.project.patches.set.values = lows ++ highs ∧ bytes.length = n ∧
      e.project.patches.set.values = lows ++ { addr := a, bytes } :: highs

theorem Entered.hexWritten {digits : List Nat} {n : Nat} (hd : d.Sound)
    (h : Entered a (Hexadecimal.bytes digits) d e) (hlength : digits.length = 2 * n) (hn : 0 < n) :
    d.HexWritten a n digits e := by
  have hbytes : (Hexadecimal.bytes digits).length = n := by
    rw [Hexadecimal.length_bytes, hlength]
    omega
  have hsome : Hexadecimal.bytes digits ≠ [] := List.ne_nil_of_length_pos (hbytes ▸ hn)
  have hread := Project.read_eq hd.store.wellFormed
  have hread' := Project.read_eq h.taking.sound.store.wellFormed
  have hbyteIn := h.typed.byteIn_eq
  rw [hbytes] at hbyteIn
  refine ⟨?_, ?_, h.image, h.region, hbytes ▸ h.behind hsome, ?_⟩
  · intro i hi high low hhigh hlow
    rw [hread', Project.byte?, hbyteIn, if_pos (by omega), Nat.add_sub_cancel_left,
      Hexadecimal.bytes_getElem? hhigh hlow, Option.some_or]
  · intro x hx
    rw [hread, hread', Project.byte?, Project.byte?, hbyteIn, if_neg (by omega), h.image]
  · intro hfree
    obtain ⟨hholds, hlaid⟩ := PatchSet.wellFormed_iff.1 hd.store.wellFormed
    have hnone : ∀ x, a ≤ x + 1 → x < a + n →
        byteIn d.project.patches.set.values x = none := by
      intro x hfirst hlast
      have heq := hfree x hfirst hlast
      rw [PatchStore.read_eq hholds hlaid] at heq
      exact Except.ok.inj heq
    obtain ⟨lows, highs, hgap, hlow, hhigh⟩ := hlaid.exists_gap a n hnone
    have hlayout := h.typed.layout lows highs hgap hlow (hbytes ▸ hhigh)
    refine ⟨lows, highs, Hexadecimal.bytes digits, hgap, hbytes, ?_⟩
    rw [hlayout, typedPatch, if_neg hsome]
    rfl

end Desk

namespace Workspace

variable {w : Workspace} {v a n : Nat} {s : Seat} {text : List Char} {digits : List Nat}

/-- Hexadecimal digits that are typed into a view are written into its project, unless mail that
waits for the view takes it elsewhere. -/
theorem typeText_writes (hw : w.Attained) (hs : w.seat? v = some s)
    (hawaits : (w.desk s).AwaitsByte a) (hstays : (w.desk s).Stays a)
    (htext : text.map Hexadecimal.value? = digits.map some) (hlength : digits.length = 2 * n)
    (hn : 0 < n) (hfits : a + n ≤ s.view.grid.cursor.stop) :
    ∃ d, (w.desk s).typeText text = .ok (List.replicate text.length true, d) ∧
      (w.desk s).HexWritten a n digits d := by
  have hsound := hw.sound.desk s
  have hstart : s.view.grid.cursor.start ≤ a := by
    have hinside := hawaits.inside
    simp only [Cursor.inBounds, Bool.and_eq_true, decide_eq_true_eq] at hinside
    exact hinside.1
  have hnone : Desk.Entered a [] (w.desk s) (w.desk s) := by
    refine ⟨⟨⟨hsound, hw.sound.view v s hs, hawaits.source, hawaits.pane⟩, rfl,
      .nil (PatchSet.wellFormed_iff.1 hsound.store.wellFormed).2, ⟨rfl, rfl⟩⟩, hstays, ?_, ?_⟩
    · intro _
      exact ⟨hawaits.addr, hawaits.nibble⟩
    · intro hne
      exact absurd rfl hne
  obtain ⟨d, htyped, hd⟩ := hnone.exists_typeText hstart hlength htext hfits
  exact ⟨d, htyped, hd.hexWritten hsound hlength hn⟩

/-- A view that has jumped to the last two bytes of its project, for which no mail waits. -/
theorem typeText_writes_last_two : ∃ w s, Attained w ∧ w.seat? 0 = some s ∧
    (w.desk s).AwaitsByte 6 ∧ (w.desk s).Stays 6 ∧ 6 + 2 ≤ s.view.grid.cursor.stop ∧
      ∃ d, (w.desk s).typeText ['a', 'B', 'c', 'D'] = .ok ([true, true, true, true], d) ∧
        (w.desk s).HexWritten 6 2 [10, 11, 12, 13] d := by
  have hstart : Initial { projects := [{ image := .ofBytes 0 [0, 1, 2, 3, 4, 5, 6, 7] }] } :=
    ⟨by simp, rfl, rfl⟩
  have hopened := (Attained.start hstart).request (r := .openView 0 0 {}) Nat.one_pos rfl
  have hjumped := hopened.request (r := .view 0 (.jumpTo 6)) trivial rfl
  obtain ⟨w, s, hw, hs, hawaits, hstays, hfits⟩ : ∃ w s, Attained w ∧ w.seat? 0 = some s ∧
      (w.desk s).AwaitsByte 6 ∧ (w.desk s).Stays 6 ∧ 6 + 2 ≤ s.view.grid.cursor.stop :=
    ⟨_, _, hjumped, rfl, ⟨rfl, rfl, rfl, rfl, nofun⟩, Desk.stays_of_target? rfl 6, by decide⟩
  exact ⟨w, s, hw, hs, hawaits, hstays, hfits,
    typeText_writes hw hs hawaits hstays rfl rfl Nat.two_pos hfits⟩

/-- One other view has jumped to 5 and has been closed; the view that is left has not heard of it
yet, and goes there after the first digit. -/
theorem not_typeText_writes_alone : ¬ ∀ (w : Workspace) (v a n : Nat) (s : Seat)
    (text : List Char) (digits : List Nat), w.Attained → w.seat? v = some s →
      (w.group s.group).memberCount = 1 → (w.desk s).AwaitsByte a →
      text.map Hexadecimal.value? = digits.map some → digits.length = 2 * n → 0 < n →
      a + n ≤ s.view.grid.cursor.stop →
      ∃ d, (w.desk s).typeText text = .ok (List.replicate text.length true, d) ∧
        (w.desk s).HexWritten a n digits d := by
  intro hall
  have hstart : Initial { projects := [{ image := .ofBytes 0 [0, 1, 2, 3, 4, 5, 6, 7] }] } :=
    ⟨by simp, rfl, rfl⟩
  have hopened := (Attained.start hstart).request (r := .openView 0 0 {}) Nat.one_pos rfl
  have hopened' := hopened.request (r := .openView 0 0 {}) Nat.one_pos rfl
  have hjumped := hopened'.request (r := .view 1 (.jumpTo 5)) trivial rfl
  have hclosed := hjumped.request (r := .closeView 1) trivial rfl
  obtain ⟨d, htyped, hd⟩ := hall _ 0 0 1 _ ['1', '2'] [1, 2] hclosed rfl rfl
    ⟨rfl, rfl, rfl, rfl, nofun⟩ rfl rfl Nat.one_pos (by decide)
  have hread : (Except.ok (.ok (some 0x10)) : Checked (Checked (Option UInt8))) =
      .ok (d.project.read 0) :=
    congrArg (Except.map fun r : List Bool × Desk => r.2.project.read 0) htyped
  rw [hd.bytes 0 Nat.one_pos 1 2 rfl rfl] at hread
  exact absurd hread (by decide)
end Workspace

end HexEditor
