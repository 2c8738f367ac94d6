import HexEditor.Grid.Dispatch
import Mathlib.Tactic.Common

/-!
# Two grids in lockstep

Handling a key or the pointer is made of a few steps: starting and ending a selection,
reading, writing, and moving the cursor.  A relation between two scenes that these steps keep
is kept by everything that is made of them, and the two scenes give the same answers
(`Lockstep.key` and its neighbours).  The walk through the code is thereby made once; what it
is good for depends on the relation.  That both scenes are the same and come from a given one
is such a relation, so that facts about a single run follow as well.  The two scenes need not
tell anybody about their moves in the same way.
-/

namespace HexEditor

/-! ## Two computations -/

/-- Both computations fail alike, or both give results, and these are related. -/
inductive Checked.Rel {α β : Type} (P : α → β → Prop) : Checked α → Checked β → Prop
  | ok {a : α} {b : β} (h : P a b) : Rel P (.ok a) (.ok b)
  | error (e : Fault) : Rel P (.error e) (.error e)

namespace Checked

variable {α β γ δ : Type} {P : α → β → Prop} {Q : γ → δ → Prop} {x : Checked α} {y : Checked β}
  {f : α → Checked γ} {g : β → Checked δ}

theorem Rel.bind (h : Rel P x y) (hfg : ∀ a b, P a b → Rel Q (f a) (g b)) :
    Rel Q (x >>= f) (y >>= g) := by
  cases h with
  | ok h => exact hfg _ _ h
  | error e => exact .error e

theorem Rel.mono {P' : α → β → Prop} (h : Rel P x y) (hP : ∀ a b, P a b → P' a b) :
    Rel P' x y := by
  cases h with
  | ok h => exact .ok (hP _ _ h)
  | error e => exact .error e

/-- What is related are the results. -/
theorem Rel.results (h : Rel P x y) : Rel (fun a b => x = .ok a ∧ y = .ok b ∧ P a b) x y := by
  cases h with
  | ok h => exact .ok ⟨rfl, rfl, h⟩
  | error e => exact .error e

theorem rel_self {P : α → α → Prop} (h : ∀ a, x = .ok a → P a a) : Rel P x x := by
  cases hx : x with
  | ok a => exact .ok (h a hx)
  | error e => exact .error e

theorem Rel.of_ok {a : α} {b : β} (h : Rel P x y) (hx : x = .ok a) (hy : y = .ok b) : P a b := by
  subst hx hy
  cases h with
  | ok h => exact h

theorem Rel.eq {y : Checked α} (h : Rel Eq x y) : x = y := by
  cases h with
  | ok h => rw [h]
  | error e => rfl

theorem Rel.exists_ok {b : β} (h : Rel P x (.ok b)) : ∃ a, x = .ok a ∧ P a b := by
  cases h with
  | ok h => exact ⟨_, rfl, h⟩

end Checked

/-! ## Two scenes -/

namespace Scene

/-- Equal answers, and related scenes. -/
def Alike {α : Type} (R : Scene → Scene → Prop) (x y : α × Scene) : Prop :=
  x.1 = y.1 ∧ R x.2 y.2

/-- The relation is kept by the steps that handling keys and the pointer is made of, and
what decides between them is the same in related scenes. -/
structure Lockstep (notify notify' : Notify) (R : Scene → Scene → Prop) : Prop where
  cursor : ∀ {s t}, R s t → s.grid.cursor = t.grid.cursor
  sheet : ∀ {s t}, R s t → s.grid.sheet = t.grid.sheet
  pressed : ∀ {s t}, R s t → s.grid.pressed = t.grid.pressed
  regionsUnder : ∀ {s t}, R s t → s.grid.regionsUnder = t.grid.regionsUnder
  value : ∀ {s t}, R s t → ∀ addr, s.value addr = t.value addr
  press : ∀ {s t}, R s t → ∀ on, R (s.mapGrid fun g => { g with pressed := on })
    (t.mapGrid fun g => { g with pressed := on })
  beginSelection : ∀ {s t}, R s t → R (s.mapGrid (·.beginSelection)) (t.mapGrid (·.beginSelection))
  clearSelection : ∀ {s t}, R s t → R (s.mapGrid (·.clearSelection)) (t.mapGrid (·.clearSelection))
  write : ∀ {s t}, R s t → ∀ addr value,
    Checked.Rel (Alike R) (s.write addr value) (t.write addr value)
  setCursor : ∀ {s t}, R s t → ∀ addr pane nibble,
    Checked.Rel (Alike R) (s.setCursorWith notify addr pane nibble)
      (t.setCursorWith notify' addr pane nibble)

namespace Lockstep

variable {notify notify' : Notify} {R : Scene → Scene → Prop} {s t : Scene}

theorem anchorFor (L : Lockstep notify notify' R) (h : R s t) (extend : Bool) :
    R (s.mapGrid (·.anchorFor extend)) (t.mapGrid (·.anchorFor extend)) := by
  have hcursor := L.cursor h
  cases extend with
  | false => exact L.clearSelection h
  | true =>
      have hextend : ∀ u : Scene, u.mapGrid (·.anchorFor true) =
          if u.grid.cursor.isSelecting then u else u.mapGrid (·.beginSelection) := by
        intro u
        simp only [mapGrid, Grid.anchorFor, if_true]
        split <;> rfl
      rw [hextend s, hextend t, hcursor]
      split
      · exact h
      · exact L.beginSelection h

theorem moveBy (L : Lockstep notify notify' R) (h : R s t) (delta : Int) (extend : Bool) :
    Checked.Rel (Alike R) (s.moveByWith notify delta extend)
      (t.moveByWith notify' delta extend) := by
  have hanchor := L.anchorFor h extend
  have hcursor := L.cursor hanchor
  unfold moveByWith
  dsimp only
  rw [hcursor]
  split
  · exact L.setCursor hanchor _ _ _
  · exact .ok ⟨rfl, hanchor⟩

theorem press_at (L : Lockstep notify notify' R) (h : R s t) (p : Point) (extend : Bool) :
    Checked.Rel (Alike R) (s.pressWith notify p extend) (t.pressWith notify' p extend) := by
  unfold pressWith
  rw [L.sheet h]
  refine Checked.Rel.bind (Checked.rel_self fun _ _ => rfl) ?_
  rintro hit _ rfl
  cases hit with
  | none => exact .ok ⟨rfl, h⟩
  | some target => exact L.setCursor (L.anchorFor (L.press h true) extend) _ _ _

theorem drag (L : Lockstep notify notify' R) (h : R s t) (p : Point) :
    Checked.Rel (Alike R) (s.dragWith notify p) (t.dragWith notify' p) := by
  unfold dragWith
  rw [L.sheet h, L.pressed h]
  split
  · exact .ok ⟨rfl, h⟩
  · refine Checked.Rel.bind (Checked.rel_self fun _ _ => rfl) ?_
    rintro hit _ rfl
    cases hit with
    | none => exact .ok ⟨rfl, h⟩
    | some target => exact L.setCursor (L.anchorFor h true) _ _ _

theorem doubleClick (L : Lockstep notify notify' R) (h : R s t) :
    Checked.Rel (Alike R) (s.doubleClickWith notify) (t.doubleClickWith notify') := by
  unfold doubleClickWith
  rw [L.regionsUnder h]
  cases t.grid.regionsUnder.head? with
  | none => exact .ok ⟨rfl, h⟩
  | some region =>
      refine (L.setCursor (L.clearSelection h) region.last none none).bind ?_
      rintro ⟨_, s⟩ ⟨_, t⟩ ⟨-, h⟩
      refine (L.setCursor (L.beginSelection h) region.addr none none).bind ?_
      rintro ⟨_, s⟩ ⟨_, t⟩ ⟨-, h⟩
      exact .ok ⟨rfl, h⟩

/-! ### Typing -/

theorem setByte (L : Lockstep notify notify' R) (h : R s t) (value : UInt8) :
    Checked.Rel (Alike R) (s.setByteWith notify value) (t.setByteWith notify' value) := by
  unfold setByteWith
  dsimp only
  rw [L.cursor h]
  refine (L.write h _ value).bind ?_
  rintro ⟨taken, s⟩ ⟨_, t⟩ ⟨rfl, h⟩
  dsimp only
  split
  · exact .ok ⟨rfl, h⟩
  · split
    · refine (L.setCursor h _ none none).bind ?_
      rintro ⟨_, s⟩ ⟨_, t⟩ ⟨-, h⟩
      exact .ok ⟨rfl, h⟩
    · exact .ok ⟨rfl, h⟩

theorem setNibble (L : Lockstep notify notify' R) (h : R s t) (value : UInt8) :
    Checked.Rel (Alike R) (s.setNibbleWith notify value) (t.setNibbleWith notify' value) := by
  unfold setNibbleWith
  dsimp only
  rw [L.cursor h, L.value h]
  refine Checked.Rel.bind (Checked.rel_self fun _ _ => rfl) ?_
  rintro old _ rfl
  refine (L.write h _ _).bind ?_
  rintro ⟨taken, s⟩ ⟨_, t⟩ ⟨rfl, h⟩
  dsimp only
  split
  · exact .ok ⟨rfl, h⟩
  -- the next address depends on the half that was written
  · split <;> split
    all_goals first
      | exact .ok ⟨rfl, h⟩
      | refine (L.setCursor h _ none _).bind ?_
        rintro ⟨_, s⟩ ⟨_, t⟩ ⟨-, h⟩
        exact .ok ⟨rfl, h⟩

theorem typeChar (L : Lockstep notify notify' R) (h : R s t) (c : Char) (modifiers : Modifiers) :
    Checked.Rel (Alike R) (s.typeCharWith notify c modifiers)
      (t.typeCharWith notify' c modifiers) := by
  unfold typeCharWith
  rw [L.cursor h]
  split
  · exact .ok ⟨rfl, h⟩
  · split
    · split
      · refine (L.setByte h _).bind ?_
        rintro ⟨_, s⟩ ⟨_, t⟩ ⟨-, h⟩
        exact .ok ⟨rfl, h⟩
      · exact .ok ⟨rfl, h⟩
    · split
      · refine (L.setNibble h _).bind ?_
        rintro ⟨_, s⟩ ⟨_, t⟩ ⟨-, h⟩
        exact .ok ⟨rfl, h⟩
      · exact .ok ⟨rfl, h⟩

theorem key (L : Lockstep notify notify' R) (h : R s t) (k : Key) (modifiers : Modifiers) :
    Checked.Rel (Alike R) (s.keyWith notify k modifiers) (t.keyWith notify' k modifiers) := by
  have hdone : ∀ {x y : Checked (Bool × Scene)}, Checked.Rel (Alike R) x y →
      Checked.Rel (Alike R) (do return (true, (← x).2)) (do return (true, (← y).2)) := by
    intro x y hxy
    refine hxy.bind ?_
    rintro ⟨_, s⟩ ⟨_, t⟩ ⟨-, h⟩
    exact .ok ⟨rfl, h⟩
  have hmove : ∀ delta, Checked.Rel (Alike R)
      (do return (true, (← s.moveByWith notify delta modifiers.shift).2))
      (do return (true, (← t.moveByWith notify' delta modifiers.shift).2)) :=
    fun delta => hdone (L.moveBy h delta _)
  cases k with
  | text c => exact L.typeChar h c modifiers
  | space =>
      unfold keyWith
      dsimp only
      rw [L.cursor h]
      split
      · exact hdone (L.setCursor h _ _ none)
      · exact L.typeChar h ' ' modifiers
  | up => exact hmove _
  | down => exact hmove _
  | left => exact hmove _
  | right => exact hmove _
  | pageUp => exact hmove _
  | pageDown => exact hmove _

theorem typeText (L : Lockstep notify notify' R) (h : R s t) (text : List Char) :
    Checked.Rel (Alike R) (s.typeTextWith notify text) (t.typeTextWith notify' text) := by
  induction text generalizing s t with
  | nil => exact .ok ⟨rfl, h⟩
  | cons c rest ih =>
      unfold typeTextWith
      refine (L.key h (.text c) {}).bind ?_
      rintro ⟨used, s⟩ ⟨_, t⟩ ⟨rfl, h⟩
      refine (ih h).bind ?_
      rintro ⟨more, s⟩ ⟨_, t⟩ ⟨rfl, h⟩
      exact .ok ⟨rfl, h⟩

end Lockstep

/-! ## A single run -/

/-- One of the steps that handling keys and the pointer is made of. -/
inductive Step (notify : Notify) (s : Scene) : Scene → Prop
  | press (on : Bool) : Step notify s (s.mapGrid fun g => { g with pressed := on })
  | beginSelection : Step notify s (s.mapGrid (·.beginSelection))
  | clearSelection : Step notify s (s.mapGrid (·.clearSelection))
  | write {addr : Nat} {value : UInt8} {b : Bool} {t : Scene}
      (h : s.write addr value = .ok (b, t)) : Step notify s t
  | setCursor {addr : Nat} {pane : Option Pane} {nibble : Option Nibble} {b : Bool} {t : Scene}
      (h : s.setCursorWith notify addr pane nibble = .ok (b, t)) : Step notify s t

/-- A scene is in lockstep with itself.  Its moves may be told in two ways where nothing comes
of the difference. -/
theorem lockstep_self {notify notify' : Notify} {P : Scene → Prop}
    (hstep : ∀ {s t}, Step notify s t → P s → P t)
    (hsame : ∀ {s}, P s → ∀ addr pane nibble,
      s.setCursorWith notify addr pane nibble = s.setCursorWith notify' addr pane nibble) :
    Lockstep notify notify' fun s t => s = t ∧ P s where
  cursor := by rintro s _ ⟨rfl, -⟩; rfl
  sheet := by rintro s _ ⟨rfl, -⟩; rfl
  pressed := by rintro s _ ⟨rfl, -⟩; rfl
  regionsUnder := by rintro s _ ⟨rfl, -⟩; rfl
  value := by rintro s _ ⟨rfl, -⟩ addr; rfl
  press := by
    rintro s _ ⟨rfl, h⟩ on
    exact ⟨rfl, hstep (.press on) h⟩
  beginSelection := by
    rintro s _ ⟨rfl, h⟩
    exact ⟨rfl, hstep .beginSelection h⟩
  clearSelection := by
    rintro s _ ⟨rfl, h⟩
    exact ⟨rfl, hstep .clearSelection h⟩
  write := by
    rintro s _ ⟨rfl, h⟩ addr value
    refine Checked.rel_self ?_
    rintro ⟨b, t⟩ hwrite
    exact ⟨rfl, rfl, hstep (.write hwrite) h⟩
  setCursor := by
    rintro s _ ⟨rfl, h⟩ addr pane nibble
    rw [← hsame h]
    refine Checked.rel_self ?_
    rintro ⟨b, t⟩ hset
    exact ⟨rfl, rfl, hstep (.setCursor hset) h⟩

end Scene

end HexEditor
