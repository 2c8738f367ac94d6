import HexEditor.Cursor.Blink
import Mathlib

/-!
# The cadence of the blinking

The phase of the cursor should be a matter of time, and not of how often the timer is looked at.
What the timer remembers between two ticks is the moment of the last toggle, and this is always a
whole number of intervals after the moment at which the focus was taken, the last such moment that
has passed (`InCadence`).  A tick finds out from it how many intervals it has missed, toggles by
their parity, and moves the remembered moment on by just as many, so that no time gets lost between
ticks (`InCadence.tick`).

The number of intervals that are made up for at once is bounded, which is why no tick may come
later than that (`Timely`).
-/

namespace HexEditor.Blink

variable {b : Blink} {interval start now later last : Nat} {ticks : List Nat}

/-- The timer after some ticks. -/
def after (b : Blink) (ticks : List Nat) : Blink := ticks.foldl (fun b now => (b.tick now).2) b

/-- No tick misses as many intervals since the last toggle as cannot be made up for. -/
def Timely (b : Blink) : List Nat → Prop
  | [] => True
  | now :: later =>
    (∀ last, b.lastToggle = some last → now < last + UInt32.size * b.interval) ∧
      (b.tick now).2.Timely later

/-- The timer runs since `start`, has last toggled when the last whole interval until `now` was
over, and is in the phase that belongs to the number of whole intervals. -/
structure InCadence (b : Blink) (interval start now : Nat) : Prop where
  interval_eq : b.interval = interval
  running : b.running = true
  lastToggle : b.lastToggle = some (start + (now - start) / interval * interval)
  phaseOn : b.phaseOn = decide (Even ((now - start) / interval))

/-! ## One tick -/

/-- A tick answers whether the phase has changed. -/
theorem tick_iff (b : Blink) (now : Nat) :
    (b.tick now).1 = true ↔ (b.tick now).2.phaseOn ≠ b.phaseOn := by
  unfold tick
  split
  · simp
  · split
    · simp
    · next last _ =>
        dsimp only
        split
        · simp
        · by_cases hodd : (now - last) / b.interval % 2 = 1 <;> simp [hodd]

/-- A timely tick makes up for all the intervals that were missed. -/
theorem tick_of_timely (hrunning : b.running = true) (hinterval : b.interval ≠ 0)
    (hlast : b.lastToggle = some last) (htimely : now < last + UInt32.size * b.interval) :
    (b.tick now).2 =
      { b with
        phaseOn := if (now - last) / b.interval % 2 = 1 then !b.phaseOn else b.phaseOn
        lastToggle := some (last + (now - last) / b.interval * b.interval) } := by
  have hperiods : (now - last) / b.interval < UInt32.size := by
    rw [Nat.div_lt_iff_lt_mul (Nat.pos_of_ne_zero hinterval)]
    have hsize : 0 < UInt32.size * b.interval :=
      Nat.mul_pos (by decide) (Nat.pos_of_ne_zero hinterval)
    omega
  have hall : min ((now - last) / b.interval) maxPeriods = (now - last) / b.interval :=
    Nat.min_eq_left (Nat.le_sub_one_of_lt hperiods)
  unfold tick
  rw [if_neg (by simp [hrunning, hinterval]), hlast]
  dsimp only
  rw [hall, Nat.mul_comm b.interval]
  split
  · next hnone => simp [hnone, ← hlast]
  · simp only

/-- The whole intervals until a later moment are those until the last toggle and those since. -/
theorem div_add_div (hstart : start ≤ now) (hlater : now ≤ later) (hpos : 0 < interval) :
    (later - start) / interval =
      (now - start) / interval +
        (later - (start + (now - start) / interval * interval)) / interval := by
  have hpassed : (now - start) / interval * interval ≤ now - start := Nat.div_mul_le_self ..
  have hsplit : later - start =
      later - (start + (now - start) / interval * interval) +
        (now - start) / interval * interval := by omega
  conv_lhs => rw [hsplit, Nat.add_mul_div_right _ _ hpos]
  exact Nat.add_comm ..

theorem InCadence.tick (h : b.InCadence interval start now) (hinterval : interval ≠ 0)
    (hstart : start ≤ now) (hlater : now ≤ later)
    (htimely : later < start + (now - start) / interval * interval + UInt32.size * interval) :
    (b.tick later).2.InCadence interval start later := by
  obtain ⟨rfl, hrunning, hlast, hphase⟩ := h
  have hwhole := div_add_div hstart hlater (Nat.pos_of_ne_zero hinterval)
  rw [tick_of_timely hrunning hinterval hlast htimely]
  generalize (now - start) / b.interval = count at *
  generalize (later - (start + count * b.interval)) / b.interval = missed at *
  refine ⟨rfl, hrunning, ?_, ?_⟩
  · dsimp only
    rw [hwhole, Nat.add_mul, ← Nat.add_assoc]
  · dsimp only
    rw [hwhole, hphase]
    -- an odd number of missed intervals turns the parity round
    split
    · next hodd =>
        have hmissed : ¬ Even missed := Nat.not_even_iff.2 hodd
        have hturned : Even (count + missed) ↔ ¬ Even count := by
          rw [Nat.even_add]
          exact ⟨fun h hcount => hmissed (h.1 hcount),
            fun hcount => iff_of_false hcount hmissed⟩
        simp only [hturned, decide_not]
    · next heven =>
        have hmissed : Even missed := Nat.even_iff.2 (Nat.mod_two_ne_one.1 heven)
        simp only [Nat.even_add, hmissed, iff_true]

/-! ## All ticks -/

theorem inCadence_focusIn (b : Blink) (start : Nat) :
    (b.focusIn start).InCadence b.interval start start := by
  refine ⟨rfl, rfl, ?_, ?_⟩
  · rw [Nat.sub_self, Nat.zero_div, Nat.zero_mul]
    rfl
  · rw [Nat.sub_self, Nat.zero_div]
    rfl

/-- Ticks that come in order and in time keep the timer in its cadence. -/
theorem InCadence.after (h : b.InCadence interval start now) (hinterval : interval ≠ 0)
    (hstart : start ≤ now) (hsorted : (now :: ticks).IsChain (· ≤ ·)) (htimely : b.Timely ticks) :
    (b.after ticks).InCadence interval start (ticks.getLast?.getD now) := by
  induction ticks generalizing b now with
  | nil => exact h
  | cons later rest ih =>
      obtain ⟨hlater, hrest⟩ := List.isChain_cons_cons.1 hsorted
      have hbound := htimely.1 _ h.lastToggle
      rw [h.interval_eq] at hbound
      have hnext := ih (h.tick hinterval hstart hlater hbound) (hstart.trans hlater) hrest htimely.2
      rwa [List.getLast?_cons, Option.getD_some]

/-- In its cadence the timer waits for the next moment that is a whole number of intervals after
the start. -/
theorem InCadence.nextToggleIn? (h : b.InCadence interval start now) (hinterval : interval ≠ 0)
    (hstart : start ≤ now) :
    ∃ wait, b.nextToggleIn? now = some wait ∧
      IsLeast {t | now < t ∧ ∃ n, t = start + n * interval} (now + wait) := by
  have hdivmod := Nat.div_add_mod' (now - start) interval
  have hmod := Nat.mod_lt (now - start) (Nat.pos_of_ne_zero hinterval)
  refine ⟨interval - (now - (start + (now - start) / interval * interval)), ?_, ⟨?_, ?_⟩, ?_⟩
  · unfold Blink.nextToggleIn?
    rw [if_pos h.running, h.lastToggle, h.interval_eq]
    rfl
  · omega
  · refine ⟨(now - start) / interval + 1, ?_⟩
    rw [Nat.add_mul, Nat.one_mul]
    omega
  · rintro _ ⟨hlt, n, rfl⟩
    -- a moment that is still to come is at least one interval behind the last toggle
    have hmore : (now - start) / interval + 1 ≤ n := by
      by_contra hless
      have hle : n * interval ≤ (now - start) / interval * interval :=
        Nat.mul_le_mul_right _ (by omega)
      omega
    have hle := Nat.mul_le_mul_right interval hmore
    rw [Nat.add_mul, Nat.one_mul] at hle
    omega

/-- However often the timer is looked at, the cursor is in its visible phase after an even number
of whole intervals since the focus was taken, each tick answers whether the phase has changed, and
what is waited for is the end of the interval. -/
theorem ticks_in_cadence (hinterval : b.interval ≠ 0)
    (hsorted : (start :: ticks).IsChain (· ≤ ·)) (htimely : (b.focusIn start).Timely ticks) :
    (((b.focusIn start).after ticks).phaseOn = true ↔
        Even ((ticks.getLast?.getD start - start) / b.interval)) ∧
      (∀ earlier now later, ticks = earlier ++ now :: later →
        ((((b.focusIn start).after earlier).tick now).1 = true ↔
          ((b.focusIn start).after (earlier ++ [now])).phaseOn ≠
            ((b.focusIn start).after earlier).phaseOn)) ∧
      ∃ wait, ((b.focusIn start).after ticks).nextToggleIn? (ticks.getLast?.getD start) =
          some wait ∧
        IsLeast {t | ticks.getLast?.getD start < t ∧ ∃ n, t = start + n * b.interval}
          (ticks.getLast?.getD start + wait) := by
  have hcadence := (inCadence_focusIn b start).after hinterval le_rfl hsorted htimely
  have hstart : start ≤ ticks.getLast?.getD start := by
    cases hlast : ticks.getLast? with
    | none => exact le_rfl
    | some last =>
        exact List.rel_of_pairwise_cons (List.isChain_iff_pairwise.1 hsorted)
          (List.mem_of_getLast? hlast)
  refine ⟨?_, fun earlier now later _ => ?_, hcadence.nextToggleIn? hinterval hstart⟩
  · rw [hcadence.phaseOn, decide_eq_true_eq]
  · rw [tick_iff]
    unfold Blink.after
    rw [List.foldl_append]
    rfl

/-- The last of these ticks makes up for two intervals at once. -/
theorem ticks_in_cadence_missed :
    let b : Blink := ({ interval := 100 } : Blink).focusIn 5
    b.Timely [55, 105, 215, 415] ∧
      ((b.after [55, 105, 215, 415]).phaseOn = true ↔ Even ((415 - 5) / 100)) ∧
      ((b.after [55, 105, 215]).tick 415).1 = false ∧
      ∃ wait, (b.after [55, 105, 215, 415]).nextToggleIn? 415 = some wait ∧
        IsLeast {t | 415 < t ∧ ∃ n, t = 5 + n * 100} (415 + wait) := by
  have htimely : (({ interval := 100 } : Blink).focusIn 5).Timely [55, 105, 215, 415] := by
    refine ⟨?_, ?_, ?_, ?_, trivial⟩ <;> rintro last ⟨⟩ <;> decide
  obtain ⟨hphase, -, hwait⟩ := ticks_in_cadence (b := { interval := 100 }) (by decide)
    (by decide) htimely
  exact ⟨htimely, hphase, rfl, hwait⟩

end HexEditor.Blink
