/-!
# Blinking

The blink timer turns the cursor on and off once per interval.  It has no clock of its
own: the time, in nanoseconds, comes from the caller.  Intervals that were missed are
made up for by parity, so that the cadence stays tied to the moment of the last restart.
-/

namespace HexEditor

def defaultBlinkInterval : Nat := 750000000

structure Blink where
  interval : Nat := defaultBlinkInterval
  /-- Whether the cursor is in its visible phase. -/
  phaseOn : Bool := true
  /-- Whether the cursor is drawn at all. -/
  shown : Bool := false
  /-- Whether the cursor is drawn also without the focus. -/
  alwaysShow : Bool := false
  running : Bool := false
  lastToggle : Option Nat := none
  deriving DecidableEq, Repr, Inhabited

namespace Blink

/-- The most intervals by which the last toggle advances at once. -/
def maxPeriods : Nat := UInt32.size - 1

def visible (b : Blink) : Bool := b.shown && b.phaseOn

/-- Advances the timer.  Answers whether the phase changed. -/
def tick (b : Blink) (now : Nat) : Bool × Blink :=
  if !b.running || b.interval = 0 then (false, b)
  else
    match b.lastToggle with
    | none => (false, { b with lastToggle := some now })
    | some last =>
      let periods := (now - last) / b.interval
      if periods = 0 then (false, b)
      else
        let toggled := periods % 2 = 1
        (toggled,
          { b with
            phaseOn := if toggled then !b.phaseOn else b.phaseOn
            lastToggle := some (last + b.interval * min periods maxPeriods) })

/-- Makes the cursor visible and begins a new interval. -/
def restart (b : Blink) (now : Nat) : Blink :=
  { b with phaseOn := true, running := true, lastToggle := some now }

def focusIn (b : Blink) (now : Nat) : Blink := { b with shown := true }.restart now

def focusOut (b : Blink) : Blink :=
  { b with running := false, lastToggle := none, shown := b.alwaysShow, phaseOn := b.alwaysShow }

/-- Decides whether the cursor is drawn also without the focus. -/
def setAlwaysShow (b : Blink) (alwaysShow : Bool) : Blink :=
  if b.running then { b with alwaysShow }
  else { b with alwaysShow, shown := alwaysShow, phaseOn := alwaysShow }

/-- The time until the phase changes next. -/
def nextToggleIn? (b : Blink) (now : Nat) : Option Nat :=
  if b.running then b.lastToggle.map fun last => b.interval - (now - last) else none

end Blink

end HexEditor
