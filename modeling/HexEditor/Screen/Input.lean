import HexEditor.Grid.Command

/-!
# Input

The events that reach the program between two frames are gathered into the input of
one frame: the keys for the grid in the order in which they came, what happened to the
pointer, and the commands of the keyboard.
-/

namespace HexEditor

/-- A key of the keyboard that has a meaning here. -/
inductive KeyName where
  | arrowUp
  | arrowDown
  | arrowLeft
  | arrowRight
  | pageUp
  | pageDown
  | home
  | endOfLine
  | space
  | tab
  | enter
  | escape
  | backspace
  | delete
  /-- A letter, written as a capital. -/
  | letter (c : Char)
  /-- Any key without a meaning of its own. -/
  | other
  deriving DecidableEq, Repr, Inhabited

/-- The modifier keys that are held down.  The command key is the one that stands for
commands, which on most keyboards is the control key. -/
structure HeldKeys where
  shift : Bool := false
  control : Bool := false
  command : Bool := false
  alt : Bool := false
  deriving DecidableEq, Repr, Inhabited

def HeldKeys.modifiers (h : HeldKeys) : Modifiers := { shift := h.shift, ctrl := h.command }

inductive PointerButton where
  | primary
  | secondary
  deriving DecidableEq, Repr, Inhabited

inductive InputEvent where
  /-- A key goes down, or up again. -/
  | key (name : KeyName) (down : Bool) (held : HeldKeys)
  | text (typed : String)
  | copy
  | cut
  | paste (text : String)
  | moved (p : Point)
  /-- The pointer leaves the window. -/
  | gone
  /-- A button of the pointer goes down at a point, or up again. -/
  | button (p : Point) (which : PointerButton) (down : Bool)
  | wheel (delta : Float32)
  deriving Repr, Inhabited

structure FrameInput where
  keys : List (Key × Modifiers) := []
  /-- Whether the primary button went down in this frame. -/
  pressed : Bool := false
  /-- Whether the primary button is held down. -/
  down : Bool := false
  /-- Whether the primary button went up in this frame. -/
  released : Bool := false
  doubleClicked : Bool := false
  secondaryClicked : Bool := false
  pointer : Option Point := none
  shift : Bool := false
  copy : Bool := false
  paste : Bool := false
  escapePressed : Bool := false
  enterReleased : Bool := false
  deriving Repr, Inhabited

/-! ## The pointer -/

/-- What is known of the pointer from one frame to the next. -/
structure Pointer where
  /-- Where the pointer is; none when it has left the window. -/
  position : Option Point := none
  primaryDown : Bool := false
  secondaryDown : Bool := false
  /-- Where a button went down that has not come up again. -/
  origin : Option Point := none
  /-- Whether the pointer has moved too far since then for a click. -/
  strayed : Bool := false
  deriving Repr, Inhabited

namespace Pointer

/-- The greatest distance, in pixels, by which the pointer may move during a click. -/
def clickDistance : Float32 := 6

/-- Whether two points are further apart than a click allows. -/
def isFar (p q : Point) : Bool :=
  let dx := q.x - p.x
  let dy := q.y - p.y
  clickDistance < (dx * dx + dy * dy).sqrt

def moveTo (s : Pointer) (p : Point) : Pointer :=
  { s with
    position := some p
    strayed := s.strayed || match s.origin with
      | some origin => isFar origin p
      | none => false }

def anyDown (s : Pointer) : Bool := s.primaryDown || s.secondaryDown

def setButton (s : Pointer) (p : Point) (which : PointerButton) (down : Bool) : Pointer :=
  let s := match which with
    | .primary => { s with primaryDown := down }
    | .secondary => { s with secondaryDown := down }
  if down then { s with position := some p, origin := some p, strayed := false }
  else { s with position := some p, origin := none }

def after (s : Pointer) : InputEvent → Pointer
  | .moved p => s.moveTo p
  | .gone => { s with position := none }
  | .button p which down => s.setButton p which down
  | _ => s

end Pointer

/-! ## Gathering -/

namespace FrameInput

/-- The meaning of a key for the grid.  A plain space bar is left out, because it types
a blank as well. -/
def gridKey? (name : KeyName) (modifiers : Modifiers) : Option Key :=
  match name with
  | .arrowUp => some .up
  | .arrowDown => some .down
  | .arrowLeft => some .left
  | .arrowRight => some .right
  | .pageUp => some .pageUp
  | .pageDown => some .pageDown
  | .space => if modifiers.ctrl then some .space else none
  | _ => none

/-- The input with the key or the command of an event added to it.  Typed text takes
the modifiers that are held in the frame. -/
def note (held : HeldKeys) (input : FrameInput) : InputEvent → FrameInput
  | .key .enter false _ => { input with enterReleased := true }
  | .key _ false _ => input
  | .key name true pressed =>
    let modifiers := pressed.modifiers
    { input with
      keys := input.keys ++ (gridKey? name modifiers).toList.map (·, modifiers)
      escapePressed := input.escapePressed || name == .escape }
  | .text typed => { input with keys := input.keys ++ typed.toList.map (.text ·, held.modifiers) }
  | .copy => { input with copy := true }
  | .paste _ => { input with paste := true }
  | .moved p => { input with pointer := some p }
  | .button p .primary down =>
    { input with
      pointer := some p
      pressed := input.pressed || down
      released := input.released || !down }
  | .button p .secondary _ => { input with pointer := some p }
  | .cut | .gone | .wheel _ => input

/-- Whether an event ends a click of the secondary button. -/
def endsSecondaryClick (pointer : Pointer) : InputEvent → Bool
  | .button _ .secondary false => pointer.anyDown && !pointer.strayed
  | _ => false

/-- Takes up one event. -/
def takeUp (held : HeldKeys) (state : FrameInput × Pointer) (event : InputEvent) :
    FrameInput × Pointer :=
  let (input, pointer) := state
  let input := input.note held event
  ({ input with
      secondaryClicked := input.secondaryClicked || endsSecondaryClick pointer event },
    pointer.after event)

/-- Gathers the events of a frame.  A pointer that leaves the window is still where it
was for the rest of the frame. -/
def gather (pointer : Pointer) (held : HeldKeys) (events : List InputEvent) :
    FrameInput × Pointer :=
  let start : FrameInput := { pointer := pointer.position, shift := held.shift }
  let (input, pointer) := events.foldl (takeUp held) (start, pointer)
  ({ input with down := pointer.primaryDown }, pointer)

end FrameInput

end HexEditor
