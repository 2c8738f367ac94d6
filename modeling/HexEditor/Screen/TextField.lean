import HexEditor.Screen.EditLine

/-!
# Text fields

A text field takes the events of a frame while it has the keyboard.  Its caret stays
where it was when the keyboard goes away and comes back; at first it stands at the end.
-/

namespace HexEditor

/-- What a window remembers of a text field. -/
structure TextField where
  focused : Bool := false
  /-- Whether the keyboard goes away from the field before the next frame. -/
  leaving : Bool := false
  caret : Option Caret := none
  history : EditHistory := {}
  deriving Repr, Inhabited

namespace TextField

/-! ## The keyboard -/

/-- Where a key takes the keyboard. -/
inductive FocusMove where
  | nowhere
  | forward
  | backward
  | left
  | right
  | up
  | down
  deriving DecidableEq, Repr, Inhabited

/-- Where an event takes the keyboard, if it does. -/
def focusMove? : InputEvent → Option FocusMove
  | .key .escape true _ => some .nowhere
  | .key .tab true held => some (if held.shift then .backward else .forward)
  | .key .arrowLeft true _ => some .left
  | .key .arrowRight true _ => some .right
  | .key .arrowUp true _ => some .up
  | .key .arrowDown true _ => some .down
  | _ => none

/-- The last move of the keyboard among those that the field leaves to the window. -/
def lastMove? (isLeft : FocusMove → Bool) (events : List InputEvent) : Option FocusMove :=
  ((events.filterMap focusMove?).filter isLeft).getLast?

/-- Whether the keyboard is taken from a field before it sees the events of a frame. -/
def isTaken (isLeft : FocusMove → Bool) (events : List InputEvent) : Bool :=
  (events.filterMap focusMove?).contains .nowhere || lastMove? isLeft events = some .forward

/-! ## Editing -/

def line (f : TextField) (text : String) : EditLine :=
  let chars := text.toList
  { text := chars, caret := (f.caret.getD (.single chars.length)).within chars.length }

/-- The field and its text after it has been shown with the keyboard for a frame. -/
def edit (f : TextField) (text : String) (events : List InputEvent) : String × TextField :=
  let line := f.line text
  let done := { line, history := f.history.begin line : Editing }.run events
  (String.ofList done.line.text,
    { f with
      focused := !events.any Editing.isEnd
      caret := some done.line.caret
      history := done.history })

/-- The field and its text after a frame: it is edited while it has the keyboard. -/
def frame (f : TextField) (text : String) (events : List InputEvent) : String × TextField :=
  if f.focused then f.edit text events else (text, f)

/-- The field after a click in the middle of its text, which takes the keyboard to it. -/
def click (f : TextField) (text : String) : TextField :=
  let (_, f) := f.frame text []
  { f with focused := true, caret := some (.single (Text.middlePlace text.toList)) }

/-! ## Ways of holding the keyboard -/

/-- A frame of a field that keeps the arrow keys for itself. -/
def shown (f : TextField) (text : String) (events : List InputEvent) : String × TextField :=
  let isLeft (m : FocusMove) : Bool := m = .nowhere || m = .forward || m = .backward
  let focused := f.focused && !f.leaving && !isTaken isLeft events
  let (text, f) := { f with focused, leaving := false }.frame text events
  (text, { f with leaving := lastMove? isLeft events = some .backward })

/-- A frame of a field that takes the keyboard back in every frame.  A key that leads
away from it takes the keyboard away for the next frame only; to the left and above there
is nothing to which it could lead. -/
def shownRegaining (f : TextField) (text : String) (events : List InputEvent) :
    String × TextField :=
  let all (_ : FocusMove) : Bool := true
  let hadKeyboard := f.focused && !isTaken (· = .nowhere) events
  let focused := f.focused && !isTaken all events
  let (text, f) := { f with focused }.frame text events
  let keeps := match lastMove? all events with
    | some .forward | some .backward => !hadKeyboard
    | some .down | some .right => false
    | _ => true
  (text, { f with focused := keeps })

end TextField

end HexEditor
