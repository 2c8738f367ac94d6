/-!
# Word boundaries

A text falls into runs: words, which may hold numbers and a mark between two letters or
two digits, stretches of blanks, and single other characters.  Moving by words stops at
the beginning of every run that is no plain word, and at every dot.
-/

namespace HexEditor.Text

/-- What a character is for the division of a text into runs. -/
inductive BreakClass where
  | letter
  | digit
  | underscore
  /-- A mark that may stand between two letters. -/
  | betweenLetters
  /-- A mark that may stand between two digits. -/
  | betweenDigits
  /-- A mark that may stand between two letters or two digits. -/
  | between
  | blank
  | carriageReturn
  | lineFeed
  | other
  deriving DecidableEq, Repr, Inhabited

/-- Whether a character is a letter of the Latin, Greek or Cyrillic alphabet. -/
def isLetter (c : Char) : Bool :=
  let n := c.toNat
  c.isAlpha || n == 0xAA || n == 0xB5 || n == 0xBA
    || (0xC0 ≤ n && n ≤ 0x52F && n ≠ 0xD7 && n ≠ 0xF7 && !(0x2C2 ≤ n && n ≤ 0x36F))

def breakClass (c : Char) : BreakClass :=
  if isLetter c then .letter
  else if c.isDigit then .digit
  else match c with
    | '_' => .underscore
    | ':' => .betweenLetters
    | ',' | ';' => .betweenDigits
    | '.' | '\'' => .between
    | ' ' => .blank
    | '\r' => .carriageReturn
    | '\n' => .lineFeed
    | _ => .other

/-- Whether two neighbours belong to one run, given what stands before and behind them. -/
def joins (before : Option BreakClass) (left right : BreakClass) (behind : Option BreakClass) :
    Bool :=
  match left, right with
  | .letter, .letter | .letter, .digit | .letter, .underscore
  | .digit, .letter | .digit, .digit | .digit, .underscore
  | .underscore, .letter | .underscore, .digit | .underscore, .underscore
  | .blank, .blank | .carriageReturn, .lineFeed => true
  | .letter, .betweenLetters | .letter, .between => behind = some .letter
  | .betweenLetters, .letter | .between, .letter => before = some .letter
  | .digit, .betweenDigits | .digit, .between => behind = some .digit
  | .betweenDigits, .digit | .between, .digit => before = some .digit
  | _, _ => false

/-- The runs of a text that stands behind a character. -/
def runsBehind (before : Option BreakClass) : List Char → List (List Char)
  | [] => []
  | [c] => [[c]]
  | c :: d :: rest =>
    let runs := runsBehind (some (breakClass c)) (d :: rest)
    if joins before (breakClass c) (breakClass d) (rest.head?.map breakClass) then
      match runs with
      | run :: more => (c :: run) :: more
      | [] => [[c]]
    else [c] :: runs

def runs (text : List Char) : List (List Char) := runsBehind none text

def isWordChar (c : Char) : Bool := isLetter c || c.isDigit || c == '_'

/-- The first boundary behind a place, in runs of which the first begins at `start`. -/
def boundaryIn (place start : Nat) : List (List Char) → Nat
  | [] => start
  | run :: rest =>
    match (run.zipIdx start).find? fun (c, i) => c == '.' && place < i with
    | some (_, i) => i
    | none =>
      if place < start && !run.all isWordChar then start
      else boundaryIn place (start + run.length) rest

def nextBoundary (text : List Char) (place : Nat) : Nat := boundaryIn place 0 (runs text)

/-- Where a move by a word to the left ends, which is a move to the right in the reversed
text. -/
def previousBoundary (text : List Char) (place : Nat) : Nat :=
  text.length - nextBoundary text.reverse (text.length - place)

end HexEditor.Text
