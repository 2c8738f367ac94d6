import HexEditor.Settings.Toml.Text
import HexEditor.Settings.Toml.Value

/-!
# Numbers, truth values and dates of TOML

A scalar without quotation marks is one word, which says by its form what it is.
-/

namespace HexEditor.Toml

/-- Digits, between any two of which an underscore may stand. -/
def digits? (isDigit : Char → Bool) : List Char → Option (List Char)
  | [] => none
  | [c] => if isDigit c then some [c] else none
  | c :: '_' :: rest => if isDigit c then (digits? isDigit rest).map (c :: ·) else none
  | c :: rest => if isDigit c then (digits? isDigit rest).map (c :: ·) else none

/-- The number that digits stand for in a base. -/
def digitsValue (base : Nat) (ds : List Char) : Nat :=
  ds.foldl (fun n c => n * base + (Hexadecimal.value? c).getD 0) 0

/-- A sign at the front of a word: whether it is a minus, and the word without it. -/
def splitSign : List Char → Bool × List Char
  | '+' :: rest => (false, rest)
  | '-' :: rest => (true, rest)
  | word => (false, word)

/-- Decimal digits without a superfluous zero at the front. -/
def decimal? (word : List Char) : Option (List Char) := do
  let ds ← digits? Char.isDigit word
  if ds.head? = some '0' ∧ 1 < ds.length then none else some ds

/-- The size of the least integer that can be read at all. -/
def integerBound : Nat := 1 <<< 127

/-- Whether an integer can be read: it fits 128 bits, with or without a sign. -/
def isReadable (n : Int) : Bool := -integerBound ≤ n && n < 2 * integerBound

/-- An integer as a value. -/
def ofInteger (n : Int) : Value := if isReadable n then .integer n else .tooLarge

/-- An integer: decimal with a sign, or without one in another base. -/
def integer? (word : List Char) : Option Value :=
  let inBase (base : Nat) (isDigit : Char → Bool) (ds : List Char) : Option Value :=
    (digits? isDigit ds).map fun ds => ofInteger (digitsValue base ds)
  match word with
  | '0' :: 'x' :: ds => inBase 16 (fun c => (Hexadecimal.value? c).isSome) ds
  | '0' :: 'o' :: ds => inBase 8 (fun c => '0' ≤ c && c ≤ '7') ds
  | '0' :: 'b' :: ds => inBase 2 (fun c => c == '0' || c == '1') ds
  | word =>
    let (negative, ds) := splitSign word
    (decimal? ds).map fun ds =>
      let n : Int := digitsValue 10 ds
      ofInteger (if negative then -n else n)

/-- The number `m * 10 ^ e`, rounded to binary64; none when it is too large. -/
def scaled? (m : Nat) (e : Int) : Option Float :=
  let magnitude := (Nat.toDigits 10 m).length + e
  if m = 0 || magnitude < -400 then some 0
  else if 400 < magnitude then none
  else
    let x := Float.ofScientific m (e < 0) e.natAbs
    if x.isInf then none else some x

def exponent? (word : List Char) : Option Int := do
  let (negative, ds) := splitSign word
  let n : Int := digitsValue 10 (← digits? Char.isDigit ds)
  return if negative then -n else n

/-- A number with a fraction, an exponent, or both. -/
def real? (word : List Char) : Option Value := do
  let (negative, word) := splitSign word
  let signed (x : Float) : Float := if negative then -x else x
  if word = "inf".toList then return .real (signed (1 / 0))
  if word = "nan".toList then return .real (0 / 0)
  let isMark (c : Char) : Bool := c == 'e' || c == 'E'
  let mantissa := word.takeWhile (!isMark ·)
  let whole := mantissa.takeWhile (· != '.')
  let wholeDigits ← decimal? whole
  let fraction ← match mantissa.drop whole.length with
    | [] => some []
    | _ :: ds => digits? Char.isDigit ds
  let e ← match word.drop mantissa.length with
    | [] => some 0
    | _ :: ds => exponent? ds
  if mantissa.length = whole.length ∧ mantissa.length = word.length then none
  match scaled? (digitsValue 10 (wholeDigits ++ fraction)) (e - fraction.length) with
  | some x => return .real (signed x)
  | none => return .tooLarge

/-! ## Dates and times -/

/-- A number of exactly two digits at the front of a word. -/
def twoDigits : List Char → Option (Nat × List Char)
  | a :: b :: rest => if a.isDigit && b.isDigit then some (digitsValue 10 [a, b], rest) else none
  | _ => none

def daysInMonth (year month : Nat) : Nat :=
  if month = 2 then
    if year % 4 = 0 ∧ (year % 100 ≠ 0 ∨ year % 400 = 0) then 29 else 28
  else if month = 4 ∨ month = 6 ∨ month = 9 ∨ month = 11 then 30
  else 31

/-- What stands behind a date that exists. -/
def date? (word : List Char) : Option (List Char) := do
  let (century, word) ← twoDigits word
  let (rest, word) ← twoDigits word
  let (month, word) ← match word with
    | '-' :: word => twoDigits word
    | _ => none
  let (day, word) ← match word with
    | '-' :: word => twoDigits word
    | _ => none
  let year := century * 100 + rest
  if 1 ≤ month ∧ month ≤ 12 ∧ 1 ≤ day ∧ day ≤ daysInMonth year month then some word else none

/-- What stands behind the hours and minutes of a day, or of an offset. -/
def clock? (word : List Char) : Option (List Char) := do
  let (hour, word) ← twoDigits word
  let (minute, word) ← match word with
    | ':' :: word => twoDigits word
    | _ => none
  if hour ≤ 23 ∧ minute ≤ 59 then some word else none

/-- What stands behind a time of day that exists.  Seconds may be left out, and only
seconds may have a fraction. -/
def time? (word : List Char) : Option (List Char) := do
  match ← clock? word with
  | ':' :: word =>
    let (second, word) ← twoDigits word
    if 60 < second then none
    match word with
    | '.' :: word =>
      if word.takeWhile Char.isDigit = [] then none else some (word.dropWhile Char.isDigit)
    | word => some word
  | word => some word

/-- Whether a word is an offset from universal time. -/
def isOffset : List Char → Bool
  | ['Z'] | ['z'] => true
  | '+' :: word | '-' :: word => clock? word == some []
  | _ => false

/-- Whether a word is a time, a date, or a date with a time and possibly an offset. -/
def isDatetime (word : List Char) : Bool :=
  match date? word with
  | some [] => true
  | some (mark :: rest) =>
    (mark == 'T' || mark == 't' || mark == ' ') &&
      match time? rest with
      | some [] => true
      | some offset => isOffset offset
      | none => false
  | none => time? word == some []

/-- Whether a character may stand in a scalar without quotation marks. -/
def isWordChar (c : Char) : Bool := c.isAlphanum || c ∈ ['+', '-', '_', '.', ':']

/-- A word, to which a time belongs that follows a date behind a blank. -/
def splitWord (cs : List Char) : List Char × List Char :=
  let word := cs.takeWhile isWordChar
  let rest := cs.dropWhile isWordChar
  match date? word, rest with
  | some [], ' ' :: d :: more =>
    if d.isDigit then
      (word ++ ' ' :: (d :: more).takeWhile isWordChar, (d :: more).dropWhile isWordChar)
    else (word, rest)
  | _, _ => (word, rest)

/-- A scalar without quotation marks. -/
def bareScalar (cs : List Char) : Option (Value × List Char) :=
  let (word, rest) := splitWord cs
  let value :=
    if word = "true".toList then some (.boolean true)
    else if word = "false".toList then some (.boolean false)
    else if isDatetime word then some .datetime
    else (integer? word).or (real? word)
  value.map (·, rest)

def scalar (cs : List Char) : Option (Value × List Char) :=
  match string? cs with
  | some read => read.map fun p => (.string (String.ofList p.1), p.2)
  | none => bareScalar cs

end HexEditor.Toml
