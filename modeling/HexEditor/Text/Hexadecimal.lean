/-!
# Hexadecimal numerals

Numbers are shown in lower-case hexadecimal, sometimes padded with zeros to a width,
and in upper-case hexadecimal in messages.  Both cases are read.
-/

namespace HexEditor.Hexadecimal

/-- The lower-case digit of a number below sixteen. -/
def digit (d : Nat) : Char :=
  if d < 10 then Char.ofNat ('0'.toNat + d) else Char.ofNat ('a'.toNat + (d - 10))

/-- The digits of a number, the most significant one first, without leading zeros. -/
def digits (n : Nat) : List Char :=
  if n < 16 then [digit n] else digits (n / 16) ++ [digit (n % 16)]
termination_by n
decreasing_by omega

/-- The digits of a number behind enough zeros to fill `width` places. -/
def padded (width n : Nat) : List Char :=
  List.replicate (width - (digits n).length) '0' ++ digits n

def lower (n : Nat) : String := String.ofList (digits n)

/-- A number in lower-case hexadecimal of at least `width` digits. -/
def lowerPadded (width n : Nat) : String := String.ofList (padded width n)

def upper (n : Nat) : String := String.ofList ((digits n).map Char.toUpper)

/-- The value of a hexadecimal digit of either case. -/
def value? (c : Char) : Option Nat :=
  if '0' ≤ c ∧ c ≤ '9' then some (c.toNat - '0'.toNat)
  else if 'a' ≤ c ∧ c ≤ 'f' then some (c.toNat - 'a'.toNat + 10)
  else if 'A' ≤ c ∧ c ≤ 'F' then some (c.toNat - 'A'.toNat + 10)
  else none

/-- The value of a sequence of digits read after `acc`; none when a character is no digit. -/
def valueFrom? (acc : Nat) : List Char → Option Nat
  | [] => some acc
  | c :: rest =>
    match value? c with
    | some d => valueFrom? (acc * 16 + d) rest
    | none => none

end HexEditor.Hexadecimal
