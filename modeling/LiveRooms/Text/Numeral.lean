/-!
# Decimal numerals of bounded value

A numeral is an optional plus sign and one or more ASCII digits, leading zeros allowed.  It is read
from the left and refused at the first character that makes it bad: one that is no digit, or a digit
with which the value reaches the bound.
-/

namespace LiveRooms.Numeral

/-- Why a text is no numeral below a bound. -/
inductive Fault where
  | badDigit
  | tooLarge
  deriving DecidableEq, Repr

/-- The wording of a fault. -/
def Fault.message : Fault → String
  | .badDigit => "invalid digit found in string"
  | .tooLarge => "number too large to fit in target type"

/-- The value of an ASCII digit. -/
def digit? (c : Char) : Option Nat :=
  if '0' ≤ c ∧ c ≤ '9' then some (c.toNat - '0'.toNat) else none

/-- Reads the digits that follow digits of value `value`. -/
def digitsFrom (bound value : Nat) : List Char → Except Fault Nat
  | [] => .ok value
  | c :: cs =>
    match digit? c with
    | none => .error .badDigit
    | some d =>
      if 10 * value + d < bound then digitsFrom bound (10 * value + d) cs else .error .tooLarge

/-- Reads one or more digits. -/
def digits (bound : Nat) : List Char → Except Fault Nat
  | [] => .error .badDigit
  | cs => digitsFrom bound 0 cs

/-- Reads a numeral whose value lies below `bound`. -/
def parse (bound : Nat) : List Char → Except Fault Nat
  | '+' :: cs => digits bound cs
  | cs => digits bound cs

end LiveRooms.Numeral
