/-
This file reads runs of decimal digits and the sign in front of them.
-/

namespace PadLang

namespace Text

/-- The ASCII digits. -/
def isDigit (character : Char) : Bool :=
  '0' ≤ character ∧ character ≤ '9'

/-- The number that a run of digits stands for, the most significant digit first. -/
def digitsValue (digits : List Char) : Nat :=
  digits.foldl (fun value digit => 10 * value + (digit.toNat - '0'.toNat)) 0

/-- Splits off an optional sign and tells whether it is a minus. -/
def splitSign : List Char → Bool × List Char
  | '-' :: rest => (true, rest)
  | '+' :: rest => (false, rest)
  | text => (false, text)

end Text

end PadLang
