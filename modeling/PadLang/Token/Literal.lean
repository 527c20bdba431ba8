/-
This file holds the values that literals denote, and reads integers.

Integers have 64 bits and two's complement range. An integer literal is an optional sign
and decimal digits; a literal out of range is no integer at all.
-/

import PadLang.Ty
import PadLang.Colour
import PadLang.Binary64.Reading

namespace PadLang

/-- The value of a literal. -/
inductive Literal where
  | int (value : Int)
  | float (value : Binary64)
  | bool (value : Bool)
  | colour (value : Colour)
deriving DecidableEq, Repr

/-- The type of a literal. -/
def Literal.base : Literal → Base
  | .int _ => .int
  | .float _ => .float
  | .bool _ => .bool
  | .colour _ => .colour

namespace Literal

/-- The number of integers that are not negative. -/
def integerBound : Int := 9223372036854775808

/-- Whether an integer fits in 64 bits. -/
def fitsInteger (value : Int) : Bool :=
  -integerBound ≤ value ∧ value < integerBound

/-- Reads an integer literal. -/
def integer? (text : List Char) : Option Int :=
  let (negative, digits) := Text.splitSign text
  if digits ≠ [] ∧ digits.all Text.isDigit then
    let size : Int := Text.digitsValue digits
    let value := if negative then -size else size
    if fitsInteger value then some value else none
  else none

end Literal

end PadLang
