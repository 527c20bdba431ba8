/-
This file reads floating-point numbers from text.

A number has an optional sign and then either a word (`inf`, `infinity` or `nan`, in any
case) or decimal digits with an optional point, at least one digit in all, and an optional
exponent. Its value is the nearest binary64 number, the even one of two that are equally
near; what is too large becomes an infinity.
-/

import PadLang.Binary64.Basic
import PadLang.Text.Digits

namespace PadLang

namespace Binary64

open Text

/-! ### Rounding -/

/-- The quotient rounded to the nearest natural number, a half to the even one. -/
def roundedQuotient (numerator denominator : Nat) : Nat :=
  let quotient := numerator / denominator
  let rest := numerator % denominator
  if 2 * rest < denominator then quotient
  else if denominator < 2 * rest then quotient + 1
  else quotient + quotient % 2

/-- The bits of the number nearest to `numerator / denominator`, the sign apart. The unit of
the last place is chosen so that the mantissa has 53 bits, but never below `2 ^ -1074`. A
mantissa that rounds up to the next power of two carries into the exponent field, where it
belongs. -/
def roundedMagnitude (numerator denominator : Nat) : Nat :=
  let estimate : Int := (numerator.log2 : Int) - denominator.log2 - 53
  let floorWith (unit : Int) :=
    (numerator * Nat.pow 2 (-unit).toNat) / (denominator * Nat.pow 2 unit.toNat)
  let unit := if floorWith estimate < 2 * fractionBound then estimate else estimate + 1
  let unit := max unit (-1074)
  let mantissa :=
    roundedQuotient (numerator * Nat.pow 2 (-unit).toNat) (denominator * Nat.pow 2 unit.toNat)
  min ((unit + 1074).toNat * fractionBound + mantissa) infinityMagnitude

/-- The bits of the number nearest to `digits * 10 ^ exponent`, the sign apart. Powers of
ten far outside the range are settled by size alone. -/
def decimalMagnitude (digits : Nat) (exponent : Int) : Nat :=
  if digits = 0 then 0
  else
    let power : Int := exponent + (Nat.toDigits 10 digits).length
    if 310 < power then infinityMagnitude
    else if power < -330 then 0
    else roundedMagnitude (digits * Nat.pow 10 exponent.toNat) (Nat.pow 10 (-exponent).toNat)

/-! ### Text -/

/-- Reads the exponent that ends a number: nothing, or a mark, an optional sign and at
least one digit. -/
def exponent? : List Char → Option Int
  | [] => some 0
  | mark :: rest =>
    if mark = 'e' ∨ mark = 'E' then
      let (negative, digits) := splitSign rest
      if digits ≠ [] ∧ digits.all isDigit then
        let value : Int := digitsValue digits
        some (if negative then -value else value)
      else none
    else none

/-- Splits off the digits after a point, if there is a point. -/
def splitFraction : List Char → List Char × List Char
  | '.' :: rest => rest.span isDigit
  | rest => ([], rest)

/-- Reads a decimal number without a sign, as the bits of its magnitude. -/
def decimal? (text : List Char) : Option Nat :=
  let (whole, rest) := text.span isDigit
  let (fraction, rest) := splitFraction rest
  if whole = [] ∧ fraction = [] then none
  else do
    let exponent ← exponent? rest
    return decimalMagnitude (digitsValue (whole ++ fraction)) (exponent - fraction.length)

/-- Reads one of the words for special values, as the bits of its magnitude. -/
def word? (text : List Char) : Option Nat :=
  match String.ofList (text.map Char.toLower) with
  | "inf" | "infinity" => some infinityMagnitude
  | "nan" => some nanMagnitude
  | _ => none

/-- Reads a number. -/
def ofText? (text : String) : Option Binary64 := do
  let (negative, rest) := splitSign text.toList
  let magnitude ← (word? rest).or (decimal? rest)
  return withSign negative magnitude

end Binary64

end PadLang
