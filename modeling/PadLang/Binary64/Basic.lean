/-
This file holds the floating-point numbers of the language: IEEE 754 binary64, kept as
their 64 bits.

The compiler never computes with these numbers. It reads them from decimal text and writes
them back as decimal text, so all that is needed is what the bits stand for: a sign and
either an exact product of a natural number and a power of two, an infinity, or no number.
-/

namespace PadLang

/-- A floating-point number, by its bits. -/
structure Binary64 where
  bits : UInt64
deriving DecidableEq, Repr

namespace Binary64

/-- The weight of the lowest exponent bit: the fraction takes the bits below it. -/
def fractionBound : Nat := 4503599627370496

/-- The exponent field of the infinities and of what is no number. -/
def specialField : Nat := 2047

/-- The fraction field. -/
def fraction (number : Binary64) : Nat :=
  number.bits.toNat % fractionBound

/-- The exponent field. -/
def field (number : Binary64) : Nat :=
  number.bits.toNat / fractionBound % (specialField + 1)

/-- The sign bit. -/
def isNegative (number : Binary64) : Bool :=
  fractionBound * (specialField + 1) ≤ number.bits.toNat

/-- The number with a given sign and given remaining bits. -/
def withSign (negative : Bool) (magnitude : Nat) : Binary64 :=
  ⟨UInt64.ofNat (if negative then fractionBound * (specialField + 1) + magnitude else magnitude)⟩

/-- The bits of an infinity, the sign apart. -/
def infinityMagnitude : Nat := specialField * fractionBound

/-- The bits of what is no number, the sign apart. -/
def nanMagnitude : Nat := infinityMagnitude + fractionBound / 2

/-! ### What the bits stand for -/

/-- A finite positive value: `mantissa * 2 ^ exponent`. When the mantissa is a power of
two, the next value below may lie only half as far away as the next value above. -/
structure Finite where
  mantissa : Nat
  exponent : Int
  narrowBelow : Bool
deriving DecidableEq, Repr

/-- What a number is, the sign apart. -/
inductive Magnitude where
  | zero
  | finite (value : Finite)
  | infinite
  | notANumber
deriving DecidableEq, Repr

/-- Takes the bits apart. A zero exponent field is read with the lowest exponent and no
implied leading bit. -/
def magnitude (number : Binary64) : Magnitude :=
  if number.field = specialField then
    if number.fraction = 0 then .infinite else .notANumber
  else if number.field = 0 then
    if number.fraction = 0 then .zero
    else .finite ⟨number.fraction, -1074, false⟩
  else
    .finite ⟨fractionBound + number.fraction, (number.field : Int) - 1075,
      number.fraction = 0 ∧ 1 < number.field⟩

end Binary64

end PadLang
