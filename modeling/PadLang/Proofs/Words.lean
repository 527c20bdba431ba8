/-
This file holds what the meaning of programs and the machine have in common: the words they
compute with, the pad they draw on, and what a run shows to the outside.

Words are integers. A truth value and a colour are words too; which of them a word stands for is
not written on it. How words are compared and joined as truth values is left open, as long as
`not` turns truth around. Division is left open as well, apart from the divisions that leave no
remainder.
-/

import Mathlib.Data.Int.Basic
import PadLang.Syntax.Basic

namespace PadLang

/-! ### Words -/

/-- The operations on words that no rule of the language fixes. -/
structure WordOps where
  /-- The connectives and the comparisons. -/
  relate : BinaryOperator → Int → Int → Int
  not : Int → Int
  /-- Whether a word counts as true. -/
  holds : Int → Bool
  divide : Int → Int → Int
  holds_not : ∀ word, holds (not word) = !holds word
  divide_mul : ∀ quotient divisor, divisor ≠ 0 → divide (quotient * divisor) divisor = quotient

/-- The word of a truth value. -/
def truthWord (truth : Bool) : Int := if truth then 1 else 0

namespace WordOps

/-- The connectives and the comparisons, with one for true and zero for false. -/
def relateNumbers : BinaryOperator → Int → Int → Int
  | .or, left, right => truthWord (left != 0 || right != 0)
  | .and, left, right => truthWord (left != 0 && right != 0)
  | .equal, left, right => truthWord (left == right)
  | .notEqual, left, right => truthWord (left != right)
  | .less, left, right => truthWord (left < right)
  | .lessOrEqual, left, right => truthWord (left ≤ right)
  | .greater, left, right => truthWord (left > right)
  | .greaterOrEqual, left, right => truthWord (left ≥ right)
  | .add, _, _ | .subtract, _, _ | .multiply, _, _ | .divide, _, _ => 0

/-- Operations on numbers: every word but zero is true, and division is towards zero. -/
def numeric : WordOps where
  relate := relateNumbers
  not word := truthWord (word == 0)
  holds word := word != 0
  divide := Int.tdiv
  holds_not word := by by_cases isZero : word = 0 <;> simp [isZero, truthWord]
  divide_mul quotient _ nonzero := Int.mul_tdiv_cancel quotient nonzero

end WordOps

/-- The word of a colour. -/
def Colour.word (colour : Colour) : Int :=
  65536 * colour.red.toNat + 256 * colour.green.toNat + colour.blue.toNat

/-! ### The pad -/

/-- The pad, as far as a program can ask about it. -/
structure Pad where
  width : Int
  height : Int

/-- The length of a side of the pad. -/
def Pad.side (pad : Pad) : Side → Int
  | .width => pad.width
  | .height => pad.height

/-- The kinds of things a program does to the outside. -/
inductive Effect where
  | print
  | printArray
  | delay
  | write
  | writeBox
  | clear
deriving DecidableEq, Repr

/-- One thing done to the outside, with the words it was done with. -/
structure Event where
  effect : Effect
  words : List Int
deriving DecidableEq, Repr

end PadLang
