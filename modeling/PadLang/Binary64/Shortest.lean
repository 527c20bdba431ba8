/-
This file writes floating-point numbers with the fewest digits that read back.

The reals that round to a given number form an interval around it. On each decimal grid,
from one significant digit upwards, only the two grid points next to the number can be the
nearest ones inside that interval, so the search tests those two and stops at the first
grid on which one of them lies inside. All comparisons are exact, between natural numbers.
Of two points inside the nearer one is taken, and the upper one if they are equally near.

Numbers from 0.0001 up to, but not including, 10^16 are written positionally with at least
one digit on either side of the point; all others with an exponent.
-/

import PadLang.Binary64.Basic

namespace PadLang

namespace Binary64

/-- A decimal number: `digits * 10 ^ exponent`. -/
structure Decimal where
  digits : Nat
  exponent : Int
deriving DecidableEq, Repr

/-! ### The interval of a number -/

namespace Finite

/-- Compares the decimal `digits * 10 ^ grid` with `count * 2 ^ (exponent - 2)`, where the
exponent is that of the value. In these quarter steps the value is four times its mantissa. -/
def compareQuarters (value : Finite) (digits : Nat) (grid : Int) (count : Nat) : Ordering :=
  let scale := value.exponent - 2
  compare (digits * Nat.pow 10 grid.toNat * Nat.pow 2 (-scale).toNat)
    (count * Nat.pow 2 scale.toNat * Nat.pow 10 (-grid).toNat)

/-- Whether a decimal reads back as the value: it lies between the two midpoints to the
neighbours. A midpoint itself goes to the even mantissa. -/
def readsBack (value : Finite) (digits : Nat) (grid : Int) : Bool :=
  let low := 4 * value.mantissa - (if value.narrowBelow then 1 else 2)
  let high := 4 * value.mantissa + 2
  let inclusive := value.mantissa % 2 == 0
  let below := value.compareQuarters digits grid low
  let above := value.compareQuarters digits grid high
  (below == .gt || (inclusive && below == .eq)) && (above == .lt || (inclusive && above == .eq))

/-- The largest multiple of `10 ^ grid` that is not above the value, as a multiplier. -/
def floorOn (value : Finite) (grid : Int) : Nat :=
  (value.mantissa * Nat.pow 2 value.exponent.toNat * Nat.pow 10 (-grid).toNat)
    / (Nat.pow 10 grid.toNat * Nat.pow 2 (-value.exponent).toNat)

/-- Whether the value lies below `10 ^ power`. -/
def isBelowPower (value : Finite) (power : Int) : Bool :=
  value.compareQuarters 1 power (4 * value.mantissa) == .gt

/-- The least power of ten above the value. The binary logarithm gives an estimate, which
exact comparisons then raise by at most two. -/
def decimalPower (value : Finite) : Int :=
  let binary : Int := value.exponent + value.mantissa.log2
  let estimate := binary * 30103 / 100000
  if value.isBelowPower estimate then estimate
  else if value.isBelowPower (estimate + 1) then estimate + 1
  else estimate + 2

/-! ### The search -/

/-- The nearer of the two neighbours on a grid, the upper one if they are equally near. -/
def nearestOn (value : Finite) (grid : Int) : Nat :=
  let floor := value.floorOn grid
  match value.compareQuarters (2 * floor + 1) grid (8 * value.mantissa) with
  | .gt => floor
  | _ => floor + 1

/-- The digits on the grid with `count` significant digits, or on a finer one: at most
`spare` more digits are tried. The finest grid takes the nearer neighbour unasked. -/
def selectFrom (value : Finite) (power : Int) : (spare count : Nat) → Decimal
  | 0, count => ⟨value.nearestOn (power - count), power - count⟩
  | spare + 1, count =>
    let grid := power - count
    let floor := value.floorOn grid
    match value.readsBack floor grid, value.readsBack (floor + 1) grid with
    | true, true => ⟨value.nearestOn grid, grid⟩
    | true, false => ⟨floor, grid⟩
    | false, true => ⟨floor + 1, grid⟩
    | false, false => value.selectFrom power spare (count + 1)

/-- The shortest decimal that reads back. Seventeen digits always do. -/
def shortest (value : Finite) : Decimal :=
  value.selectFrom value.decimalPower 16 1

end Finite

/-! ### Layout -/

namespace Decimal

/-- Moves trailing zeros of the digits into the exponent. -/
def trim : (limit : Nat) → Decimal → Decimal
  | 0, decimal => decimal
  | limit + 1, decimal =>
    if decimal.digits % 10 = 0 then trim limit ⟨decimal.digits / 10, decimal.exponent + 1⟩
    else decimal

/-- A run of zeros. -/
def zeros (count : Nat) : List Char := List.replicate count '0'

/-- Positional notation, for a leading digit that stands for `10 ^ lead`. -/
def positional (digits : List Char) (lead : Int) : List Char :=
  if lead < 0 then
    ['0', '.'] ++ zeros (-lead - 1).toNat ++ digits
  else
    let whole := lead.toNat + 1
    if digits.length ≤ whole then digits ++ zeros (whole - digits.length) ++ ['.', '0']
    else digits.take whole ++ ['.'] ++ digits.drop whole

/-- The digits with a point after the first, if others follow it. -/
def pointed : List Char → List Char
  | first :: second :: rest => first :: '.' :: second :: rest
  | digits => digits

/-- Notation with an exponent, which has no sign unless it is negative. -/
def scientific (digits : List Char) (lead : Int) : List Char :=
  pointed digits ++ ['e'] ++ (if lead < 0 then ['-'] else []) ++ Nat.toDigits 10 lead.natAbs

/-- The text of a decimal. -/
def render (decimal : Decimal) : List Char :=
  let trimmed := decimal.trim 20
  let digits := Nat.toDigits 10 trimmed.digits
  let lead : Int := trimmed.exponent + digits.length - 1
  if -4 ≤ lead ∧ lead < 16 then positional digits lead else scientific digits lead

end Decimal

/-- The text of a number. What is no number has no sign. -/
def render (number : Binary64) : String :=
  let sign := if number.isNegative then ['-'] else []
  String.ofList <| match number.magnitude with
    | .zero => sign ++ ['0', '.', '0']
    | .finite value => sign ++ value.shortest.render
    | .infinite => sign ++ ['i', 'n', 'f']
    | .notANumber => ['N', 'a', 'N']

end Binary64

end PadLang
