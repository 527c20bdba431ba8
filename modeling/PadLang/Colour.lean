/-
This file holds the colours of the pad: three channels of eight bits, written as a hash
sign and six hexadecimal digits. Both cases are read; lower case is written.
-/

namespace PadLang

/-- A colour of 24 bits. -/
structure Colour where
  red : UInt8
  green : UInt8
  blue : UInt8
deriving DecidableEq, Repr

namespace Colour

/-- The value of a hexadecimal digit of either case. -/
def hexValue? (digit : Char) : Option Nat :=
  if '0' ≤ digit ∧ digit ≤ '9' then some (digit.toNat - '0'.toNat)
  else if 'a' ≤ digit ∧ digit ≤ 'f' then some (digit.toNat - 'a'.toNat + 10)
  else if 'A' ≤ digit ∧ digit ≤ 'F' then some (digit.toNat - 'A'.toNat + 10)
  else none

/-- The channel that two hexadecimal digits stand for. -/
def channel? (high low : Char) : Option UInt8 := do
  let high ← hexValue? high
  let low ← hexValue? low
  return UInt8.ofNat (16 * high + low)

/-- Reads a colour. Anything but a hash sign and exactly six digits is refused. -/
def ofChars? : List Char → Option Colour
  | ['#', r₁, r₂, g₁, g₂, b₁, b₂] => do
    let red ← channel? r₁ r₂
    let green ← channel? g₁ g₂
    let blue ← channel? b₁ b₂
    return { red, green, blue }
  | _ => none

/-- Reads a colour from a lexeme. -/
def ofText? (lexeme : String) : Option Colour :=
  ofChars? lexeme.toList

/-- One hexadecimal digit, in lower case. -/
def hexDigit (value : Nat) : Char :=
  Nat.digitChar value

/-- The two digits of a channel. -/
def channelChars (channel : UInt8) : List Char :=
  [hexDigit (channel.toNat / 16), hexDigit (channel.toNat % 16)]

/-- The text of a colour. -/
def render (colour : Colour) : String :=
  String.ofList
    ('#' :: (channelChars colour.red ++ channelChars colour.green ++ channelChars colour.blue))

end Colour

end PadLang
