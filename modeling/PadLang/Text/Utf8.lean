/-
This file reads text from octets in UTF-8.

What is not UTF-8 is cut into the longest beginnings of characters that it holds, so that
reading always goes on. A strict reader refuses a text with such a piece in it, a lenient
one puts the replacement character in its place.
-/

namespace PadLang

namespace Utf8

/-- What the first octet of a longer character says about the octets after it. -/
structure Lead where
  /-- How many octets follow. -/
  following : Nat
  /-- The least second octet. -/
  low : UInt8
  /-- The greatest second octet. -/
  high : UInt8
  /-- The bits of the character that the first octet holds. -/
  bits : Nat

/-- Reads the first octet of a character of two octets or more. The range of the second one
leaves out longer forms of shorter characters, surrogates, and what lies beyond Unicode. -/
def lead? (octet : UInt8) : Option Lead :=
  if octet < 0xC2 then none
  else if octet < 0xE0 then some ⟨1, 0x80, 0xBF, octet.toNat - 0xC0⟩
  else if octet < 0xF0 then
    let low := if octet = 0xE0 then 0xA0 else 0x80
    let high := if octet = 0xED then 0x9F else 0xBF
    some ⟨2, low, high, octet.toNat - 0xE0⟩
  else if octet < 0xF5 then
    let low := if octet = 0xF0 then 0x90 else 0x80
    let high := if octet = 0xF4 then 0x8F else 0xBF
    some ⟨3, low, high, octet.toNat - 0xF0⟩
  else none

/-- Reads the octets that still have to follow, the next one within a range, and gives what
is left. An octet that does not fit is left. -/
def follow : Nat → UInt8 → UInt8 → Nat → List UInt8 → Option Char × List UInt8
  | 0, _, _, bits, octets => (some (Char.ofNat bits), octets)
  | _ + 1, _, _, _, [] => (none, [])
  | missing + 1, low, high, bits, octet :: rest =>
    if low ≤ octet ∧ octet ≤ high then
      follow missing 0x80 0xBF (64 * bits + (octet.toNat - 0x80)) rest
    else (none, octet :: rest)

/-- Reads one character, or a piece that is none, and gives what is left. -/
def next (octet : UInt8) (rest : List UInt8) : Option Char × List UInt8 :=
  if octet < 0x80 then (some (Char.ofNat octet.toNat), rest)
  else match lead? octet with
    | none => (none, rest)
    | some lead => follow lead.following lead.low lead.high lead.bits rest

/-- Following octets only ever takes octets away. -/
theorem length_follow_le (missing : Nat) (low high : UInt8) (bits : Nat) (octets : List UInt8) :
    (follow missing low high bits octets).2.length ≤ octets.length := by
  induction missing generalizing low high bits octets with
  | zero => exact Nat.le_refl _
  | succ missing inductionHypothesis =>
    cases octets with
    | nil => exact Nat.le_refl _
    | cons octet rest =>
      unfold follow
      split
      · exact Nat.le_succ_of_le (inductionHypothesis _ _ _ _)
      · exact Nat.le_refl _

/-- Reading a character leaves no more than what came after its first octet. -/
theorem length_next_le (octet : UInt8) (rest : List UInt8) :
    (next octet rest).2.length ≤ rest.length := by
  unfold next
  split
  · exact Nat.le_refl _
  · split
    · exact Nat.le_refl _
    · exact length_follow_le _ _ _ _ _

/-- The characters of a text, with `none` for each piece that is no character. -/
def pieces : List UInt8 → List (Option Char)
  | [] => []
  | octet :: rest => (next octet rest).1 :: pieces (next octet rest).2
termination_by octets => octets.length
decreasing_by exact Nat.lt_succ_of_le (length_next_le octet rest)

/-- Reads a text that is UTF-8 throughout. -/
def decode? (octets : List UInt8) : Option String :=
  ((pieces octets).mapM id).map String.ofList

/-- Reads a text, with a replacement character for each piece that is none. -/
def decodeLossy (octets : List UInt8) : String :=
  String.ofList ((pieces octets).map fun piece => piece.getD '�')

end Utf8

end PadLang
