/-
This file writes text so that it stays on one line and shows every character: quotes,
backslashes and control characters become escapes, and what has no visible form becomes
its code point in braces.

Lexemes in a token dump stand bare, and only their first character could join onto what is
written before it. Quoted strings keep an apostrophe as it is, and escape every character
that joins onto another.
-/

import PadLang.Text.Unprintable
import PadLang.Text.Extending

namespace PadLang

namespace Text

/-- What two kinds of escaped text decide differently. -/
structure EscapePolicy where
  /-- Whether an apostrophe is escaped. -/
  apostrophe : Bool
  /-- Whether a character that joins onto the one before it is escaped. -/
  extending : Bool

/-- The escape by code point: lower-case hexadecimal digits in braces. -/
def codePoint (character : Char) : List Char :=
  ['\\', 'u', '\x7b'] ++ Nat.toDigits 16 character.toNat ++ ['\x7d']

/-- One character, escaped if it has to be. -/
def escapeChar (policy : EscapePolicy) (character : Char) : List Char :=
  match character with
  | '\x00' => ['\\', '0']
  | '\t' => ['\\', 't']
  | '\r' => ['\\', 'r']
  | '\n' => ['\\', 'n']
  | '\\' => ['\\', '\\']
  | '"' => ['\\', '"']
  | '\'' => if policy.apostrophe then ['\\', '\''] else ['\'']
  | other =>
    if policy.extending && isExtending other then codePoint other
    else if isPrintable other then [other]
    else codePoint other

/-- The bare form of a lexeme. -/
def escapeLexeme (lexeme : String) : String :=
  String.ofList <| match lexeme.toList with
    | [] => []
    | first :: rest =>
      escapeChar ⟨true, true⟩ first ++ rest.flatMap (escapeChar ⟨true, false⟩)

/-- The quoted form of a text. -/
def quote (text : String) : String :=
  String.ofList (['"'] ++ text.toList.flatMap (escapeChar ⟨false, true⟩) ++ ['"'])

end Text

end PadLang
