/-
This file splits a source text into tokens.

Each step takes the longest lexeme at the front of what is left. A lexeme that is no token
is reported and skipped, so one scan finds every lexical error of a text. The scan ends
with one end-of-file token.
-/

import PadLang.Token.Lexicon

namespace PadLang

/-- What a scan finds at one place: a token, or the reason why there is none. -/
abbrev Item := Except (Located LexicalError) Token

namespace Scan

/-- The item that a lexeme becomes under the verdict of the automaton. -/
def item (verdict : Verdict TokenKind) (lexeme : String) (position : Position) : Item :=
  let result := match verdict with
    | .accepted kind _ => Token.read kind lexeme position
    | .rejected _ => .error (.unrecognized lexeme)
  result.mapError fun error => { position, value := error }

/-- The items of the rest of a text, from the position where it begins. A lexeme has at
least one character, so each step leaves less text. -/
def itemsFrom (position : Position) : List Char → Except Fault (List Item)
  | [] => .ok [.ok (Token.endOfFile position)]
  | first :: rest => do
    let verdict := Lexicon.automaton.longestMatch (first :: rest)
    let lexeme := first :: rest.take (verdict.length - 1)
    let next ← position.afterAll lexeme
    let items ← itemsFrom next (rest.drop (verdict.length - 1))
    return item verdict (String.ofList lexeme) position :: items
termination_by text => text.length
decreasing_by
  simp only [List.length_drop, List.length_cons]
  omega

/-- The items of a whole text. -/
def items (source : String) : Except Fault (List Item) :=
  itemsFrom {} source.toList

/-- The errors among the items, in order. -/
def errors (items : List Item) : List (Located LexicalError) :=
  items.filterMap fun
    | .ok _ => none
    | .error error => some error

/-- The tokens among the items, in order. -/
def tokens (items : List Item) : List Token :=
  items.filterMap fun
    | .ok token => some token
    | .error _ => none

/-- All tokens, or all errors if there is one. -/
def settle (items : List Item) : Except (List (Located LexicalError)) (List Token) :=
  match errors items with
  | [] => .ok (tokens items)
  | found => .error found

end Scan

end PadLang
