/-
This file holds the automaton of the language: which character runs are lexemes, and of
which kind.

Blanks, words, numbers, colours, comments and operators each have their own few states. Two
underscores begin a builtin name and need at least one more character; a number has digits
on both sides of its point; a colour has exactly six digits; a block comment ends at the
first star and slash after its opening.
-/

import PadLang.Automaton
import PadLang.Token.Basic

namespace PadLang

namespace Lexicon

/-! ### Characters -/

/-- The categories of characters. -/
inductive CharClass where
  | newline
  | space
  | underscore
  | digit
  | letter
  | hexDigit
  | plus
  | minus
  | star
  | slash
  | equals
  | bang
  | less
  | greater
  | openParen
  | closeParen
  | openCurly
  | closeCurly
  | openSquare
  | closeSquare
  | comma
  | semicolon
  | colon
  | point
  | hash
  | notNewline
  | notStar
deriving DecidableEq, Repr

/-- The ASCII letters. -/
def isLetter (character : Char) : Bool :=
  ('a' ≤ character ∧ character ≤ 'z') ∨ ('A' ≤ character ∧ character ≤ 'Z')

/-- The hexadecimal digits of both cases. -/
def isHexDigit (character : Char) : Bool :=
  Text.isDigit character || ('a' ≤ character ∧ character ≤ 'f') || ('A' ≤ character ∧ character ≤ 'F')

/-- The test of each category. -/
def CharClass.test : CharClass → Char → Bool
  | .newline => (· == '\n')
  | .space => fun character => character == ' ' || character == '\t' || character == '\r'
  | .underscore => (· == '_')
  | .digit => Text.isDigit
  | .letter => isLetter
  | .hexDigit => isHexDigit
  | .plus => (· == '+')
  | .minus => (· == '-')
  | .star => (· == '*')
  | .slash => (· == '/')
  | .equals => (· == '=')
  | .bang => (· == '!')
  | .less => (· == '<')
  | .greater => (· == '>')
  | .openParen => (· == '(')
  | .closeParen => (· == ')')
  | .openCurly => (· == '\x7b')
  | .closeCurly => (· == '\x7d')
  | .openSquare => (· == '[')
  | .closeSquare => (· == ']')
  | .comma => (· == ',')
  | .semicolon => (· == ';')
  | .colon => (· == ':')
  | .point => (· == '.')
  | .hash => (· == '#')
  | .notNewline => (· != '\n')
  | .notStar => (· != '*')

/-- The categories in the order they are tried: the two complements come last, so that a
more telling category wins. -/
def classes : List CharClass :=
  [.newline, .space, .underscore, .digit, .letter, .hexDigit, .plus, .minus, .star, .slash,
   .equals, .bang, .less, .greater, .openParen, .closeParen, .openCurly, .closeCurly,
   .openSquare, .closeSquare, .comma, .semicolon, .colon, .point, .hash, .notNewline, .notStar]

/-! ### States -/

/-- What has been read of a lexeme. -/
inductive State where
  | start
  | whitespace
  | word
  | underscore
  | doubleUnderscore
  | builtin
  | integer
  | point
  | float
  | hash
  | hex (digits : Nat)
  | slash
  | lineComment
  | blockComment
  | blockStar
  | blockEnd
  | minus
  | arrow
  | assign
  | equal
  | bang
  | notEqual
  | less
  | lessEqual
  | greater
  | greaterEqual
  | single (mark : Mark)
deriving DecidableEq, Repr

/-- The transitions. -/
def step : State → CharClass → Option State
  | .start, .newline => some .whitespace
  | .start, .space => some .whitespace
  | .whitespace, .newline => some .whitespace
  | .whitespace, .space => some .whitespace
  | .start, .letter => some .word
  | .word, .letter => some .word
  | .word, .digit => some .word
  | .word, .underscore => some .word
  | .start, .underscore => some .underscore
  | .underscore, .letter => some .word
  | .underscore, .digit => some .word
  | .underscore, .underscore => some .doubleUnderscore
  | .doubleUnderscore, .letter => some .builtin
  | .doubleUnderscore, .digit => some .builtin
  | .doubleUnderscore, .underscore => some .builtin
  | .builtin, .letter => some .builtin
  | .builtin, .digit => some .builtin
  | .builtin, .underscore => some .builtin
  | .start, .digit => some .integer
  | .integer, .digit => some .integer
  | .integer, .point => some .point
  | .point, .digit => some .float
  | .float, .digit => some .float
  | .start, .hash => some .hash
  | .hash, .hexDigit => some (.hex 1)
  | .hex digits, .hexDigit => if digits < 6 then some (.hex (digits + 1)) else none
  | .start, .slash => some .slash
  | .slash, .slash => some .lineComment
  | .lineComment, .notNewline => some .lineComment
  | .slash, .star => some .blockComment
  | .blockComment, .star => some .blockStar
  | .blockComment, .notStar => some .blockComment
  | .blockStar, .star => some .blockStar
  | .blockStar, .slash => some .blockEnd
  | .blockStar, .notStar => some .blockComment
  | .start, .minus => some .minus
  | .minus, .greater => some .arrow
  | .start, .equals => some .assign
  | .assign, .equals => some .equal
  | .start, .bang => some .bang
  | .bang, .equals => some .notEqual
  | .start, .less => some .less
  | .less, .equals => some .lessEqual
  | .start, .greater => some .greater
  | .greater, .equals => some .greaterEqual
  | .start, .plus => some (.single .plus)
  | .start, .star => some (.single .star)
  | .start, .openParen => some (.single .openParen)
  | .start, .closeParen => some (.single .closeParen)
  | .start, .openCurly => some (.single .openCurly)
  | .start, .closeCurly => some (.single .closeCurly)
  | .start, .openSquare => some (.single .openSquare)
  | .start, .closeSquare => some (.single .closeSquare)
  | .start, .comma => some (.single .comma)
  | .start, .semicolon => some (.single .semicolon)
  | .start, .colon => some (.single .colon)
  | _, _ => none

/-- The kind of lexeme that is complete in a state. -/
def accepts : State → Option TokenKind
  | .whitespace => some (.mark .whitespace)
  | .word => some (.mark .identifier)
  | .underscore => some (.mark .identifier)
  | .builtin => some .builtin
  | .integer => some (.literal .int)
  | .float => some (.literal .float)
  | .hex digits => if digits = 6 then some (.literal .colour) else none
  | .slash => some (.mark .slash)
  | .lineComment => some (.mark .comment)
  | .blockEnd => some (.mark .comment)
  | .minus => some (.mark .minus)
  | .arrow => some (.mark .arrow)
  | .assign => some (.mark .assign)
  | .equal => some (.mark .equal)
  | .notEqual => some (.mark .notEqual)
  | .less => some (.mark .less)
  | .lessEqual => some (.mark .lessEqual)
  | .greater => some (.mark .greater)
  | .greaterEqual => some (.mark .greaterEqual)
  | .single mark => some (.mark mark)
  | .start | .doubleUnderscore | .point | .hash | .blockComment | .blockStar | .bang => none

/-- The automaton of the language. -/
def automaton : Automaton State CharClass TokenKind where
  categories := classes.map fun category => (category, category.test)
  step := step
  accepts := accepts
  start := .start

end Lexicon

end PadLang
