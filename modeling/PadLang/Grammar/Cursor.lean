/-
This file holds what the rules of the grammar are made of.

A cursor stands between the tokens already read and those ahead. The grammar sees only
significant tokens, and none beyond the first end of file; that token is never consumed.
If the tokens end without one, an end of file is assumed where the last token is.

A rule reads something from the front of a cursor. It succeeds, or it refuses the token it
has come to, with the reason. Rules that repeat or nest are given an allowance, which bounds
how often they do; running out of it is an outcome of its own, never mistaken for a success
or a refusal.
-/

import PadLang.Token.Basic
import PadLang.Syntax.Basic

namespace PadLang

/-! ### Parse errors -/

/-- The text by which a message refers to a mark. -/
def Mark.spelling : Mark → String
  | .plus => "+"
  | .minus => "-"
  | .star => "*"
  | .slash => "/"
  | .assign => "="
  | .equal => "=="
  | .notEqual => "!="
  | .less => "<"
  | .lessEqual => "<="
  | .greater => ">"
  | .greaterEqual => ">="
  | .openParen => "("
  | .closeParen => ")"
  | .openCurly => "\x7b"
  | .closeCurly => "\x7d"
  | .openSquare => "["
  | .closeSquare => "]"
  | .comma => ","
  | .semicolon => ";"
  | .colon => ":"
  | .arrow => "->"
  | .intType => "int"
  | .floatType => "float"
  | .boolType => "bool"
  | .colourType => "colour"
  | .identifier => "identifier"
  | .letWord => "let"
  | .funWord => "fun"
  | .returnWord => "return"
  | .ifWord => "if"
  | .elseWord => "else"
  | .forWord => "for"
  | .whileWord => "while"
  | .andWord => "and"
  | .orWord => "or"
  | .notWord => "not"
  | .asWord => "as"
  | .comment => "comment"
  | .whitespace => "whitespace"
  | .endOfFile => "end of file"

/-- What a rule was waiting for. -/
inductive Expectation where
  | mark (mark : Mark)
  | statement
deriving DecidableEq, Repr

/-- How a message names an expectation. -/
def Expectation.render : Expectation → String
  | .mark .identifier => "an identifier"
  | .mark other => s!"`{other.spelling}`"
  | .statement => "a statement"

/-- Why a token was refused. What was found is kept as the message names it. -/
inductive ParseError where
  | unexpected (expected : Expectation) (found : String)
  | expectedExpression (found : String)
  | expectedType (found : String)
  | badArraySize (found : String)
deriving DecidableEq, Repr

/-- The text of a parse error. -/
def ParseError.message : ParseError → String
  | .unexpected expected found => s!"expected {expected.render}, found {found}"
  | .expectedExpression found => s!"expected an expression, found {found}"
  | .expectedType found => s!"expected one of `int`, `float`, `bool`, `colour`, found {found}"
  | .badArraySize found => s!"array size must be a positive integer literal, found {found}"

/-! ### Cursors -/

/-- A place between two significant tokens. -/
structure Cursor where
  /-- The tokens ahead, up to the end of file. -/
  ahead : List Token
  /-- The end of file. -/
  finish : Token
  /-- Where the last consumed token was. -/
  behind : Position
  /-- The errors recovered from so far, in order. -/
  errors : List (Located ParseError)
deriving DecidableEq, Repr

namespace Cursor

/-- The position of the last token of a list, or the start of a text if there is none. -/
def lastPosition (tokens : List Token) : Position :=
  (tokens.getLast?.map Token.position).getD {}

/-- The cursor in front of a list of tokens. -/
def ofTokens (tokens : List Token) : Cursor :=
  let significant := tokens.filter fun token => !token.isTrivia
  { ahead := significant.takeWhile fun token => !token.isMark .endOfFile
    finish := (significant.find? fun token => token.isMark .endOfFile).getD
      (Token.endOfFile (lastPosition tokens))
    behind := {}
    errors := [] }

/-- The next token, which may be the end of file. -/
def peek (cursor : Cursor) : Token :=
  cursor.ahead.headD cursor.finish

/-- The token after the next one. -/
def peekSecond (cursor : Cursor) : Token :=
  cursor.ahead.tail.headD cursor.finish

/-- The cursor after the next token. The end of file stays where it is. -/
def advance (cursor : Cursor) : Cursor :=
  match cursor.ahead with
  | [] => cursor
  | token :: rest => { cursor with ahead := rest, behind := token.position }

end Cursor

/-! ### Rules -/

/-- How a rule ends. -/
inductive Outcome (α : Type) where
  | done (value : α) (cursor : Cursor)
  | refused (error : Located ParseError) (cursor : Cursor)
  | exhausted
deriving Repr

/-- A rule of the grammar. -/
def Rule (α : Type) := Cursor → Outcome α

namespace Rule

/-- Goes on with a rule that depends on what was read. -/
def andThen {α β : Type} (first : Rule α) (second : α → Rule β) : Rule β := fun cursor =>
  match first cursor with
  | .done value next => second value next
  | .refused error next => .refused error next
  | .exhausted => .exhausted

instance : Monad Rule where
  pure value := fun cursor => .done value cursor
  bind := andThen

/-- The rule whose allowance is used up. -/
def exhausted {α : Type} : Rule α := fun _ => .exhausted

/-- The next token, left in place. -/
def peek : Rule Token := fun cursor => .done cursor.peek cursor

/-- The token after the next one, both left in place. -/
def peekSecond : Rule Token := fun cursor => .done cursor.peekSecond cursor

/-- Consumes the next token. -/
def advance : Rule Token := fun cursor => .done cursor.peek cursor.advance

/-- Where the last consumed token was. -/
def behind : Rule Position := fun cursor => .done cursor.behind cursor

/-- Refuses the next token. -/
def refuse {α : Type} (error : String → ParseError) : Rule α := fun cursor =>
  .refused ⟨cursor.peek.position, error cursor.peek.describe⟩ cursor

/-- Whether the next token is a given mark. -/
def sees (mark : Mark) : Rule Bool := fun cursor =>
  .done (cursor.peek.isMark mark) cursor

/-- Consumes a given mark, or refuses what stands in its place. -/
def expect (mark : Mark) : Rule Token := fun cursor =>
  if cursor.peek.isMark mark then advance cursor
  else refuse (.unexpected (.mark mark)) cursor

/-- Reads an identifier. -/
def identifier : Rule Ident := do
  let token ← expect .identifier
  return { position := token.position, value := token.lexeme }

/-- Reads items with commas between them, at least one and at most as many as allowed. -/
def commaSeparated {α : Type} (item : Rule α) : (allowance : Nat) → Rule (List α)
  | 0 => exhausted
  | allowance + 1 => do
    let first ← item
    if ← sees .comma then
      let _ ← advance
      let rest ← commaSeparated item allowance
      return first :: rest
    else
      return [first]

end Rule

end PadLang
