/-
This file holds tokens: what one lexeme of a source text means.

Most tokens are marks, whose kind says everything: punctuation, keywords, and also the
identifiers, comments and blanks, of which only the lexeme matters. The others are literals
and builtin names, which carry the value that their lexeme denotes. The value is found when
the token is made, so no later pass reads a lexeme again.
-/

import PadLang.Position
import PadLang.Token.Literal
import PadLang.Text.Escape

namespace PadLang

/-! ### Kinds -/

/-- The kinds of tokens without a value. -/
inductive Mark where
  | plus
  | minus
  | star
  | slash
  | assign
  | equal
  | notEqual
  | less
  | lessEqual
  | greater
  | greaterEqual
  | openParen
  | closeParen
  | openCurly
  | closeCurly
  | openSquare
  | closeSquare
  | comma
  | semicolon
  | colon
  | arrow
  | intType
  | floatType
  | boolType
  | colourType
  | identifier
  | letWord
  | funWord
  | returnWord
  | ifWord
  | elseWord
  | forWord
  | whileWord
  | andWord
  | orWord
  | notWord
  | asWord
  | comment
  | whitespace
  | endOfFile
deriving DecidableEq, Repr

/-- The name of a mark in token dumps. -/
def Mark.name : Mark → String
  | .plus => "PLUS"
  | .minus => "MINUS"
  | .star => "STAR"
  | .slash => "SLASH"
  | .assign => "ASSIGN"
  | .equal => "EQUAL"
  | .notEqual => "NOT_EQUAL"
  | .less => "LESS"
  | .lessEqual => "LESS_EQUAL"
  | .greater => "GREATER"
  | .greaterEqual => "GREATER_EQUAL"
  | .openParen => "OPEN_PAREN"
  | .closeParen => "CLOSE_PAREN"
  | .openCurly => "OPEN_CURLY"
  | .closeCurly => "CLOSE_CURLY"
  | .openSquare => "OPEN_SQUARE"
  | .closeSquare => "CLOSE_SQUARE"
  | .comma => "COMMA"
  | .semicolon => "SEMICOLON"
  | .colon => "COLON"
  | .arrow => "ARROW"
  | .intType => "INT_TYPE"
  | .floatType => "FLOAT_TYPE"
  | .boolType => "BOOL_TYPE"
  | .colourType => "COLOUR_TYPE"
  | .identifier => "IDENTIFIER"
  | .letWord => "LET"
  | .funWord => "FUN"
  | .returnWord => "RETURN"
  | .ifWord => "IF"
  | .elseWord => "ELSE"
  | .forWord => "FOR"
  | .whileWord => "WHILE"
  | .andWord => "AND"
  | .orWord => "OR"
  | .notWord => "NOT"
  | .asWord => "AS"
  | .comment => "COMMENT"
  | .whitespace => "WHITESPACE"
  | .endOfFile => "END_OF_FILE"

/-- The kind of a token: a mark, a literal of some scalar type, or a builtin name. -/
inductive TokenKind where
  | mark (mark : Mark)
  | literal (base : Base)
  | builtin
deriving DecidableEq, Repr

namespace TokenKind

/-- The name of a kind in token dumps. -/
def name : TokenKind → String
  | .mark sign => sign.name
  | .literal .int => "INTEGER"
  | .literal .float => "FLOAT"
  | .literal .bool => "BOOL"
  | .literal .colour => "COLOUR"
  | .builtin => "BUILTIN"

/-- The words that look like identifiers and are not. -/
def reserved : List (String × TokenKind) :=
  [("int", .mark .intType),
   ("float", .mark .floatType),
   ("bool", .mark .boolType),
   ("colour", .mark .colourType),
   ("color", .mark .colourType),
   ("true", .literal .bool),
   ("false", .literal .bool),
   ("let", .mark .letWord),
   ("fun", .mark .funWord),
   ("return", .mark .returnWord),
   ("if", .mark .ifWord),
   ("else", .mark .elseWord),
   ("for", .mark .forWord),
   ("while", .mark .whileWord),
   ("and", .mark .andWord),
   ("or", .mark .orWord),
   ("not", .mark .notWord),
   ("as", .mark .asWord)]

/-- The kind of a lexeme once reserved words are told apart from identifiers. -/
def refine (kind : TokenKind) (lexeme : String) : TokenKind :=
  if kind = .mark .identifier then (reserved.lookup lexeme).getD kind else kind

end TokenKind

/-! ### Builtins -/

/-- The names with two leading underscores: what the pad can be asked and told. -/
inductive Builtin where
  | width
  | height
  | read
  | randomInt
  | print
  | delay
  | write
  | writeBox
  | clear
deriving DecidableEq, Repr

namespace Builtin

/-- Whether a builtin stands as a statement. The others stand in expressions. -/
def isStatement : Builtin → Bool
  | .width | .height | .read | .randomInt => false
  | .print | .delay | .write | .writeBox | .clear => true

/-- The lexeme of a builtin. -/
def render : Builtin → String
  | .width => "__width"
  | .height => "__height"
  | .read => "__read"
  | .randomInt => "__random_int"
  | .print => "__print"
  | .delay => "__delay"
  | .write => "__write"
  | .writeBox => "__write_box"
  | .clear => "__clear"

/-- Every builtin. -/
def all : List Builtin :=
  [.width, .height, .read, .randomInt, .print, .delay, .write, .writeBox, .clear]

/-- The builtin with a given lexeme. -/
def ofText? (lexeme : String) : Option Builtin :=
  all.find? fun builtin => builtin.render == lexeme

end Builtin

/-! ### Lexical errors -/

/-- Why a lexeme is not a token. -/
inductive LexicalError where
  /-- The characters form no token. -/
  | unrecognized (lexeme : String)
  /-- There is no builtin of this name. -/
  | unknownBuiltin (lexeme : String)
  /-- The integer is out of range. -/
  | integerOverflow (lexeme : String)
deriving DecidableEq, Repr

/-- The lexeme an error rejects. -/
def LexicalError.lexeme : LexicalError → String
  | .unrecognized lexeme => lexeme
  | .unknownBuiltin lexeme => lexeme
  | .integerOverflow lexeme => lexeme

/-- The text of a lexical error. -/
def LexicalError.message : LexicalError → String
  | .unrecognized lexeme => s!"unrecognized lexeme `{lexeme}`"
  | .unknownBuiltin lexeme => s!"undefined builtin `{lexeme}`"
  | .integerOverflow lexeme => s!"integer literal `{lexeme}` does not fit in 64 bits"

/-! ### Tokens -/

/-- What a token means. -/
inductive Content where
  | mark (mark : Mark)
  | literal (value : Literal)
  | builtin (name : Builtin)
deriving DecidableEq, Repr

namespace Content

/-- The kind of a content. -/
def kind : Content → TokenKind
  | .mark sign => .mark sign
  | .literal value => .literal value.base
  | .builtin _ => .builtin

/-- Reads a lexeme as text of a given kind. -/
def read (kind : TokenKind) (lexeme : String) : Except LexicalError Content :=
  match kind with
  | .mark sign => .ok (.mark sign)
  | .literal .int =>
    match Literal.integer? lexeme.toList with
    | some value => .ok (.literal (.int value))
    | none => .error (.integerOverflow lexeme)
  | .literal .float =>
    match Binary64.ofText? lexeme with
    | some value => .ok (.literal (.float value))
    | none => .error (.unrecognized lexeme)
  | .literal .colour =>
    match Colour.ofText? lexeme with
    | some value => .ok (.literal (.colour value))
    | none => .error (.unrecognized lexeme)
  | .literal .bool => .ok (.literal (.bool (lexeme == "true")))
  | .builtin =>
    match Builtin.ofText? lexeme with
    | some found => .ok (.builtin found)
    | none => .error (.unknownBuiltin lexeme)

end Content

/-- A token: its place, its lexeme and what it means. -/
structure Token where
  position : Position
  lexeme : String
  content : Content
deriving DecidableEq, Repr

namespace Token

/-- Makes a token of a lexeme, telling reserved words apart from identifiers. -/
def read (kind : TokenKind) (lexeme : String) (position : Position) :
    Except LexicalError Token := do
  let content ← Content.read (kind.refine lexeme) lexeme
  return { position, lexeme, content }

/-- The token after the last lexeme. -/
def endOfFile (position : Position) : Token :=
  { position, lexeme := "", content := .mark .endOfFile }

/-- The kind of a token. -/
def kind (token : Token) : TokenKind :=
  token.content.kind

/-- Whether a token is a given mark. -/
def isMark (token : Token) (mark : Mark) : Bool :=
  token.content == .mark mark

/-- Whether a token means nothing to the grammar. -/
def isTrivia (token : Token) : Bool :=
  token.isMark .comment || token.isMark .whitespace

/-- How an error message names a token. -/
def describe (token : Token) : String :=
  if token.isMark .endOfFile then "end of file" else s!"`{token.lexeme}`"

/-- The line of a token in a dump. -/
def dumpLine (token : Token) : String :=
  token.position.render ++ " " ++ token.kind.name ++ "(" ++ Text.escapeLexeme token.lexeme ++ ")\n"

/-- The dump of a list of tokens, one line each. -/
def dump (tokens : List Token) : String :=
  String.join (tokens.map dumpLine)

end Token

end PadLang
