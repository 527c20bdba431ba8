/-
This file holds the syntax tree of programs.

Every node knows where it begins, and every statement also where its last token is. Two
things are left open by the grammar and filled in by analysis: the type of an expression
and the scope that a block opens. Both are optional, so that the same tree serves before
and after analysis.
-/

import PadLang.Position
import PadLang.Token.Literal

namespace PadLang

/-! ### Names and operators -/

/-- A name with the place where it stands. -/
abbrev Ident := Located String

/-- The number of a scope: scopes are numbered from zero, the global one, as they open. -/
abbrev ScopeId := Nat

/-- The operators between two operands. -/
inductive BinaryOperator where
  | or
  | and
  | equal
  | notEqual
  | less
  | lessOrEqual
  | greater
  | greaterOrEqual
  | add
  | subtract
  | multiply
  | divide
deriving DecidableEq, Repr

/-- The spelling of an operator. -/
def BinaryOperator.render : BinaryOperator → String
  | .or => "or"
  | .and => "and"
  | .equal => "=="
  | .notEqual => "!="
  | .less => "<"
  | .lessOrEqual => "<="
  | .greater => ">"
  | .greaterOrEqual => ">="
  | .add => "+"
  | .subtract => "-"
  | .multiply => "*"
  | .divide => "/"

/-- The operators in front of one operand. -/
inductive UnaryOperator where
  | not
  | negate
deriving DecidableEq, Repr

/-- The spelling of an operator. -/
def UnaryOperator.render : UnaryOperator → String
  | .not => "not"
  | .negate => "-"

/-- The sides of the pad. -/
inductive Side where
  | width
  | height
deriving DecidableEq, Repr

/-! ### Expressions -/

/-- What every expression carries: where it begins, the type it is converted to by `as`, and
the type that analysis finds, conversion included. -/
structure Note where
  position : Position
  cast : Option (Located Ty) := none
  type : Option Ty := none
deriving DecidableEq, Repr

/-- An expression. -/
inductive Expr where
  | literal (note : Note) (value : Literal)
  | array (note : Note) (elements : List Expr)
  | side (note : Note) (which : Side)
  | read (note : Note) (x y : Expr)
  | randomInt (note : Note) (limit : Expr)
  | var (note : Note) (name : String)
  | index (note : Note) (name : Ident) (offset : Expr)
  | call (note : Note) (function : Ident) (arguments : List Expr)
  | group (note : Note) (inner : Expr)
  | binary (note : Note) (left : Expr) (operator : BinaryOperator) (right : Expr)
  | unary (note : Note) (operator : UnaryOperator) (operand : Expr)
deriving Repr

namespace Expr

/-- The note of an expression. -/
def note : Expr → Note
  | .literal note _ => note
  | .array note _ => note
  | .side note _ => note
  | .read note _ _ => note
  | .randomInt note _ => note
  | .var note _ => note
  | .index note _ _ => note
  | .call note _ _ => note
  | .group note _ => note
  | .binary note _ _ _ => note
  | .unary note _ _ => note

/-- The same expression with another note. -/
def withNote (note : Note) : Expr → Expr
  | .literal _ value => .literal note value
  | .array _ elements => .array note elements
  | .side _ which => .side note which
  | .read _ x y => .read note x y
  | .randomInt _ limit => .randomInt note limit
  | .var _ name => .var note name
  | .index _ name offset => .index note name offset
  | .call _ function arguments => .call note function arguments
  | .group _ inner => .group note inner
  | .binary _ left operator right => .binary note left operator right
  | .unary _ operator operand => .unary note operator operand

/-- Where an expression begins. -/
def position (expr : Expr) : Position := expr.note.position

/-- The type that analysis found. -/
def type? (expr : Expr) : Option Ty := expr.note.type

/-- The same expression, converted to a type. -/
def withCast (expr : Expr) (cast : Located Ty) : Expr :=
  expr.withNote { expr.note with cast := some cast }

/-- The same expression, with the type that analysis found. -/
def withType (expr : Expr) (type : Ty) : Expr :=
  expr.withNote { expr.note with type := some type }

end Expr

/-! ### Statements -/

/-- The places of the first and the last token of a statement. -/
structure Span where
  first : Position
  last : Position
deriving DecidableEq, Repr

/-- The declaration of a variable with its initial value. -/
structure Declaration where
  name : Ident
  type : Located Ty
  value : Expr
deriving Repr

/-- The assignment of a value to a variable, or to one element of an array. -/
structure Assignment where
  target : Ident
  index : Option Expr
  value : Expr
deriving Repr

/-- What a program tells the pad to do. -/
inductive Action where
  | print (value : Expr)
  | delay (milliseconds : Expr)
  | write (x y colour : Expr)
  | writeBox (x y width height colour : Expr)
  | clear (colour : Expr)
deriving Repr

/-- A parameter of a function. -/
structure Parameter where
  name : Ident
  type : Located Ty
deriving DecidableEq, Repr

/-- What a function declares ahead of its body, and the scope of its parameters once
analysis has opened it. -/
structure Header where
  name : Ident
  parameters : List Parameter
  returns : Located Ty
  scope : Option ScopeId := none
deriving DecidableEq, Repr

mutual

/-- A statement. -/
inductive Stmt where
  | assignment (span : Span) (assignment : Assignment)
  | declaration (span : Span) (declaration : Declaration)
  | action (span : Span) (action : Action)
  | block (span : Span) (body : Block)
  | function (span : Span) (header : Header) (body : Block)
  | conditional (span : Span) (condition : Expr) (consequent : Block) (alternative : Option Block)
  | forLoop (span : Span) (init : Option Declaration) (condition : Expr)
      (update : Option Assignment) (body : Block)
  | whileLoop (span : Span) (condition : Expr) (body : Block)
  | returnValue (span : Span) (value : Expr)

/-- A sequence of statements with a scope of its own, once analysis has opened it. -/
inductive Block where
  | mk (position : Position) (scope : Option ScopeId) (statements : List Stmt)

end

namespace Block

/-- Where the opening brace of a block is. -/
def position : Block → Position
  | .mk position _ _ => position

/-- The scope of a block. -/
def scope : Block → Option ScopeId
  | .mk _ scope _ => scope

/-- The statements of a block. -/
def statements : Block → List Stmt
  | .mk _ _ statements => statements

end Block

namespace Stmt

/-- The span of a statement. -/
def span : Stmt → Span
  | .assignment span _ => span
  | .declaration span _ => span
  | .action span _ => span
  | .block span _ => span
  | .function span _ _ => span
  | .conditional span _ _ _ => span
  | .forLoop span _ _ _ _ => span
  | .whileLoop span _ _ => span
  | .returnValue span _ => span

/-- Whether a statement defines a function. -/
def isFunction : Stmt → Bool
  | .function _ _ _ => true
  | _ => false

end Stmt

/-- A program: its top-level statements. -/
structure Program where
  statements : List Stmt

end PadLang
