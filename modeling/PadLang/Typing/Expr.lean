/-
This file finds the types of expressions.

An expression is checked against the scopes around it, which it does not change. The result
is the same expression with a type on every node, or the complaints about it. Of an
operation both operands are checked, so one expression can be complained about more than
once; everywhere else the first complaint ends the check.
-/

import PadLang.Scope.Basic
import PadLang.Typing.Complaint

namespace PadLang

namespace Typing

/-- The complaints about a piece of a program, in order. -/
abbrev Complaints := List (Located Complaint)

/-- A typed expression, or the complaints about it. -/
abbrev Typed := Except Complaints (Expr × Ty)

/-- One complaint. -/
def complain {α : Type} (position : Position) (complaint : Complaint) : Except Complaints α :=
  .error [{ position, value := complaint }]

/-! ### Names -/

/-- The type of the variable that a name stands for. -/
def variableType (tree : ScopeTree) (scope : ScopeId) (name : Ident) : Except Complaints Ty :=
  match tree.lookupVariable? scope name.value with
  | some found => .ok found.type
  | none =>
    if (tree.lookupFunction? name.value).isSome then
      complain name.position (.notAVariable name.value)
    else complain name.position (.undeclared name.value)

/-- The type of the elements of the array that a name stands for. -/
def elementType (name : Ident) (type : Ty) : Except Complaints Ty :=
  match type.element? with
  | some found => .ok found
  | none => complain name.position (.notAnArray name.value)

/-- The function that a call names. -/
def callee (tree : ScopeTree) (scope : ScopeId) (name : Ident) : Except Complaints Signature :=
  match tree.lookupFunction? name.value with
  | some signature => .ok signature
  | none =>
    if (tree.lookupVariable? scope name.value).isSome then
      complain name.position (.notAFunction name.value)
    else complain name.position (.undeclared name.value)

/-! ### Operators -/

/-- Whether an operator takes operands of a type. -/
def takesOperand : BinaryOperator → Ty → Bool
  | .or, type | .and, type => type == .bool
  | .multiply, type | .divide, type => !type.isArray && type != .colour
  | _, type => !type.isArray

/-- The type of an operation on two operands of a type. -/
def operationType : BinaryOperator → Ty → Ty
  | .add, type | .subtract, type | .multiply, type | .divide, type => type
  | _, _ => .bool

/-- Whether a unary operator takes an operand of a type. -/
def takesUnaryOperand : UnaryOperator → Ty → Bool
  | .not, type => type == .bool
  | .negate, type => !type.isArray && type != .bool

/-- The type of an operation, given the places and types of its operands. -/
def operation (operator : BinaryOperator) (leftPosition : Position) (left : Ty)
    (rightPosition : Position) (right : Ty) : Except Complaints Ty :=
  if !takesOperand operator left then
    complain leftPosition (.badOperand operator.render left)
  else if !takesOperand operator right then
    complain rightPosition (.badOperand operator.render right)
  else if left ≠ right then
    complain leftPosition (.operandMismatch operator left right)
  else .ok (operationType operator left)

/-! ### Conversions and expectations -/

/-- The type of an expression after its conversion, if it has one. -/
def converted (note : Note) (type : Ty) : Except Complaints Ty :=
  match note.cast with
  | none => .ok type
  | some cast =>
    if type.castableTo cast.value then .ok cast.value
    else complain cast.position (.invalidCast type cast.value)

/-- An expression whose parts are typed: applies its conversion and notes the type. -/
def finish (expr : Expr) (type : Ty) : Typed := do
  let type ← converted expr.note type
  return (expr.withType type, type)

/-- Requires a typed expression to have a given type. -/
def require (typed : Typed) (position : Position) (expected : Ty) : Except Complaints Expr := do
  let (expr, found) ← typed
  if found = expected then return expr
  else complain position (.wrongType expected found)

/-- Both results, or the complaints of both. -/
def both {α β : Type} : Except Complaints α → Except Complaints β → Except Complaints (α × β)
  | .ok first, .ok second => .ok (first, second)
  | .error first, .ok _ => .error first
  | .ok _, .error second => .error second
  | .error first, .error second => .error (first ++ second)

/-- The element type of an array literal after one more element: the first element decides,
and the others have to agree with it. -/
def agree (first : Option Ty) (position : Position) (found : Ty) : Except Complaints Ty :=
  if found.isArray then complain position .nestedArray
  else match first with
    | none => .ok found
    | some expected =>
      if expected = found then .ok expected
      else complain position (.heterogeneousArray expected found)

/-- The type of an array literal of so many elements. -/
def arrayType (position : Position) (size : Nat) : Option Ty → Except Complaints Ty
  | some element => .ok (.array size element)
  | none => complain position .emptyArray

/-! ### Expressions -/

mutual

/-- Finds the type of an expression. -/
def expression (tree : ScopeTree) (scope : ScopeId) : Expr → Typed
  | .literal note value => finish (.literal note value) (.base value.base)
  | .array note items => do
    let (items, element) ← elements tree scope none items
    let type ← arrayType note.position items.length element
    finish (.array note items) type
  | .side note which => finish (.side note which) .int
  | .read note x y => do
    let x ← require (expression tree scope x) x.position .int
    let y ← require (expression tree scope y) y.position .int
    finish (.read note x y) .colour
  | .randomInt note limit => do
    let limit ← require (expression tree scope limit) limit.position .int
    finish (.randomInt note limit) .int
  | .var note name => do
    let type ← variableType tree scope { position := note.position, value := name }
    finish (.var note name) type
  | .index note name offset => do
    let array ← variableType tree scope name
    let type ← elementType name array
    let offset ← require (expression tree scope offset) offset.position .int
    finish (.index note name offset) type
  | .call note function items => do
    let signature ← callee tree scope function
    if signature.parameters.length ≠ items.length then
      complain function.position
        (.arity function.value signature.parameters.length items.length)
    else
      let items ← arguments tree scope function.value 1 signature.parameters items
      finish (.call note function items) signature.returns
  | .group note inner => do
    let (inner, type) ← expression tree scope inner
    finish (.group note inner) type
  | .binary note left operator right => do
    let ((typedLeft, leftType), (typedRight, rightType)) ←
      both (expression tree scope left) (expression tree scope right)
    let type ← operation operator left.position leftType right.position rightType
    finish (.binary note typedLeft operator typedRight) type
  | .unary note operator operand => do
    let (operand, type) ← expression tree scope operand
    if takesUnaryOperand operator type then finish (.unary note operator operand) type
    else complain note.position (.badOperand operator.render type)

/-- Finds the types of the elements of an array literal, which must all agree with the
first. -/
def elements (tree : ScopeTree) (scope : ScopeId) (first : Option Ty) :
    List Expr → Except Complaints (List Expr × Option Ty)
  | [] => .ok ([], first)
  | item :: rest => do
    let (typed, found) ← expression tree scope item
    let type ← agree first item.position found
    let (others, element) ← elements tree scope (some type) rest
    return (typed :: others, element)

/-- Finds the types of the arguments of a call, from the given place on. -/
def arguments (tree : ScopeTree) (scope : ScopeId) (function : String) (index : Nat) :
    List Ty → List Expr → Except Complaints (List Expr)
  | expected :: parameters, item :: rest => do
    let (typed, found) ← expression tree scope item
    if found = expected then
      let others ← arguments tree scope function (index + 1) parameters rest
      return typed :: others
    else complain item.position (.argument function index expected found)
  | _, _ => .ok []

end

/-- Requires an expression to have a given type. -/
def expect (tree : ScopeTree) (scope : ScopeId) (expr : Expr) (expected : Ty) :
    Except Complaints Expr :=
  require (expression tree scope expr) expr.position expected

end Typing

end PadLang
