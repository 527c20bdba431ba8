/-
This file reads types and expressions.

Binary operators come in tiers, from the loosest to the tightest. Within a tier operators
associate to the left, except that equality associates to the right. Tighter than every
binary operator are the unary ones, and tighter still literals, names, calls, groups, array
literals and builtins. A conversion by `as` applies to a whole expression and is not
repeated.

An expression nested in another begins after at least one token of the outer one, and every
repetition consumes an operator or a comma. An allowance larger than the number of tokens
ahead is therefore never used up.
-/

import PadLang.Grammar.Cursor

namespace PadLang

namespace Grammar

open Rule

/-! ### Types -/

/-- The scalar type that a mark names. -/
def baseOf? : Mark → Option Base
  | .intType => some .int
  | .floatType => some .float
  | .boolType => some .bool
  | .colourType => some .colour
  | _ => none

/-- The scalar type that a token names. -/
def tokenBase? (token : Token) : Option Base :=
  match token.content with
  | .mark mark => baseOf? mark
  | _ => none

/-- The array size that a token denotes: a positive integer that a counter can hold. -/
def arraySize? (token : Token) : Option Nat :=
  match token.content with
  | .literal (.int size) => if 0 < size ∧ size < Counter.bound then some size.toNat else none
  | _ => none

/-- Reads a type: a scalar, or an array of scalars with its size in brackets. -/
def type : Rule (Located Ty) := do
  let token ← peek
  match tokenBase? token with
  | none => refuse .expectedType
  | some base =>
    let _ ← advance
    if ← sees .openSquare then
      let _ ← advance
      match arraySize? (← peek) with
      | none => refuse .badArraySize
      | some size =>
        let _ ← advance
        let _ ← expect .closeSquare
        return { position := token.position, value := .array size (.base base) }
    else
      return { position := token.position, value := .base base }

/-! ### Operators -/

/-- Which of two operators of one tier is applied first. -/
inductive Associativity where
  | left
  | right
deriving DecidableEq, Repr

/-- Operators of the same precedence. -/
structure Tier where
  associativity : Associativity
  operators : List (Mark × BinaryOperator)

/-- The tiers, from the loosest to the tightest. -/
def tiers : List Tier :=
  [⟨.left, [(.orWord, .or)]⟩,
   ⟨.left, [(.andWord, .and)]⟩,
   ⟨.right, [(.equal, .equal), (.notEqual, .notEqual)]⟩,
   ⟨.left, [(.less, .less), (.lessEqual, .lessOrEqual), (.greater, .greater),
     (.greaterEqual, .greaterOrEqual)]⟩,
   ⟨.left, [(.plus, .add), (.minus, .subtract)]⟩,
   ⟨.left, [(.star, .multiply), (.slash, .divide)]⟩]

/-- The operator of a tier that a token stands for. -/
def Tier.operator? (tier : Tier) (token : Token) : Option BinaryOperator :=
  match token.content with
  | .mark mark => tier.operators.lookup mark
  | _ => none

/-- The unary operator that a token stands for. -/
def unaryOperator? (token : Token) : Option UnaryOperator :=
  match token.content with
  | .mark .notWord => some .not
  | .mark .minus => some .negate
  | _ => none

/-- An operation, which begins where its left operand does. -/
def join (left : Expr) (operator : BinaryOperator) (right : Expr) : Expr :=
  .binary { position := left.position } left operator right

/-- Goes on with operators that associate to the left. -/
def leftChain (tier : Tier) (operand : Rule Expr) : (allowance : Nat) → Expr → Rule Expr
  | 0, _ => exhausted
  | allowance + 1, left => do
    match tier.operator? (← peek) with
    | none => return left
    | some operator =>
      let _ ← advance
      let right ← operand
      leftChain tier operand allowance (join left operator right)

/-- Reads operands with operators between them that associate to the right. -/
def rightChain (tier : Tier) (operand : Rule Expr) : (allowance : Nat) → Rule Expr
  | 0 => exhausted
  | allowance + 1 => do
    let left ← operand
    match tier.operator? (← peek) with
    | none => return left
    | some operator =>
      let _ ← advance
      let right ← rightChain tier operand allowance
      return join left operator right

/-- Reads an expression of the given tiers, whose operands are read by `tightest`. -/
def climb (tightest : Rule Expr) (allowance : Nat) : List Tier → Rule Expr
  | [] => tightest
  | tier :: tighter =>
    let operand := climb tightest allowance tighter
    match tier.associativity with
    | .left => do leftChain tier operand allowance (← operand)
    | .right => rightChain tier operand allowance

/-- Reads any number of unary operators and then a primary expression. -/
def unary (primary : Rule Expr) : (allowance : Nat) → Rule Expr
  | 0 => exhausted
  | allowance + 1 => do
    let token ← peek
    match unaryOperator? token with
    | none => primary
    | some operator =>
      let _ ← advance
      let operand ← unary primary allowance
      return .unary { position := token.position } operator operand

/-! ### Primary expressions -/

/-- Reads nested expressions with commas between them up to a closing mark; there may be
none. -/
def listUpTo (closing : Mark) (nested : Rule Expr) (allowance : Nat) : Rule (List Expr) := do
  let items ← if ← sees closing then pure [] else commaSeparated nested allowance
  let _ ← expect closing
  return items

/-- Reads the operands of a builtin that stands in expressions, the builtin being consumed.
The others do not get here. -/
def builtinOperands (note : Note) (builtin : Builtin) (nested : Rule Expr) : Rule Expr :=
  match builtin with
  | .width => pure (.side note .width)
  | .height => pure (.side note .height)
  | .randomInt => do
    let limit ← nested
    return .randomInt note limit
  | .read => do
    let x ← nested
    let _ ← expect .comma
    let y ← nested
    return .read note x y
  | .print | .delay | .write | .writeBox | .clear => refuse .expectedExpression

/-- Reads an expression that begins with an identifier: a call, an element or a variable. -/
def named (note : Note) (nested : Rule Expr) (allowance : Nat) : Rule Expr := do
  let second ← peekSecond
  let name ← identifier
  match second.content with
  | .mark .openParen =>
    let _ ← advance
    let arguments ← listUpTo .closeParen nested allowance
    return .call note name arguments
  | .mark .openSquare =>
    let _ ← advance
    let index ← nested
    let _ ← expect .closeSquare
    return .index note name index
  | _ => return .var note name.value

/-- Reads a primary expression. -/
def primary (nested : Rule Expr) (allowance : Nat) : Rule Expr := do
  let token ← peek
  let note : Note := { position := token.position }
  match token.content with
  | .literal value =>
    let _ ← advance
    return .literal note value
  | .builtin builtin =>
    if builtin.isStatement then refuse .expectedExpression
    else
      let _ ← advance
      builtinOperands note builtin nested
  | .mark .openParen =>
    let _ ← advance
    let inner ← nested
    let _ ← expect .closeParen
    return .group note inner
  | .mark .openSquare =>
    let _ ← advance
    let elements ← listUpTo .closeSquare nested allowance
    return .array note elements
  | .mark .identifier => named note nested allowance
  | .mark _ => refuse .expectedExpression

/-! ### Expressions -/

/-- Reads a conversion after an expression, if there is one. -/
def conversion (operand : Rule Expr) : Rule Expr := do
  let expr ← operand
  if ← sees .asWord then
    let _ ← advance
    let cast ← type
    return expr.withCast cast
  else
    return expr

/-- Reads an expression. The allowance bounds how deep expressions nest and how long each
repetition is. -/
def expression : (allowance : Nat) → Rule Expr
  | 0 => exhausted
  | allowance + 1 => fun cursor =>
    let tightest := unary (primary (expression allowance) (allowance + 1)) (allowance + 1)
    conversion (climb tightest (allowance + 1) tiers) cursor

end Grammar

end PadLang
