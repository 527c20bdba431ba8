/-
This file generates the code of expressions.

The code of an expression leaves its value on top of the stack; an array leaves its first
element on top and the others below. Operations take their left operand from the top, so the
right operand is evaluated first.

Colours are added and subtracted modulo 2^24. Integer division truncates, which is written
as the exact division of `a - a mod b` by `b`. Reading an array variable copies it to a
frame of its own, so that the value does not depend on the storage it was read from.
-/

import PadLang.Scope.Basic
import PadLang.Code.Basic

namespace PadLang

namespace Code

/-- Pushes an integer. -/
def pushInt (value : Int) : Instruction :=
  .push (.int value)

/-- The number of colours. -/
def colourModulus : Int := 16777216

/-- The place of a variable that analysis has declared and storage has been given to. -/
def resolve (tree : ScopeTree) (scope : ScopeId) (name : String) :
    Except Fault ScopeTree.Resolved :=
  match tree.resolve? scope name with
  | some found => .ok found
  | none => .error (.unresolvedVariable name)

/-- The type that analysis found for an expression. -/
def typeOf (expr : Expr) : Except Fault Ty :=
  match expr.type? with
  | some type => .ok type
  | none => .error .untypedExpression

/-- The operand that a literal becomes. Truth values are numbers. -/
def literalOperand : Literal → Operand
  | .int value => .int value
  | .float value => .float value
  | .bool value => .int (if value then 1 else 0)
  | .colour value => .colour value

/-- Reads a variable. -/
def readVariable (place : ScopeTree.Resolved) : Except Fault Code :=
  match place.type with
  | .base _ => .ok [.pushSlot place.slot]
  | .array size _ => do
    let level ← Counter.add place.slot.level 1
    return [
      pushInt size, .op .oframe,
      pushInt size, .pushBlock { place.slot with level },
      pushInt size, pushInt 0, pushInt 0, .op .sta,
      pushInt size, .pushBlock { index := 0, level := 0 },
      .op .cframe]

/-- The opcode of an operator, where one opcode is all it takes. -/
def opcodeOf : BinaryOperator → Opcode
  | .or => .or
  | .and => .and
  | .equal => .eq
  | .notEqual => .neq
  | .less => .lt
  | .lessOrEqual => .le
  | .greater => .gt
  | .greaterOrEqual => .ge
  | .add => .add
  | .subtract => .sub
  | .multiply => .mul
  | .divide => .div

/-- Combines the code of two operands, the left one being of the given type. -/
def combine (operator : BinaryOperator) (type : Ty) (left right : Code) : Code :=
  match operator, type with
  | .add, .base .colour =>
    [pushInt colourModulus] ++ right ++ left ++ [.op .add, .op .mod]
  | .subtract, .base .colour =>
    [pushInt colourModulus, pushInt colourModulus] ++ right ++ left
      ++ [.op .sub, .op .add, .op .mod]
  | .divide, .base .int =>
    right ++ right ++ left ++ [.op .mod] ++ left ++ [.op .sub, .op .div]
  | _, _ => right ++ left ++ [.op (opcodeOf operator)]

/-- Calls a function whose arguments are on the stack. -/
def call (tree : ScopeTree) (function : String) : Except Fault Code :=
  match tree.lookupFunction? function with
  | none => .error (.undeclaredFunction function)
  | some signature => do
    match ← signature.argumentSlots? with
    | none => .error (.oversizedArguments function)
    | some slots =>
      return [pushInt slots, .push (.label (signature.label.getD function)), .op .call]

mutual

/-- The code of an expression that stands in a scope. -/
def expression (tree : ScopeTree) (scope : ScopeId) : Expr → Except Fault Code
  | .literal _ value => .ok [.push (literalOperand value)]
  | .array _ elements => backwards tree scope elements
  | .side _ .width => .ok [.op .width]
  | .side _ .height => .ok [.op .height]
  | .read _ x y => do
    let second ← expression tree scope y
    let first ← expression tree scope x
    return second ++ first ++ [.op .read]
  | .randomInt _ limit => do
    let code ← expression tree scope limit
    return code ++ [.op .irnd]
  | .var _ name => do readVariable (← resolve tree scope name)
  | .index _ name offset => do
    let place ← resolve tree scope name.value
    let code ← expression tree scope offset
    return code ++ [.pushIndexed place.slot]
  | .call _ function arguments => do
    let code ← backwards tree scope arguments
    let jump ← call tree function.value
    return code ++ jump
  | .group _ inner => expression tree scope inner
  | .binary _ left operator right => do
    let type ← typeOf left
    let second ← expression tree scope right
    let first ← expression tree scope left
    return combine operator type first second
  | .unary _ .not operand => do
    let code ← expression tree scope operand
    return code ++ [.op .not]
  | .unary _ .negate operand => do
    let code ← expression tree scope operand
    return code ++ [pushInt 0, .op .sub]

/-- The code of expressions from the last to the first, which leaves the first on top. -/
def backwards (tree : ScopeTree) (scope : ScopeId) : List Expr → Except Fault Code
  | [] => .ok []
  | first :: rest => do
    let below ← backwards tree scope rest
    let top ← expression tree scope first
    return below ++ top

end

end Code

end PadLang
