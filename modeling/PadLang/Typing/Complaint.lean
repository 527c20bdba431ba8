/-
This file holds what analysis finds fault with in a program that the grammar accepts: uses
of names, types that do not fit, and functions that may end without a value. It also holds
the one warning, about statements that can never run.
-/

import PadLang.Syntax.Basic

namespace PadLang

/-- Why a program is rejected by analysis. -/
inductive Complaint where
  | undeclared (name : String)
  | redeclared (name : String)
  | frameTooLarge (name : String)
  | shadowsFunction (name : String)
  | reservedMain
  | notAVariable (name : String)
  | notAFunction (name : String)
  | notAnArray (name : String)
  | mismatch (left right : Ty)
  | wrongType (expected found : Ty)
  | badOperand (operator : String) (found : Ty)
  | operandMismatch (operator : BinaryOperator) (left right : Ty)
  | arity (function : String) (expected found : Nat)
  | argument (function : String) (index : Nat) (expected found : Ty)
  | emptyArray
  | nestedArray
  | heterogeneousArray (expected found : Ty)
  | invalidCast (source target : Ty)
  | returnOutsideFunction
  | returnType (function : String) (expected found : Ty)
  | nestedFunction (name : String)
  | missingReturn (name : String)
deriving DecidableEq, Repr

/-- The text of a complaint. -/
def Complaint.message : Complaint → String
  | .undeclared name => s!"`{name}` was not declared in this scope"
  | .redeclared name => s!"`{name}` is already declared in this scope"
  | .frameTooLarge name => s!"declaring `{name}` exceeds the maximum frame size"
  | .shadowsFunction name => s!"`{name}` conflicts with a function of the same name"
  | .reservedMain => "`main` is reserved for the program entry point"
  | .notAVariable name => s!"expected variable, found function `{name}`"
  | .notAFunction name => s!"expected function, found variable `{name}`"
  | .notAnArray name => s!"`{name}` is not an array"
  | .mismatch left right =>
    s!"type mismatch: left type `{left.render}`, right type `{right.render}`"
  | .wrongType expected found =>
    s!"type mismatch: expected `{expected.render}`, found `{found.render}`"
  | .badOperand operator found => s!"operator `{operator}` cannot be applied to `{found.render}`"
  | .operandMismatch operator left right =>
    s!"operator `{operator.render}` expects operands of the same type, "
      ++ s!"found `{left.render}` and `{right.render}`"
  | .arity function expected found =>
    s!"`{function}` takes {expected} argument(s) but {found} were supplied"
  | .argument function index expected found =>
    s!"argument {index} of `{function}` expects `{expected.render}`, found `{found.render}`"
  | .emptyArray => "array literals must have at least one element"
  | .nestedArray => "array literals cannot contain arrays"
  | .heterogeneousArray expected found =>
    s!"array literal elements must share a type: expected `{expected.render}`, "
      ++ s!"found `{found.render}`"
  | .invalidCast source target => s!"cannot cast `{source.render}` as `{target.render}`"
  | .returnOutsideFunction => "`return` outside of a function"
  | .returnType function expected found =>
    s!"`{function}` returns `{expected.render}`, found `{found.render}`"
  | .nestedFunction name => s!"function `{name}` must be defined at the top level"
  | .missingReturn name => s!"{name}(...) does not return a value in all control paths"

/-- A warning: the lines of statements that can never run and were removed. -/
structure Unreachable where
  firstLine : Nat
  lastLine : Nat
deriving DecidableEq, Repr

/-- The text of a warning. -/
def Unreachable.message (warning : Unreachable) : String :=
  s!"unreachable code in lines {warning.firstLine}-{warning.lastLine} has been removed"

end PadLang
