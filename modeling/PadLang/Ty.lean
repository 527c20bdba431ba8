/-
This file holds the types of the language. Types are structural: two types are the same
when they have the same shape. Programs can only write arrays of scalars; arrays of arrays
are representable, and the checker is what refuses them.
-/

import PadLang.Fault

namespace PadLang

/-! ### Shapes -/

/-- The scalar types. -/
inductive Base where
  | bool
  | colour
  | float
  | int
deriving DecidableEq, Repr

/-- The keyword of a scalar type. -/
def Base.render : Base → String
  | .bool => "bool"
  | .colour => "colour"
  | .float => "float"
  | .int => "int"

/-- A type: a scalar, or an array of a fixed number of elements. -/
inductive Ty where
  | base (scalar : Base)
  | array (size : Nat) (element : Ty)
deriving DecidableEq, Repr

namespace Ty

/-- Truth values. -/
abbrev bool : Ty := .base .bool

/-- Colours. -/
abbrev colour : Ty := .base .colour

/-- Floating-point numbers. -/
abbrev float : Ty := .base .float

/-- Integers. -/
abbrev int : Ty := .base .int

/-- The text of a type. The size of an array follows its element type. -/
def render : Ty → String
  | .base scalar => scalar.render
  | .array size element => element.render ++ "[" ++ toString size ++ "]"

/-- Whether a type is an array type. -/
def isArray : Ty → Bool
  | .base _ => false
  | .array _ _ => true

/-- The type of the elements of an array type. -/
def element? : Ty → Option Ty
  | .base _ => none
  | .array _ element => some element

/-! ### Storage and conversion -/

/-- The cells a value takes in memory. The element is counted before the array, so an
element that is too large is a fault whatever the size of the array. -/
def slots : Ty → Except Fault Nat
  | .base _ => .ok 1
  | .array size element => do Counter.multiply size (← element.slots)

/-- Whether a value of the first type may be converted to the second. Any scalar may be
converted to any other, and arrays convert element by element. -/
def castableTo : Ty → Ty → Bool
  | .base _, .base _ => true
  | .array size element, .array targetSize targetElement =>
    size == targetSize && element.castableTo targetElement
  | _, _ => false

end Ty

end PadLang
