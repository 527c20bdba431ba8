/-
This file names the ways in which the compiler itself can break off.

A rejected program is not a fault: lexical, parsing and semantic errors are ordinary
results with types of their own. A fault means that a counter left its 32-bit range or
that one pass was handed something an earlier pass should have prepared. Keeping faults
apart from errors, as values, lets a caller see them and lets "no accepted program causes
a fault" be a statement about these definitions.
-/

namespace PadLang

/-! ### The causes -/

/-- The counter operations that can leave the 32-bit range. -/
inductive Arithmetic where
  | add
  | subtract
  | multiply
deriving DecidableEq, Repr

/-- The verb an overflow message uses. -/
def Arithmetic.verb : Arithmetic → String
  | .add => "add"
  | .subtract => "subtract"
  | .multiply => "multiply"

/-- An internal failure, with the name it concerns where there is one. -/
inductive Fault where
  /-- A counter left its range. -/
  | overflow (operation : Arithmetic)
  /-- An automaton was assembled without a state to start in. -/
  | missingStart
  /-- A function scope was opened without a name. -/
  | unnamedFunctionScope
  /-- A scope was asked for that was never opened. -/
  | unknownScope (scope : Nat)
  /-- Code was requested for a block that analysis gave no scope. -/
  | unscopedBlock
  /-- The type of an expression was needed before analysis had found it. -/
  | untypedExpression
  /-- A variable has no storage in any visible scope. -/
  | unresolvedVariable (name : String)
  /-- A call names no function of the global scope. -/
  | undeclaredFunction (name : String)
  /-- The arguments of a call do not fit in one frame. -/
  | oversizedArguments (name : String)
  /-- Storage was requested for a variable its scope does not hold. -/
  | undeclaredVariable (name : String)
  /-- The symbols of one scope do not fit in one frame. -/
  | oversizedFrame
  /-- The scope of a function has no name to serve as its label. -/
  | unlabelledFunction
  /-- The reader of a grammar rule used up its allowance. -/
  | exhausted
deriving DecidableEq, Repr

/-- What is reported for a state that the passes before rule out. -/
def Fault.unreachable (detail : String) : String :=
  "internal error: entered unreachable code: " ++ detail

/-- The text of a fault. -/
def Fault.message : Fault → String
  | .overflow operation => "attempt to " ++ operation.verb ++ " with overflow"
  | .missingStart => "DFA without an initial state"
  | .unnamedFunctionScope => "function scopes must be named"
  | .unknownScope scope => s!"scope {scope} was never opened"
  | .unscopedBlock => "block was not analyzed"
  | .untypedExpression => "expression was not annotated by semantic analysis"
  | .unresolvedVariable name => Fault.unreachable s!"unresolved variable `{name}`"
  | .undeclaredFunction name => Fault.unreachable s!"call to undeclared function `{name}`"
  | .oversizedArguments name => Fault.unreachable s!"arguments of `{name}` exceed a frame"
  | .undeclaredVariable name => Fault.unreachable s!"allocating undeclared variable `{name}`"
  | .oversizedFrame => Fault.unreachable "frame size was checked on declaration"
  | .unlabelledFunction => Fault.unreachable "function scope without a name"
  | .exhausted => "the allowance of a grammar rule was used up"

/-! ### Counters

Lines, columns, cells and frame levels are counted in 32 bits. A count is kept as a
natural number, and each operation that could leave the range checks it. -/

namespace Counter

/-- The first number that no counter can hold. -/
def bound : Nat := 4294967296

/-- The sum, if a counter can hold it. -/
def add (first second : Nat) : Except Fault Nat :=
  if first + second < bound then .ok (first + second) else .error (.overflow .add)

/-- The difference, if it is not negative. -/
def subtract (first second : Nat) : Except Fault Nat :=
  if second ≤ first then .ok (first - second) else .error (.overflow .subtract)

/-- The product, if a counter can hold it. -/
def multiply (first second : Nat) : Except Fault Nat :=
  if first * second < bound then .ok (first * second) else .error (.overflow .multiply)

end Counter

end PadLang
