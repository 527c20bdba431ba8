/-
This file says what a program means, without regard to how it is compiled.

The meaning covers programs without functions and `for` loops. A value is a run of words together
with the type by which operations treat it; a conversion changes the type and leaves the words
alone. Variables live in scopes: a block is entered with a fresh scope, a name denotes the
innermost variable that bears it, and arrays are copied. What a program does is the list of its
events. It has no meaning where an index is out of bounds or a divisor is zero, nor where it
calls a function, asks the outside for something or computes with floating-point literals.

Running is bounded by a number, so that it is a function even if the program does not end; a
program has a trace if some number is large enough.
-/

import PadLang.Typing.Expr
import PadLang.Proofs.Erasure
import PadLang.Proofs.Words

namespace PadLang

/-! ### Values -/

/-- A value: the type by which it is treated, and the words it is made of. -/
structure Value where
  type : Ty
  cells : List Int
deriving DecidableEq, Repr

namespace Value

/-- A value after the conversion that a note asks for. -/
def converted (note : Note) (value : Value) : Value :=
  match note.cast with
  | none => value
  | some cast => { value with type := cast.value }

/-- The word of a scalar. -/
def word? (value : Value) : Option Int :=
  match value.type, value.cells with
  | .base _, [word] => some word
  | _, _ => none

end Value

/-- The word of a literal. -/
def Literal.word? : Literal → Option Int
  | .int value => some value
  | .float _ => none
  | .bool value => some (truthWord value)
  | .colour value => some value.word

/-- The number of colours, modulo which they are added and subtracted. -/
def colourCount : Int := 2 ^ 24

/-- The word of an operation on two words that no type treats in a way of its own. -/
def BinaryOperator.onWords? (ops : WordOps) (operator : BinaryOperator) (left right : Int) :
    Option Int :=
  match operator with
  | .add => some (left + right)
  | .subtract => some (left - right)
  | .multiply => some (left * right)
  | .divide => if right = 0 then none else some (ops.divide left right)
  | _ => some (ops.relate operator left right)

/-- The word of an operation on two words of a type. Sums and differences of colours are taken
modulo the number of colours, and the quotient of integers is truncated. -/
def BinaryOperator.result? (ops : WordOps) (type : Ty) (operator : BinaryOperator)
    (left right : Int) : Option Int :=
  match operator, type with
  | .add, .base .colour => some ((left + right).tmod colourCount)
  | .subtract, .base .colour => some ((left - right + colourCount).tmod colourCount)
  | .divide, .base .int => if right = 0 then none else some (left.tdiv right)
  | _, _ => operator.onWords? ops left right

/-- The word of an operation on one word. -/
def UnaryOperator.result (ops : WordOps) (operator : UnaryOperator) (word : Int) : Int :=
  match operator with
  | .not => ops.not word
  | .negate => 0 - word

/-! ### Scopes -/

/-- The variables of a scope with their values, in the order of their declaration. -/
abbrev Bindings := List (String × Value)

/-- The scopes that are open, from the innermost outwards. -/
abbrev Env := List Bindings

/-- The variables of a scope after one of them has received other words. -/
def Bindings.store (name : String) (cells : List Int) : Bindings → Bindings
  | [] => []
  | binding :: rest =>
    if name = binding.1 then (binding.1, { binding.2 with cells }) :: rest
    else binding :: store name cells rest

namespace Env

/-- The value of the variable that a name denotes. -/
def find? (name : String) : Env → Option Value
  | [] => none
  | bindings :: outer =>
    match bindings.lookup name with
    | some value => some value
    | none => find? name outer

/-- The scopes after the variable that a name denotes has received other words. -/
def store (name : String) (cells : List Int) : Env → Env
  | [] => []
  | bindings :: outer =>
    match bindings.lookup name with
    | some _ => bindings.store name cells :: outer
    | none => bindings :: store name cells outer

/-- The scopes after a declaration. -/
def declare (name : String) (value : Value) : Env → Env
  | [] => []
  | bindings :: outer => (bindings ++ [(name, value)]) :: outer

end Env

/-! ### Expressions -/

section Running

variable (ops : WordOps) (pad : Pad)

mutual

/-- The value of an expression. -/
def Expr.eval? (env : Env) : Expr → Option Value
  | .literal note value => do
    return Value.converted note { type := .base value.base, cells := [← value.word?] }
  | .array note items => do
    let values ← evalAll? env items
    let first ← values.head?
    return Value.converted note
      { type := .array items.length first.type, cells := ← values.mapM Value.word? }
  | .side note which => some (Value.converted note { type := .int, cells := [pad.side which] })
  | .var note name => do return Value.converted note (← env.find? name)
  | .index note name offset => do
    let array ← env.find? name.value
    let element ← array.type.element?
    let index ← (← offset.eval? env).word?
    return Value.converted note
      { type := element, cells := [← array.cells[← index.toNat?]?] }
  | .group note inner => do return Value.converted note (← inner.eval? env)
  | .binary note left operator right => do
    let first ← left.eval? env
    let second ← right.eval? env
    return Value.converted note
      { type := Typing.operationType operator first.type
        cells := [← operator.result? ops first.type (← first.word?) (← second.word?)] }
  | .unary note operator operand => do
    let value ← operand.eval? env
    return Value.converted note { value with cells := [operator.result ops (← value.word?)] }
  | .read _ _ _ | .randomInt _ _ | .call _ _ _ => none

/-- The values of expressions. -/
def evalAll? (env : Env) : List Expr → Option (List Value)
  | [] => some []
  | first :: rest => do return (← first.eval? env) :: (← evalAll? env rest)

end

/-! ### Statements -/

/-- The scopes after an assignment. -/
def Assignment.run? (env : Env) (made : Assignment) : Option Env := do
  let target ← env.find? made.target.value
  let value ← made.value.eval? ops pad env
  match made.index with
  | none => return env.store made.target.value value.cells
  | some index =>
    let offset ← (← (← index.eval? ops pad env).word?).toNat?
    if target.type.isArray ∧ offset < target.cells.length then
      return env.store made.target.value (target.cells.set offset (← value.word?))
    else none

/-- What happens if an action with scalar operands is done. -/
def scalarEvent? (env : Env) (effect : Effect) (operands : List Expr) : Option Event := do
  let values ← evalAll? ops pad env operands
  return { effect, words := ← values.mapM Value.word? }

/-- What happens if an action is done. -/
def Action.event? (env : Env) : Action → Option Event
  | .print value => do
    let value ← value.eval? ops pad env
    return { effect := if value.type.isArray then .printArray else .print, words := value.cells }
  | .delay milliseconds => scalarEvent? ops pad env .delay [milliseconds]
  | .write x y colour => scalarEvent? ops pad env .write [x, y, colour]
  | .writeBox x y width height colour =>
    scalarEvent? ops pad env .writeBox [x, y, width, height, colour]
  | .clear colour => scalarEvent? ops pad env .clear [colour]

/-- Whether a condition is true. -/
def Expr.holds? (env : Env) (condition : Expr) : Option Bool := do
  return ops.holds (← (← condition.eval? ops pad env).word?)

mutual

/-- The scopes after a statement, and what happened. -/
def Stmt.run? : Nat → Env → Stmt → Option (Env × List Event)
  | 0, _, _ => none
  | _ + 1, env, .declaration _ made => do
    let value ← made.value.eval? ops pad env
    return (env.declare made.name.value { value with type := made.type.value }, [])
  | _ + 1, env, .assignment _ made => do return (← made.run? ops pad env, [])
  | _ + 1, env, .action _ done => do return (env, [← done.event? ops pad env])
  | fuel + 1, env, .block _ body => body.run? fuel env
  | fuel + 1, env, .conditional _ condition first second => do
    if ← condition.holds? ops pad env then first.run? fuel env
    else match second with
      | none => return (env, [])
      | some second => second.run? fuel env
  | fuel + 1, env, .whileLoop span condition body => do
    if ← condition.holds? ops pad env then
      let (env, once) ← body.run? fuel env
      let (env, again) ← Stmt.run? fuel env (.whileLoop span condition body)
      return (env, once ++ again)
    else return (env, [])
  | _ + 1, _, .function _ _ _ | _ + 1, _, .forLoop _ _ _ _ _ | _ + 1, _, .returnValue _ _ => none

/-- The scopes after a block, and what happened. The scope of the block is gone. -/
def Block.run? : Nat → Env → Block → Option (Env × List Event)
  | 0, _, _ => none
  | fuel + 1, env, .mk _ _ body => do
    let (env, events) ← runAll? fuel ([] :: env) body
    return (env.tail, events)

/-- The scopes after statements that follow one another, and what happened. -/
def runAll? : Nat → Env → List Stmt → Option (Env × List Event)
  | 0, _, _ => none
  | _ + 1, env, [] => some (env, [])
  | fuel + 1, env, first :: rest => do
    let (env, once) ← first.run? fuel env
    let (env, others) ← runAll? fuel env rest
    return (env, once ++ others)

end

/-- A program ends after these events. -/
def Program.Shows (program : Program) (events : List Event) : Prop :=
  ∃ fuel, (runAll? ops pad fuel [[]] program.statements).map Prod.snd = some events

end Running

/-! ### What analysis adds has no meaning -/

section Erasing

variable {ops : WordOps} {pad : Pad}

mutual

theorem Expr.eval?_erase (env : Env) (expr : Expr) :
    expr.erase.eval? ops pad env = expr.eval? ops pad env := by
  match expr with
  | .literal _ _ | .side _ _ | .var _ _ | .read _ _ _ | .randomInt _ _ | .call _ _ _ => rfl
  | .array note items =>
    rw [Expr.erase, Expr.eval?, Expr.eval?, evalAll?_eraseItems env items, length_eraseItems]
    rfl
  | .index note name offset =>
    rw [Expr.erase, Expr.eval?, Expr.eval?, offset.eval?_erase env]
    rfl
  | .group note inner =>
    rw [Expr.erase, Expr.eval?, Expr.eval?, inner.eval?_erase env]
    rfl
  | .binary note left operator right =>
    rw [Expr.erase, Expr.eval?, Expr.eval?, left.eval?_erase env, right.eval?_erase env]
    rfl
  | .unary note operator operand =>
    rw [Expr.erase, Expr.eval?, Expr.eval?, operand.eval?_erase env]
    rfl

theorem evalAll?_eraseItems (env : Env) (items : List Expr) :
    evalAll? ops pad env (eraseItems items) = evalAll? ops pad env items := by
  match items with
  | [] => rfl
  | first :: rest =>
    rw [eraseItems, evalAll?, evalAll?, first.eval?_erase env, evalAll?_eraseItems env rest]

end

theorem Assignment.run?_erase (env : Env) (made : Assignment) :
    made.erase.run? ops pad env = made.run? ops pad env := by
  obtain ⟨target, index, value⟩ := made
  rw [Assignment.run?, Assignment.run?]
  cases index with
  | none => simp only [Assignment.erase, Expr.eval?_erase, Option.map_none]
  | some index => simp only [Assignment.erase, Expr.eval?_erase, Option.map_some]

theorem Action.event?_erase (env : Env) (done : Action) :
    done.erase.event? ops pad env = done.event? ops pad env := by
  cases done <;>
    simp only [Action.erase, Action.event?, scalarEvent?, evalAll?, Expr.eval?_erase]

theorem Expr.holds?_erase (env : Env) (condition : Expr) :
    condition.erase.holds? ops pad env = condition.holds? ops pad env := by
  rw [Expr.holds?, Expr.holds?, Expr.eval?_erase]

/-- Statements do the same without what analysis has written on them. -/
theorem run?_erase (fuel : Nat) :
    (∀ env statement, Stmt.run? ops pad fuel env statement.erase =
      Stmt.run? ops pad fuel env statement) ∧
    (∀ env block, Block.run? ops pad fuel env block.erase = Block.run? ops pad fuel env block) ∧
    (∀ env statements, runAll? ops pad fuel env (eraseAll statements) =
      runAll? ops pad fuel env statements) := by
  induction fuel with
  | zero => exact ⟨fun _ _ => rfl, fun _ _ => rfl, fun _ _ => rfl⟩
  | succ fuel inductionHypothesis =>
    obtain ⟨ofStatement, ofBlock, ofStatements⟩ := inductionHypothesis
    refine ⟨fun env statement => ?_, fun env block => ?_, fun env statements => ?_⟩
    · match statement with
      | .function _ _ _ | .forLoop _ _ _ _ _ | .returnValue _ _ => rfl
      | .declaration span made =>
        rw [Stmt.erase, Stmt.run?, Stmt.run?, Declaration.erase, Expr.eval?_erase]
      | .assignment span made =>
        rw [Stmt.erase, Stmt.run?, Stmt.run?, Assignment.run?_erase]
      | .action span done =>
        rw [Stmt.erase, Stmt.run?, Stmt.run?, Action.event?_erase]
      | .block span body => exact ofBlock env body
      | .conditional span condition first none =>
        rw [Stmt.erase, Stmt.run?, Stmt.run?, Expr.holds?_erase, ofBlock]
      | .conditional span condition first (some second) =>
        rw [Stmt.erase, Stmt.run?, Stmt.run?, Expr.holds?_erase, ofBlock]
        simp only [ofBlock]
      | .whileLoop span condition body =>
        have again (env : Env) := ofStatement env (.whileLoop span condition body)
        rw [Stmt.erase] at again
        rw [Stmt.erase, Stmt.run?, Stmt.run?, Expr.holds?_erase, ofBlock]
        simp only [again]
    · obtain ⟨position, scope, body⟩ := block
      rw [Block.erase, Block.run?, Block.run?, ofStatements]
    · cases statements with
      | nil => rfl
      | cons first rest =>
        rw [eraseAll, runAll?, runAll?, ofStatement]
        simp only [ofStatements]

/-- Programs that differ in what analysis writes on them show the same. -/
theorem Program.Shows.of_eraseAll {program : Program} {events : List Event}
    {statements : List Stmt} (showsEvents : program.Shows ops pad events)
    (same : eraseAll statements = eraseAll program.statements) :
    ∃ fuel env, runAll? ops pad fuel [[]] statements = some (env, events) := by
  obtain ⟨fuel, shown⟩ := showsEvents
  obtain ⟨⟨env, events⟩, ran, rfl⟩ := Option.map_eq_some_iff.mp shown
  refine ⟨fuel, env, ?_⟩
  rw [← (run?_erase fuel).2.2, same, (run?_erase fuel).2.2, ran]

end Erasing

end PadLang
