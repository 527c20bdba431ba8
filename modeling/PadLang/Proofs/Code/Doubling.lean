/-
This file counts what compiled programs do besides computing values.

An expression can call a function, draw a number or read the pad. Its code does the same, once
for each node, unless the node stands inside an integer division. The code of `a / b` divides
`a - a mod b` by `b`, so it holds the code of both operands twice, and whatever they do is done
twice. Nothing is ever left out. The number of calls, draws and readings in a compiled program
is thus that of the program if and only if none of them stands inside an integer division.
-/

import PadLang.Proofs.Resolution

namespace PadLang

variable {instruction : Instruction}

/-! ### Deeds -/

/-- What an expression can do besides having a value. -/
inductive Deed where
  | call (function : String)
  | randomInt
  | read
deriving DecidableEq, Repr

/-- Whether an instruction does something, given the one behind it. A call pushes the entry of
the function first. -/
def Deed.isDone (deed : Deed) (next : Option Instruction) : Instruction → Bool
  | .push (.label function) => decide (deed = .call function ∧ next = some (.op .call))
  | .op .irnd => decide (deed = .randomInt)
  | .op .read => decide (deed = .read)
  | _ => false

/-- How often code does something. -/
def Code.tally (deed : Deed) : Code → Nat
  | [] => 0
  | first :: rest => (deed.isDone rest.head? first).toNat + Code.tally deed rest

/-- How often the operands of an operator count, those of an integer division counting so many
times. -/
def BinaryOperator.copies (times : Nat) (operator : BinaryOperator) (operand : Option Ty) : Nat :=
  if operator = .divide ∧ operand = some .int then times else 1

mutual

/-- How often an expression does something, the operands of an integer division counting so many
times. If they count once, this is the number of nodes that do it. If they do not count at all,
it is the number of those that stand in no integer division. -/
def Expr.tally (times : Nat) (deed : Deed) : Expr → Nat
  | .literal _ _ | .side _ _ | .var _ _ => 0
  | .array _ items => tallyOf times deed items
  | .read _ x y => x.tally times deed + y.tally times deed + (decide (deed = .read)).toNat
  | .randomInt _ limit => limit.tally times deed + (decide (deed = .randomInt)).toNat
  | .index _ _ offset => offset.tally times deed
  | .call _ function items =>
    tallyOf times deed items + (decide (deed = .call function.value)).toNat
  | .group _ inner => inner.tally times deed
  | .binary _ left operator right =>
    operator.copies times left.type? * (left.tally times deed + right.tally times deed)
  | .unary _ _ operand => operand.tally times deed

/-- How often expressions do something. -/
def tallyOf (times : Nat) (deed : Deed) : List Expr → Nat
  | [] => 0
  | first :: rest => first.tally times deed + tallyOf times deed rest

end

theorem tallyOf_append (times : Nat) (deed : Deed) (first second : List Expr) :
    tallyOf times deed (first ++ second) =
      tallyOf times deed first + tallyOf times deed second := by
  induction first with
  | nil => rw [List.nil_append, tallyOf, Nat.zero_add]
  | cons expr rest inductionHypothesis =>
    rw [List.cons_append, tallyOf, tallyOf, inductionHypothesis, Nat.add_assoc]

@[simp] theorem tallyOf_singleton (times : Nat) (deed : Deed) (expr : Expr) :
    tallyOf times deed [expr] = expr.tally times deed := by
  rw [tallyOf, tallyOf, Nat.add_zero]

/-- The expressions of an assignment. -/
def Assignment.expressions (made : Assignment) : List Expr := made.value :: made.index.toList

mutual

/-- The expressions that stand in a statement and in no other expression. -/
def Stmt.expressions : Stmt → List Expr
  | .assignment _ made => made.expressions
  | .declaration _ made => [made.value]
  | .action _ done => done.expressions
  | .returnValue _ value => [value]
  | .block _ body => body.expressions
  | .function _ _ body => body.expressions
  | .conditional _ condition first none => condition :: first.expressions
  | .conditional _ condition first (some second) =>
    condition :: first.expressions ++ second.expressions
  | .forLoop _ init condition update body =>
    init.toList.map Declaration.value ++ condition :: body.expressions ++
      update.toList.flatMap Assignment.expressions
  | .whileLoop _ condition body => condition :: body.expressions

/-- The expressions that stand in the statements of a block. -/
def Block.expressions : Block → List Expr
  | .mk _ _ body => expressionsOf body

/-- The expressions that stand in statements. -/
def expressionsOf : List Stmt → List Expr
  | [] => []
  | first :: rest => first.expressions ++ expressionsOf rest

end

/-- Three numbers that grow, and of which the last two are equal just if the first two are. -/
structure Spread (least middle most : Nat) : Prop where
  least_le : least ≤ middle
  le_most : middle ≤ most
  eq_iff : most = middle ↔ middle = least

theorem Spread.constant (number : Nat) : Spread number number number :=
  ⟨Nat.le_refl _, Nat.le_refl _, Iff.rfl⟩

theorem Spread.add {least middle most otherLeast otherMiddle otherMost : Nat}
    (first : Spread least middle most) (second : Spread otherLeast otherMiddle otherMost) :
    Spread (least + otherLeast) (middle + otherMiddle) (most + otherMost) := by
  obtain ⟨_, _, same⟩ := first
  obtain ⟨_, _, otherSame⟩ := second
  exact ⟨by omega, by omega, by omega⟩

/-- If the operands of an operator are doubled, they make a difference unless they do nothing. -/
theorem Spread.copies {least middle most : Nat} (spread : Spread least middle most)
    (operator : BinaryOperator) (operand : Option Ty) :
    Spread (operator.copies 0 operand * least) (operator.copies 1 operand * middle)
      (operator.copies 2 operand * most) := by
  obtain ⟨_, _, same⟩ := spread
  unfold BinaryOperator.copies
  split
  · exact ⟨by omega, by omega, by omega⟩
  · simp only [Nat.one_mul]
    exact ⟨by assumption, by assumption, same⟩

mutual

theorem Expr.tally_spread (deed : Deed) (expr : Expr) :
    Spread (expr.tally 0 deed) (expr.tally 1 deed) (expr.tally 2 deed) := by
  match expr with
  | .literal _ _ | .side _ _ | .var _ _ => exact .constant 0
  | .array _ items => exact tallyOf_spread deed items
  | .read _ x y => exact ((x.tally_spread deed).add (y.tally_spread deed)).add (.constant _)
  | .randomInt _ limit => exact (limit.tally_spread deed).add (.constant _)
  | .index _ _ offset => exact offset.tally_spread deed
  | .call _ _ items => exact (tallyOf_spread deed items).add (.constant _)
  | .group _ inner => exact inner.tally_spread deed
  | .binary _ left operator right =>
    exact ((left.tally_spread deed).add (right.tally_spread deed)).copies operator left.type?
  | .unary _ _ operand => exact operand.tally_spread deed

theorem tallyOf_spread (deed : Deed) (items : List Expr) :
    Spread (tallyOf 0 deed items) (tallyOf 1 deed items) (tallyOf 2 deed items) := by
  match items with
  | [] => exact .constant 0
  | first :: rest => exact (first.tally_spread deed).add (tallyOf_spread deed rest)

end

/-! ### What code does -/

/-- Code does something so many times, whatever is emitted in front of it. -/
structure Tallies (deed : Deed) (code : Code) (number : Nat) : Prop where
  apart : code.head? ≠ some (.op .call)
  tally_eq : code.tally deed = number

/-- The instructions that do nothing besides computing. -/
def Instruction.isInert : Instruction → Bool
  | .op .call | .op .irnd | .op .read => false
  | _ => true

variable {deed : Deed}

theorem Deed.isDone_append {rest more : Code} (apart : more.head? ≠ some (.op .call)) :
    deed.isDone (rest ++ more).head? instruction = deed.isDone rest.head? instruction := by
  cases rest with
  | cons following others => rfl
  | nil =>
    unfold Deed.isDone
    split
    · simp [apart]
    · rfl
    · rfl
    · rfl

theorem Instruction.isDone_of_isInert {next : Option Instruction}
    (inert : instruction.isInert = true) (apart : next ≠ some (.op .call)) :
    deed.isDone next instruction = false := by
  unfold Deed.isDone
  split
  · simp [apart]
  · cases inert
  · cases inert
  · rfl

namespace Tallies

variable {deed : Deed} {code more : Code} {number another : Nat}

theorem append (first : Tallies deed code number) (second : Tallies deed more another) :
    Tallies deed (code ++ more) (number + another) := by
  obtain ⟨apart, rfl⟩ := first
  obtain ⟨apartMore, rfl⟩ := second
  constructor
  · cases code with
    | nil => exact apartMore
    | cons instruction rest => exact apart
  · clear apart
    induction code with
    | nil => rw [List.nil_append, Code.tally, Nat.zero_add]
    | cons instruction rest inductionHypothesis =>
      rw [List.cons_append, Code.tally, Deed.isDone_append apartMore, inductionHypothesis,
        Code.tally, Nat.add_assoc]

/-- Code that only computes does nothing else. -/
theorem inert (isInert : code.all Instruction.isInert = true) : Tallies deed code 0 := by
  induction code with
  | nil => exact ⟨by decide, rfl⟩
  | cons instruction rest inductionHypothesis =>
    rw [List.all_cons, Bool.and_eq_true] at isInert
    obtain ⟨apart, none⟩ := inductionHypothesis isInert.2
    constructor
    · rintro ⟨⟩
      cases isInert.1
    · rw [Code.tally, none, Instruction.isDone_of_isInert isInert.1 apart]
      rfl

theorem append_inert (tallies : Tallies deed code number)
    (isInert : more.all Instruction.isInert = true) : Tallies deed (code ++ more) number :=
  tallies.append (inert isInert)

theorem inert_append (isInert : code.all Instruction.isInert = true)
    (tallies : Tallies deed more number) : Tallies deed (code ++ more) number :=
  Nat.zero_add number ▸ (inert isInert).append tallies

theorem irnd : Tallies deed [.op .irnd] (decide (deed = .randomInt)).toNat :=
  ⟨by decide, rfl⟩

theorem read : Tallies deed [.op .read] (decide (deed = .read)).toNat :=
  ⟨by decide, rfl⟩

theorem call {cells : Int} {function : String} :
    Tallies deed [Code.pushInt cells, .push (.label function), .op .call]
      (decide (deed = .call function)).toNat := by
  constructor
  · rintro ⟨⟩
  · simp [Code.tally, Deed.isDone, Code.pushInt]

/-- An operation does what its operands do, and an integer division does it twice. -/
theorem combine (operator : BinaryOperator) (type : Ty) {left right : Code}
    (first : Tallies deed left number) (second : Tallies deed right another) :
    Tallies deed (Code.combine operator type left right)
      (operator.copies 2 (some type) * (number + another)) := by
  have operands : Tallies deed (right ++ left) (number + another) :=
    Nat.add_comm another number ▸ second.append first
  unfold Code.combine BinaryOperator.copies
  split
  · rw [if_neg (by decide), Nat.one_mul, List.append_assoc [_]]
    exact (inert_append rfl operands).append_inert rfl
  · rw [if_neg (by decide), Nat.one_mul, List.append_assoc [_, _]]
    exact (inert_append rfl operands).append_inert rfl
  · have remainder : Tallies deed (right ++ (right ++ left) ++ [.op .mod])
        (another + (number + another)) := (second.append operands).append_inert rfl
    have doubled : another + (number + another) + number = 2 * (number + another) := by omega
    rw [if_pos ⟨rfl, rfl⟩, ← doubled, List.append_assoc right right left]
    exact (remainder.append first).append_inert rfl
  · rename_i notDivision
    have once : ¬(operator = .divide ∧ some type = some .int) := by
      rintro ⟨rfl, same⟩
      cases same
      exact notDivision rfl rfl
    rw [if_neg once, Nat.one_mul]
    exact operands.append_inert (by cases operator <;> rfl)

variable (test : Tallies deed code number)

include test

theorem branchUnless (skipped : Nat) : Tallies deed (Code.branchUnless code skipped) number :=
  test.append_inert rfl

theorem ifThen (taken : Tallies deed more another) :
    Tallies deed (Code.ifThen code more) (number + another) :=
  (test.branchUnless _).append taken

theorem ifThenElse {other : Code} {third : Nat} (taken : Tallies deed more another)
    (otherwise : Tallies deed other third) :
    Tallies deed (Code.ifThenElse code more other) (number + another + third) :=
  ((test.branchUnless _).append (taken.append_inert rfl)).append otherwise

theorem repeatWhile (body : Tallies deed more another) :
    Tallies deed (Code.repeatWhile code more) (number + another) :=
  ((test.branchUnless _).append body).append_inert rfl

end Tallies

/-! ### Expressions -/

namespace Lexical

variable {functions : Functions} {deed : Deed} {context outer : Context} {layer : Layer}

theorem readVariable_tallies (place : ScopeTree.Resolved) :
    Tallies deed (readVariable place) 0 := by
  obtain ⟨slot, type⟩ := place
  cases type <;> exact .inert rfl

theorem store_inert (type : Ty) (slot : Slot) :
    (Code.store type slot).all Instruction.isInert = true := by
  cases type <;> rfl

theorem openFrame_inert (vars : Vars) : (openFrame vars).all Instruction.isInert = true := rfl

mutual

theorem expression_tallies {context : Context} {expr : Expr}
    (bound : Bound functions context expr) :
    Tallies deed (expression functions context expr) (expr.tally 2 deed) := by
  match expr with
  | .literal _ _ => exact .inert rfl
  | .array _ items =>
    cases bound with
    | array each =>
      rw [expression, Expr.tally]
      exact backwards_tallies each
  | .side _ .width | .side _ .height => exact .inert rfl
  | .read _ x y =>
    cases bound with
    | read first second =>
      rw [expression, Expr.tally, Nat.add_comm (x.tally 2 deed)]
      exact ((expression_tallies second).append (expression_tallies first)).append .read
  | .randomInt _ limit =>
    cases bound with
    | randomInt inside =>
      rw [expression, Expr.tally]
      exact (expression_tallies inside).append .irnd
  | .var _ name =>
    cases bound with
    | var denotes =>
      obtain ⟨place, placed, _⟩ := Code.exists_place denotes
      rw [expression, Expr.tally, atPlace, placed]
      exact readVariable_tallies place
  | .index _ name offset =>
    cases bound with
    | index denotes inside =>
      obtain ⟨place, placed, _⟩ := Code.exists_place denotes
      rw [expression, Expr.tally, atPlace, placed]
      exact (expression_tallies inside).append_inert rfl
  | .call _ function items =>
    cases bound with
    | call names each =>
      rw [expression, Expr.tally, call, names]
      exact (backwards_tallies each).append .call
  | .group _ inner =>
    cases bound with
    | group inside =>
      rw [expression, Expr.tally]
      exact expression_tallies inside
  | .binary _ left operator right =>
    cases bound with
    | binary typed first second =>
      rw [expression, Expr.tally, typed]
      exact (expression_tallies first).combine operator _ (expression_tallies second)
  | .unary _ .not operand | .unary _ .negate operand =>
    cases bound with
    | unary inside =>
      rw [expression, Expr.tally]
      exact (expression_tallies inside).append_inert rfl

theorem backwards_tallies {context : Context} {items : List Expr}
    (bound : ∀ item ∈ items, Bound functions context item) :
    Tallies deed (backwards functions context items) (tallyOf 2 deed items) := by
  match items with
  | [] => exact .inert rfl
  | first :: rest =>
    rw [List.forall_mem_cons] at bound
    rw [backwards, tallyOf, Nat.add_comm]
    exact (backwards_tallies bound.2).append (expression_tallies bound.1)

end

/-! ### Statements -/

theorem declaration_tallies {made : Declaration}
    (bound : Bound functions (layer :: outer) made.value) :
    Tallies deed (declaration functions layer outer made) (tallyOf 2 deed [made.value]) := by
  rw [tallyOf_singleton]
  exact (expression_tallies bound).append_inert (store_inert _ _)

theorem assignment_tallies {made : Assignment} (bound : made.Bound functions context) :
    Tallies deed (assignment functions context made) (tallyOf 2 deed made.expressions) := by
  obtain ⟨target, index, value⟩ := made
  obtain ⟨⟨found, denotes⟩, boundIndex, boundValue⟩ := bound
  obtain ⟨place, placed, _⟩ := Code.exists_place denotes
  rw [assignment, atPlace, placed, Assignment.expressions]
  cases index with
  | none =>
    rw [Option.toList_none, tallyOf_singleton]
    exact (expression_tallies boundValue).append_inert (store_inert _ _)
  | some index =>
    rw [Option.toList_some, tallyOf, tallyOf_singleton]
    exact ((expression_tallies boundValue).append
      (expression_tallies (boundIndex index rfl))).append_inert rfl

theorem action_tallies {done : Action} (inScope : done.Scoped functions context) :
    Tallies deed (action functions context done) (tallyOf 2 deed done.expressions) := by
  have bound := inScope.bound
  cases done with
  | print value =>
    obtain ⟨type, typed⟩ := inScope
    rw [action, Action.expressions, tallyOf_singleton, typed.type?_eq]
    exact (expression_tallies typed.bound).append_inert (by cases type <;> rfl)
  | delay _ | clear _ =>
    rw [action, Action.expressions, tallyOf_singleton]
    exact (expression_tallies (HasType.bound inScope)).append_inert rfl
  | write _ _ _ | writeBox _ _ _ _ _ => exact (backwards_tallies bound).append_inert rfl

theorem loopInit_tallies {init : Option Declaration}
    (inScope : ∀ made ∈ init, made.Scoped functions (layer :: outer)) :
    Tallies deed (loopInit functions layer outer init)
      (tallyOf 2 deed (init.toList.map Declaration.value)) := by
  cases init with
  | none => exact .inert rfl
  | some made => exact declaration_tallies (inScope made rfl).bound

theorem loopUpdate_tallies {update : Option Assignment}
    (bound : ∀ made ∈ update, made.Bound functions context) :
    Tallies deed (loopUpdate functions context update)
      (tallyOf 2 deed (update.toList.flatMap Assignment.expressions)) := by
  cases update with
  | none => exact .inert rfl
  | some made =>
    rw [Option.toList_some, List.flatMap_singleton]
    exact assignment_tallies (bound made rfl)

mutual

theorem statement_tallies {returns : Option Ty} {layer : Layer} {outer : Context}
    {statement : Stmt} (inScope : statement.Scoped functions returns (layer :: outer)) :
    Tallies deed (Lexical.statement functions layer outer statement)
      (tallyOf 2 deed statement.expressions) := by
  match statement with
  | .declaration _ made => exact declaration_tallies inScope.bound
  | .assignment _ made => exact assignment_tallies inScope.bound
  | .action _ done => exact action_tallies inScope
  | .returnValue _ value =>
    obtain ⟨_, _, typed⟩ := inScope
    rw [Lexical.statement, Stmt.expressions, tallyOf_singleton]
    refine ((expression_tallies typed.bound).append_inert ?_).append_inert rfl
    simp [Instruction.isInert]
  | .block _ body => exact block_tallies inScope
  | .function _ header body =>
    obtain ⟨opened, isOpened, inside⟩ := inScope
    rw [Lexical.statement, isOpened]
    have labelled : [Instruction.label header.name.value].all Instruction.isInert = true := rfl
    exact .inert_append labelled (block_tallies inside)
  | .conditional _ condition first none =>
    rw [Lexical.statement, Stmt.expressions, tallyOf]
    exact .ifThen (expression_tallies inScope.1.bound) (block_tallies inScope.2)
  | .conditional _ condition first (some second) =>
    rw [Lexical.statement, Stmt.expressions, List.cons_append, tallyOf, tallyOf_append,
      ← Nat.add_assoc]
    exact .ifThenElse (expression_tallies inScope.1.bound) (block_tallies inScope.2.1)
      (block_tallies inScope.2.2)
  | .whileLoop _ condition body =>
    rw [Lexical.statement, Stmt.expressions, tallyOf]
    exact .repeatWhile (expression_tallies inScope.1.bound) (block_tallies inScope.2)
  | .forLoop _ init condition update (.mk _ scope body) =>
    obtain ⟨opened, rfl, started, test, step, inside⟩ := inScope
    have rounds := (statements_tallies inside).append
      (loopUpdate_tallies fun made isUpdate => (step made isUpdate).bound.declare (declaredBy body))
    have looping := (Tallies.inert_append (openFrame_inert (initVars init ++ declaredBy body))
      (loopInit_tallies started)).append
      (.repeatWhile (expression_tallies test.bound) rounds)
    simp only [Stmt.expressions, Block.expressions, tallyOf_append, tallyOf, Nat.add_assoc]
    exact looping.append_inert rfl

theorem block_tallies {returns : Option Ty} {context : Context} {block : Block}
    (inScope : block.Scoped functions returns context) :
    Tallies deed (Lexical.block functions context block) (tallyOf 2 deed block.expressions) := by
  match block with
  | .mk _ scope body =>
    obtain ⟨opened, rfl, inside⟩ := inScope
    exact (Tallies.inert_append rfl (statements_tallies inside)).append_inert rfl

theorem statements_tallies {returns : Option Ty} {layer : Layer} {outer : Context}
    {statements : List Stmt} (inScope : allScoped functions returns (layer :: outer) statements) :
    Tallies deed (Lexical.statements functions layer outer statements)
      (tallyOf 2 deed (expressionsOf statements)) := by
  match statements with
  | [] => exact .inert rfl
  | first :: rest =>
    rw [Lexical.statements, expressionsOf, tallyOf_append]
    exact (statement_tallies inScope.1).append (statements_tallies inScope.2)

end

end Lexical

/-! ### Programs -/

end PadLang
