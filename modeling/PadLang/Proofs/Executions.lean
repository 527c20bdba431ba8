/-
This file says how the execution of statements may go.

Nothing is said about values: each time the condition of a conditional or of a loop is asked, it
may come out either way. A statement is completed normally or by a return. The pass over the return
paths takes a statement for one that always returns just if it cannot be completed normally. An
execution may come to a statement of a sequence if those in front of it can all be completed
normally, and once there it may go into each block of the statement.
-/

import PadLang.Proofs.Pruning
import PadLang.Proofs.Spots

namespace PadLang

variable {statements : List Stmt} {spot : Spot} {left : Stmt}

/-! ### Executions -/

/-- How the execution of a statement is completed. -/
inductive Ending where
  | normal
  | returned
deriving DecidableEq, Repr

mutual

/-- A statement can be completed in a way. To execute the definition of a function does nothing. -/
inductive Stmt.Completes : Stmt → Ending → Prop where
  | assignment {span made} : Stmt.Completes (.assignment span made) .normal
  | declaration {span made} : Stmt.Completes (.declaration span made) .normal
  | action {span done} : Stmt.Completes (.action span done) .normal
  | function {span header body} : Stmt.Completes (.function span header body) .normal
  | returnValue {span value} : Stmt.Completes (.returnValue span value) .returned
  | block {span body ending} (inside : Block.Completes body ending) :
      Stmt.Completes (.block span body) ending
  | consequent {span condition first second ending} (inside : Block.Completes first ending) :
      Stmt.Completes (.conditional span condition first second) ending
  | alternative {span condition first second ending} (inside : Block.Completes second ending) :
      Stmt.Completes (.conditional span condition first (some second)) ending
  | noAlternative {span condition first} :
      Stmt.Completes (.conditional span condition first none) .normal
  | forLoop {span init condition update body ending} (rounds : Rounds body ending) :
      Stmt.Completes (.forLoop span init condition update body) ending
  | whileLoop {span condition body ending} (rounds : Rounds body ending) :
      Stmt.Completes (.whileLoop span condition body) ending

/-- The rounds of a loop can be completed in a way. -/
inductive Rounds : Block → Ending → Prop where
  | ended {body} : Rounds body .normal
  | returned {body} (inside : Block.Completes body .returned) : Rounds body .returned
  | again {body ending} (inside : Block.Completes body .normal) (others : Rounds body ending) :
      Rounds body ending

/-- A block can be completed in a way. -/
inductive Block.Completes : Block → Ending → Prop where
  | mk {position scope body ending} (inside : CompletesAll body ending) :
      Block.Completes (.mk position scope body) ending

/-- A sequence of statements can be completed in a way. -/
inductive CompletesAll : List Stmt → Ending → Prop where
  | nil : CompletesAll [] .normal
  | returned {first rest} (start : Stmt.Completes first .returned) :
      CompletesAll (first :: rest) .returned
  | cons {first rest ending} (start : Stmt.Completes first .normal)
      (others : CompletesAll rest ending) : CompletesAll (first :: rest) ending

end

theorem completesAll_cons_normal_iff {first : Stmt} {rest : List Stmt} :
    CompletesAll (first :: rest) .normal ↔ first.Completes .normal ∧ CompletesAll rest .normal := by
  constructor
  · intro completes
    cases completes with
    | cons start others => exact ⟨start, others⟩
  · rintro ⟨start, others⟩
    exact .cons start others

mutual

/-- A statement always returns just if it cannot be completed normally. -/
theorem Stmt.completes_normal_iff (statement : Stmt) :
    statement.Completes .normal ↔ statement.alwaysReturns = false := by
  match statement with
  | .assignment _ _ => exact ⟨fun _ => rfl, fun _ => .assignment⟩
  | .declaration _ _ => exact ⟨fun _ => rfl, fun _ => .declaration⟩
  | .action _ _ => exact ⟨fun _ => rfl, fun _ => .action⟩
  | .function _ _ _ => exact ⟨fun _ => rfl, fun _ => .function⟩
  | .returnValue _ _ => exact ⟨by rintro ⟨⟩, by rintro ⟨⟩⟩
  | .block _ body =>
    rw [Stmt.alwaysReturns, ← body.completes_normal_iff]
    constructor
    · rintro ⟨⟩
      assumption
    · exact .block
  | .conditional _ _ first none => exact ⟨fun _ => rfl, fun _ => .noAlternative⟩
  | .conditional _ _ first (some second) =>
    rw [Stmt.alwaysReturns, Bool.and_eq_false_iff, ← first.completes_normal_iff,
      ← second.completes_normal_iff]
    constructor
    · intro completes
      cases completes with
      | consequent inside => exact .inl inside
      | alternative inside => exact .inr inside
    · rintro (inside | inside)
      · exact .consequent inside
      · exact .alternative inside
  | .forLoop _ _ _ _ _ => exact ⟨fun _ => rfl, fun _ => .forLoop .ended⟩
  | .whileLoop _ _ _ => exact ⟨fun _ => rfl, fun _ => .whileLoop .ended⟩

theorem Block.completes_normal_iff (block : Block) :
    block.Completes .normal ↔ block.alwaysReturns = false := by
  match block with
  | .mk _ _ body =>
    rw [Block.alwaysReturns, ← completesAll_normal_iff body]
    constructor
    · rintro ⟨⟩
      assumption
    · exact .mk

theorem completesAll_normal_iff (statements : List Stmt) :
    CompletesAll statements .normal ↔ anyReturns statements = false := by
  match statements with
  | [] => exact ⟨fun _ => rfl, fun _ => .nil⟩
  | first :: rest =>
    rw [completesAll_cons_normal_iff, first.completes_normal_iff, completesAll_normal_iff rest,
      anyReturns, Bool.or_eq_false_iff]

end

/-! ### Statements that an execution may come to -/

/-- An execution of the statements may come to the statement at a spot. The body of a function is
executed when the function is called. -/
def Spot.Reached : Spot → List Stmt → Prop
  | .here index, statements =>
    index < statements.length ∧ CompletesAll (statements.take index) .normal
  | .within index alternative inner, statements =>
    CompletesAll (statements.take index) .normal ∧
      ∃ statement block, statements[index]? = some statement ∧
        statement.block? alternative = some block ∧ inner.Reached block.statements

namespace Spot

variable {first : Stmt} {rest statements : List Stmt}

theorem reached_next_iff :
    spot.next.Reached (first :: rest) ↔ first.Completes .normal ∧ spot.Reached rest := by
  cases spot with
  | here index =>
    rw [next, Reached, Reached, List.take_succ_cons, completesAll_cons_normal_iff,
      List.length_cons, Nat.add_lt_add_iff_right, and_left_comm]
  | within index alternative inner =>
    rw [next, Reached, Reached, List.take_succ_cons, completesAll_cons_normal_iff, and_assoc,
      List.getElem?_cons_succ]

theorem reached_within_zero_iff {alternative : Bool} {inner : Spot} :
    (within 0 alternative inner).Reached (first :: rest) ↔
      ∃ block, first.block? alternative = some block ∧ inner.Reached block.statements := by
  rw [Reached]
  constructor
  · rintro ⟨_, statement, block, ⟨⟩, isBlock, reached⟩
    exact ⟨block, isBlock, reached⟩
  · rintro ⟨block, isBlock, reached⟩
    exact ⟨.nil, first, block, rfl, isBlock, reached⟩

theorem reached_here_zero : (here 0).Reached (first :: rest) :=
  ⟨Nat.zero_lt_succ _, .nil⟩

/-- There is a statement where an execution may come to. -/
theorem Reached.exists_find? (reached : spot.Reached statements) :
    ∃ statement, spot.find? statements = some statement := by
  induction spot generalizing statements with
  | here index => exact ⟨_, List.getElem?_eq_getElem reached.1⟩
  | within index alternative inner inductionHypothesis =>
    obtain ⟨_, statement, block, isStatement, isBlock, inside⟩ := reached
    obtain ⟨found, isFound⟩ := inductionHypothesis inside
    refine ⟨found, ?_⟩
    rw [find?, isStatement, Option.bind_some, isBlock, Option.bind_some, isFound]

end Spot

/-! ### What pruning leaves -/

theorem Stmt.block?_pruned (statement : Stmt) (alternative : Bool) :
    statement.pruned.block? alternative = (statement.block? alternative).map Block.pruned := by
  fun_cases Stmt.pruned statement <;> cases alternative <;> rfl

theorem Block.statements_pruned (block : Block) :
    block.pruned.statements = prunedAll block.statements := by
  cases block
  rfl

theorem Stmt.shell_pruned (statement : Stmt) : statement.pruned.shell = statement.shell := by
  have emptied_pruned (block : Block) : block.pruned.emptied = block.emptied := by
    cases block
    rfl
  fun_cases Stmt.pruned statement <;> simp only [Stmt.shell, emptied_pruned, Option.map]

/-- Pruning leaves the statements of a sequence that stand behind none that always returns. -/
theorem getElem?_prunedAll_eq_some_iff {index : Nat} :
    (prunedAll statements)[index]? = some left ↔
      CompletesAll (statements.take index) .normal ∧
        ∃ whole, statements[index]? = some whole ∧ whole.pruned = left := by
  induction statements generalizing index with
  | nil => simp [prunedAll]
  | cons first rest inductionHypothesis =>
    rw [prunedAll]
    cases index with
    | zero =>
      have isFirst : (if first.alwaysReturns then [first.pruned]
          else first.pruned :: prunedAll rest)[0]? = some first.pruned := by
        split <;> rfl
      rw [isFirst, List.take_zero]
      simp [CompletesAll.nil]
    | succ index =>
      rw [List.take_succ_cons, completesAll_cons_normal_iff, first.completes_normal_iff,
        List.getElem?_cons_succ]
      split
      · next returns => simp [returns]
      · next goesOn =>
        rw [List.getElem?_cons_succ, inductionHypothesis, Bool.eq_false_iff.mpr goesOn, and_assoc,
          eq_self, true_and]

/-- Pruning leaves what stands at the spots that an execution may come to, and nothing else. -/
theorem Spot.find?_prunedAll_eq_some_iff :
    spot.find? (prunedAll statements) = some left ↔
      spot.Reached statements ∧
        ∃ whole, spot.find? statements = some whole ∧ whole.pruned = left := by
  induction spot generalizing statements with
  | here index =>
    rw [find?, getElem?_prunedAll_eq_some_iff, Reached, find?]
    constructor
    · rintro ⟨completes, whole, isWhole, isLeft⟩
      exact ⟨⟨(List.getElem?_eq_some_iff.mp isWhole).1, completes⟩, whole, isWhole, isLeft⟩
    · rintro ⟨⟨_, completes⟩, whole⟩
      exact ⟨completes, whole⟩
  | within index alternative inner inductionHypothesis =>
    rw [find?, Reached]
    constructor
    · intro found
      obtain ⟨outer, isOuter, found⟩ := Option.bind_eq_some_iff.mp found
      obtain ⟨completes, statement, isStatement, rfl⟩ := getElem?_prunedAll_eq_some_iff.mp isOuter
      obtain ⟨pruned, isPruned, found⟩ := Option.bind_eq_some_iff.mp found
      rw [Stmt.block?_pruned] at isPruned
      obtain ⟨block, isBlock, rfl⟩ := Option.map_eq_some_iff.mp isPruned
      rw [Block.statements_pruned] at found
      obtain ⟨reached, whole, isWhole, isLeft⟩ := inductionHypothesis.mp found
      refine ⟨⟨completes, statement, block, isStatement, isBlock, reached⟩, whole, ?_, isLeft⟩
      rw [find?, isStatement, Option.bind_some, isBlock, Option.bind_some, isWhole]
    · rintro ⟨⟨completes, statement, block, isStatement, isBlock, reached⟩, whole, isWhole, isLeft⟩
      rw [find?, isStatement, Option.bind_some, isBlock, Option.bind_some] at isWhole
      rw [getElem?_prunedAll_eq_some_iff.mpr ⟨completes, statement, isStatement, rfl⟩,
        Option.bind_some, Stmt.block?_pruned, isBlock, Option.map_some, Option.bind_some,
        Block.statements_pruned]
      exact inductionHypothesis.mpr ⟨reached, whole, isWhole, isLeft⟩

/-- An execution may come just to the spots where pruning leaves something. -/
theorem Spot.reached_iff :
    spot.Reached statements ↔ ∃ left, spot.find? (prunedAll statements) = some left := by
  constructor
  · intro reached
    obtain ⟨whole, isWhole⟩ := reached.exists_find?
    exact ⟨whole.pruned, find?_prunedAll_eq_some_iff.mpr ⟨reached, whole, isWhole, rfl⟩⟩
  · rintro ⟨left, isLeft⟩
    exact (find?_prunedAll_eq_some_iff.mp isLeft).1

end PadLang
