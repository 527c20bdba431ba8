/-
This file shows that types and scopes do not matter for what is left of a program.

Neither removing what can never run nor moving functions to the front looks at the types and
scopes that analysis writes on a program, so both can be done without them.
-/

import PadLang.Proofs.Analysis
import PadLang.Proofs.Uses

namespace PadLang

mutual

theorem Stmt.pruned_erase (statement : Stmt) : statement.erase.pruned = statement.pruned.erase := by
  match statement with
  | .assignment _ _ | .declaration _ _ | .action _ _ | .returnValue _ _ => rfl
  | .block span body => exact congrArg (Stmt.block span) body.pruned_erase
  | .function span header body => exact congrArg (Stmt.function span _) body.pruned_erase
  | .conditional span condition first none =>
    exact congrArg (Stmt.conditional span condition.erase · none) first.pruned_erase
  | .conditional span condition first (some second) =>
    simp only [Stmt.erase, Stmt.pruned, first.pruned_erase, second.pruned_erase]
  | .forLoop span init condition update body =>
    exact congrArg (Stmt.forLoop span _ condition.erase _) body.pruned_erase
  | .whileLoop span condition body =>
    exact congrArg (Stmt.whileLoop span condition.erase) body.pruned_erase

theorem Block.pruned_erase (block : Block) : block.erase.pruned = block.pruned.erase := by
  match block with
  | .mk position scope body => exact congrArg (Block.mk position none) (prunedAll_eraseAll body)

/-- What can never run is the same without types and scopes. -/
theorem prunedAll_eraseAll (statements : List Stmt) :
    prunedAll (eraseAll statements) = eraseAll (prunedAll statements) := by
  match statements with
  | [] => rfl
  | first :: rest =>
    rw [eraseAll, prunedAll, prunedAll, first.alwaysReturns_erase]
    split
    · rw [first.pruned_erase, eraseAll, eraseAll]
    · rw [first.pruned_erase, prunedAll_eraseAll rest, eraseAll]

end

theorem Stmt.isFunction_erase (statement : Stmt) :
    statement.erase.isFunction = statement.isFunction := by
  fun_cases Stmt.erase statement <;> rfl

theorem eraseAll_filter {selected : Stmt → Bool}
    (stable : ∀ statement : Stmt, selected statement.erase = selected statement)
    (statements : List Stmt) :
    eraseAll (statements.filter selected) = (eraseAll statements).filter selected := by
  rw [eraseAll_eq_map, eraseAll_eq_map, List.filter_map]
  simp only [Function.comp_def, stable]

theorem Analysis.hoist_eraseAll (statements : List Stmt) :
    hoist (eraseAll statements) = eraseAll (hoist statements) := by
  rw [hoist_eq, hoist_eq, eraseAll_eq_map, eraseAll_eq_map, List.map_append, List.filter_map,
    List.filter_map]
  simp only [Function.comp_def, Stmt.isFunction_erase]

end PadLang
