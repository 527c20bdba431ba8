/-
This file describes what pruning leaves of a program.

The dead tails of a program are found without types and scopes, and so are the warnings about them.
What pruning leaves is well typed if the program was.
-/

import PadLang.Proofs.Survivors
import PadLang.Proofs.Typing.Erasure

namespace PadLang

/-! ### Dead tails -/

mutual

theorem Stmt.deadTails_erase (statement : Stmt) :
    statement.erase.deadTails =
      statement.deadTails.map fun tail => (tail.1.erase, eraseAll tail.2) := by
  match statement with
  | .assignment _ _ | .declaration _ _ | .action _ _ | .returnValue _ _ => rfl
  | .block _ body | .function _ _ body | .conditional _ _ body none | .forLoop _ _ _ _ body
  | .whileLoop _ _ body => exact body.deadTails_erase
  | .conditional _ _ first (some second) =>
    rw [Stmt.erase, Stmt.deadTails, Stmt.deadTails, first.deadTails_erase,
      second.deadTails_erase, List.map_append]

theorem Block.deadTails_erase (block : Block) :
    block.erase.deadTails =
      block.deadTails.map fun tail => (tail.1.erase, eraseAll tail.2) := by
  match block with
  | .mk _ _ body => exact deadTailsOf_eraseAll body

/-- Dead tails are found without types and scopes. -/
theorem deadTailsOf_eraseAll (statements : List Stmt) :
    deadTailsOf (eraseAll statements) =
      (deadTailsOf statements).map fun tail => (tail.1.erase, eraseAll tail.2) := by
  match statements with
  | [] => rfl
  | first :: rest =>
    rw [eraseAll, deadTailsOf, deadTailsOf, first.alwaysReturns_erase, first.deadTails_erase]
    split
    · rw [List.map_append]
      cases rest <;> rfl
    · rw [List.map_append, deadTailsOf_eraseAll rest]

end

/-! ### Warnings -/

theorem Stmt.span_erase (statement : Stmt) : statement.erase.span = statement.span := by
  fun_cases Stmt.erase statement <;> rfl

/-- Warnings do not depend on types and scopes. -/
theorem warningsAbout_eraseAll (statements : List Stmt) :
    warningsAbout (deadTailsOf (eraseAll statements)) = warningsAbout (deadTailsOf statements) := by
  rw [deadTailsOf_eraseAll, warningsAbout, warningsAbout, List.map_map]
  refine List.map_congr_left fun tail _ => ?_
  have last : ((tail.1.erase :: eraseAll tail.2).getLastD tail.1.erase).span =
      ((tail.1 :: tail.2).getLastD tail.1).span := by
    rw [List.getLastD_cons, List.getLastD_cons, eraseAll_eq_map, List.getLastD_map,
      Stmt.span_erase]
  simp only [Function.comp_apply, ReturnPaths.warning, last, Stmt.span_erase]

namespace Analysis

/-- The warnings about a program, whether it is accepted or not. -/
def warningsOf : Except Rejection Analysis → List (Located Unreachable)
  | .ok analysis => analysis.warnings
  | .error rejection => rejection.warnings

/-- What the two passes make of a program. Accepted or not, it is warned about its dead tails. -/
theorem exists_passes {program : Program} {result : Except Rejection Analysis}
    (analyzed : analyze program = .ok result) :
    ∃ checked pruned, Typing.program program = .ok checked ∧
      ReturnPaths.program checked.tree checked.value = .ok pruned ∧
      eraseAll pruned.value.statements = eraseAll (prunedAll program.statements) ∧
      warningsOf result = warningsAbout (deadTailsOf program.statements) := by
  obtain ⟨checked, isChecked, rest⟩ := bind_eq_ok_iff.mp analyzed
  obtain ⟨pruned, isPruned, rest⟩ := bind_eq_ok_iff.mp rest
  have warnings : warningsOf result = pruned.warnings := by
    split at rest
    · obtain ⟨_, _, same⟩ := bind_eq_ok_iff.mp rest
      cases same
      rfl
    · cases rest
      rfl
  obtain ⟨_, erased, _⟩ := (Typing.program_meets program).good_of_ok isChecked
  refine ⟨checked, pruned, isChecked, isPruned, ?_⟩
  obtain ⟨whole, isWhole, same⟩ := bind_eq_ok_iff.mp isPruned
  cases same
  rw [ReturnPaths.sequence_eq] at isWhole
  obtain ⟨left, _, same⟩ := bind_eq_ok_iff.mp isWhole
  cases same
  constructor
  · change eraseAll (prunedAll checked.value.statements) = _
    rw [← prunedAll_eraseAll, erased, prunedAll_eraseAll]
  · rw [warnings, ← warningsAbout_eraseAll, erased, warningsAbout_eraseAll]

end Analysis

/-! ### Well-typed programs -/

theorem declaredBy_prunedAll_sublist (statements : List Stmt) :
    (declaredBy (prunedAll statements)).Sublist (declaredBy statements) := by
  rw [declaredBy_prunedAll statements]
  exact List.sublist_append_left _ _

mutual

theorem Stmt.WellTyped.pruned {functions : Functions} {returns : Option Ty} {visible : Visible}
    {statement : Stmt} (typed : statement.WellTyped functions returns visible) :
    statement.pruned.WellTyped functions returns visible := by
  match statement with
  | .assignment _ _ | .declaration _ _ | .action _ _ | .returnValue _ _ | .function _ _ _ =>
    exact typed
  | .block _ body => exact Block.WellTyped.pruned typed
  | .conditional _ _ _ none | .whileLoop _ _ _ => exact ⟨typed.1, typed.2.pruned⟩
  | .conditional _ _ first (some second) => exact ⟨typed.1, typed.2.1.pruned, typed.2.2.pruned⟩
  | .forLoop _ _ _ _ (.mk _ _ body) =>
    obtain ⟨declarable, init, condition, update, inside⟩ := typed
    refine ⟨declarable.sublist ?_, init, condition, update, allWellTyped.pruned inside⟩
    exact (declaredBy_prunedAll_sublist body).append_left _

theorem Block.WellTyped.pruned {functions : Functions} {returns : Option Ty} {visible : Visible}
    {block : Block} (typed : block.WellTyped functions returns visible) :
    block.pruned.WellTyped functions returns visible := by
  match block with
  | .mk _ _ body =>
    exact ⟨typed.1.sublist (declaredBy_prunedAll_sublist body), allWellTyped.pruned typed.2⟩

theorem allWellTyped.pruned {functions : Functions} {returns : Option Ty} {visible : Visible}
    {statements : List Stmt} (typed : allWellTyped functions returns visible statements) :
    allWellTyped functions returns visible (prunedAll statements) := by
  match statements with
  | [] => trivial
  | first :: rest =>
    rw [prunedAll]
    split
    · exact ⟨Stmt.WellTyped.pruned typed.1, trivial⟩
    · refine ⟨Stmt.WellTyped.pruned typed.1, ?_⟩
      rw [Stmt.declares_pruned]
      exact allWellTyped.pruned typed.2

end

end PadLang
