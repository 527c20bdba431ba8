/-
This file puts together what analysis does.

An accepted program is the program that was read, with types and scopes written on it, without
what can never run and with its functions in front. It belongs to the tree of scopes that
analysis leaves behind. Analysis faults only on programs that bear scopes already or declare
types whose cells no counter can hold.
-/

import PadLang.Proofs.Trimming
import PadLang.Analysis

namespace PadLang

variable {functions : Functions} {returns : Option Ty} {context elsewhere : Context}
  {statements second first : List Stmt} {tree : ScopeTree} {statement : Stmt}

/-! ### Functions in front -/

theorem allScoped_append :
    allScoped functions returns context (first ++ second) ↔
      allScoped functions returns context first ∧
        allScoped functions returns (context.declare (declaredBy first)) second := by
  induction first generalizing context with
  | nil => simp [allScoped]
  | cons statement rest inductionHypothesis =>
    rw [List.cons_append, allScoped, allScoped, inductionHypothesis, declaredBy_cons,
      Context.declare_append, and_assoc]

theorem Stmt.declares_of_isFunction (isFunction : statement.isFunction = true) :
    statement.declares = [] := by
  obtain ⟨span, header, body, rfl⟩ := Stmt.exists_eq_function isFunction
  rfl

/-- What a function may refer to does not depend on its place. -/
theorem Stmt.Scoped.of_isFunction {others : Option Ty} (isFunction : statement.isFunction = true)
    (inScope : statement.Scoped functions returns context) :
    statement.Scoped functions others elsewhere := by
  obtain ⟨span, header, body, rfl⟩ := Stmt.exists_eq_function isFunction
  exact inScope

theorem declaredBy_filter_isFunction (statements : List Stmt) :
    declaredBy (statements.filter Stmt.isFunction) = [] := by
  induction statements with
  | nil => rfl
  | cons first rest inductionHypothesis =>
    by_cases isFunction : first.isFunction = true
    · rw [List.filter_cons_of_pos isFunction, declaredBy_cons, inductionHypothesis,
        Stmt.declares_of_isFunction isFunction, List.append_nil]
    · rw [List.filter_cons_of_neg isFunction, inductionHypothesis]

theorem declaredBy_filter_not_isFunction (statements : List Stmt) :
    declaredBy (statements.filter fun statement => !statement.isFunction) =
      declaredBy statements := by
  induction statements with
  | nil => rfl
  | cons first rest inductionHypothesis =>
    by_cases isFunction : first.isFunction = true
    · rw [List.filter_cons_of_neg (by simp [isFunction]), declaredBy_cons, inductionHypothesis,
        Stmt.declares_of_isFunction isFunction, List.nil_append]
    · rw [List.filter_cons_of_pos (by simp [isFunction]), declaredBy_cons, declaredBy_cons,
        inductionHypothesis]

theorem allScoped.filter_isFunction (inScope : allScoped functions returns context statements) :
    allScoped functions returns elsewhere (statements.filter Stmt.isFunction) := by
  induction statements generalizing context with
  | nil => trivial
  | cons first rest inductionHypothesis =>
    by_cases isFunction : first.isFunction = true
    · rw [List.filter_cons_of_pos isFunction, allScoped, Stmt.declares_of_isFunction isFunction,
        Context.declare_nil]
      exact ⟨inScope.1.of_isFunction isFunction, inductionHypothesis inScope.2⟩
    · rw [List.filter_cons_of_neg isFunction]
      exact inductionHypothesis inScope.2

theorem allScoped.filter_not_isFunction (inScope : allScoped functions returns context statements) :
    allScoped functions returns context
      (statements.filter fun statement => !statement.isFunction) := by
  induction statements generalizing context with
  | nil => trivial
  | cons first rest inductionHypothesis =>
    by_cases isFunction : first.isFunction = true
    · rw [List.filter_cons_of_neg (by simp [isFunction])]
      have later := inScope.2
      rw [Stmt.declares_of_isFunction isFunction, Context.declare_nil] at later
      exact inductionHypothesis later
    · rw [List.filter_cons_of_pos (by simp [isFunction])]
      exact ⟨inScope.1, inductionHypothesis inScope.2⟩

namespace Analysis

theorem hoist_eq (statements : List Stmt) :
    hoist statements = statements.filter Stmt.isFunction ++
      statements.filter fun statement => !statement.isFunction := by
  rw [hoist, List.partition_eq_filter_filter]
  rfl

theorem hoist_perm (statements : List Stmt) : (hoist statements).Perm statements := by
  rw [hoist_eq]
  exact List.filter_append_perm _ _

end Analysis

theorem allLaidOut_append {around : ScopeId} :
    allLaidOut tree around (first ++ second) ↔
      allLaidOut tree around first ∧ allLaidOut tree around second := by
  simp only [allLaidOut_iff, List.forall_mem_append]

/-- Moving the functions in front keeps a program and its tree together. -/
theorem Consistent.hoist {after : ScopeTree} (consistent : Consistent tree statements)
    (size : after.size = tree.size) (rows : after.row? = tree.row?) :
    Consistent after (Analysis.hoist statements) := by
  have perm := Analysis.hoist_perm statements
  have scopes : (scopesOf (Analysis.hoist statements)).Perm (scopesOf statements) := by
    rw [scopesOf_eq_flatMap, scopesOf_eq_flatMap]
    exact perm.flatMap_right _
  have sameFunctions : after.lookupFunction? = tree.lookupFunction? := by
    funext name
    rw [ScopeTree.lookupFunction?, ScopeTree.lookupFunction?, ScopeTree.functionIn?_eq,
      ScopeTree.functionIn?_eq, rows]
  refine ⟨consistent.sound.of_rows rows, ?_, ?_, ?_, scopes.nodup_iff.mpr consistent.distinct, ?_,
    ?_, sameFunctions ▸ consistent.callable⟩
  · rw [sameFunctions, Analysis.hoist_eq, allScoped_append, declaredBy_filter_isFunction,
      Context.declare_nil]
    exact ⟨consistent.inScope.filter_isFunction, consistent.inScope.filter_not_isFunction⟩
  · refine allLaidOut_iff.mpr fun statement member => ?_
    refine (consistent.laidOut.of_mem (perm.mem_iff.mp member)).congr fun id _ => ?_
    rw [rows]
  · obtain ⟨row, found, localsOf⟩ := consistent.globals
    refine ⟨row, by rw [rows]; exact found, ?_⟩
    rw [localsOf, Analysis.hoist_eq, declaredBy_append, declaredBy_filter_isFunction,
      declaredBy_filter_not_isFunction, List.nil_append]
  · intro id member
    rw [size]
    exact consistent.held id (scopes.mem_iff.mp member)
  · intro id member
    exact consistent.inner id (scopes.mem_iff.mp member)

/-! ### Analysis -/

/-- What an accepted program is: the statements that the checker passed, pruned and with the
functions in front. -/
structure Accepted (program : Program) (checked : List Stmt) (analysis : Analysis) : Prop where
  typed : ∃ result, Typing.program program = .ok result ∧ result.complaints = [] ∧
    result.value.statements = checked
  statements : analysis.program.statements = Analysis.hoist (prunedAll checked)
  erased : eraseAll checked = eraseAll program.statements
  consistent : Consistent analysis.tree analysis.program.statements

namespace Analysis

variable {program : Program}

/-- A program with complaints is pruned all the same, and must not fault either. -/
theorem pruning_meets {checked : Typing.Checked Program}
    (steady : Typing.Steady .initial (scopesOf program.statements)
      (scopesOf checked.value.statements) checked.tree) :
    Meets (allSized program.statements ∧ scopesOf program.statements = []) (fun _ => True)
      (ReturnPaths.program checked.tree checked.value) := by
  by_cases isSafe : allSized program.statements ∧ scopesOf program.statements = []
  · exact (ReturnPaths.program_meets steady.sound _ (steady.held isSafe.2)).mono
      fun _ _ => trivial
  · exact Meets.of_unsafe isSafe

/-- The passes of analysis over an accepted program, none of which complains. -/
theorem exists_of_accepted {analysis : Analysis} (accepted : analyze program = .ok (.ok analysis)) :
    ∃ checked pruned, Typing.program program = .ok checked ∧ checked.complaints = [] ∧
      ReturnPaths.program checked.tree checked.value = .ok pruned ∧
      pruned.tree.hoistFunctions ScopeTree.global = .ok analysis.tree ∧
      analysis.program.statements = hoist pruned.value.statements := by
  obtain ⟨checked, isChecked, accepted⟩ := bind_eq_ok_iff.mp accepted
  obtain ⟨pruned, isPruned, accepted⟩ := bind_eq_ok_iff.mp accepted
  split at accepted
  · rename_i clean
    obtain ⟨tree, isTree, ⟨⟩⟩ := bind_eq_ok_iff.mp accepted
    exact ⟨checked, pruned, isChecked, (List.append_eq_nil_iff.mp clean).1, isPruned, isTree, rfl⟩
  · cases accepted

theorem analyze_meets (program : Program) :
    Meets (allSized program.statements ∧ scopesOf program.statements = [])
      (fun result => ∀ analysis, result = .ok analysis →
        ∃ checked, Accepted program checked analysis)
      (analyze program) := by
  refine Meets.bind ((Typing.program_meets program).weaken And.left).with_eq ?_
  rintro checked ⟨isChecked, steady, erased, accepted⟩
  by_cases clean : checked.complaints = []
  · have consistent := accepted clean
    refine Meets.bind (ReturnPaths.program_meets steady.sound _ consistent.held) ?_
    rintro pruned ⟨value, prunes, stillConsistent⟩
    split
    · refine Meets.bind (ScopeTree.hoistFunctions_meets prunes.sound.rooted.global_lt) ?_
      rintro tree ⟨size, rows⟩
      refine Meets.pure fun analysis isAnalysis => ?_
      cases isAnalysis
      refine ⟨checked.value.statements, ⟨checked, isChecked, clean, rfl⟩, by rw [value], erased, ?_⟩
      rw [value]
      exact (stillConsistent consistent).1.hoist size rows
    · exact Meets.pure nofun
  · refine Meets.bind (pruning_meets steady) fun pruned _ => ?_
    split
    · rename_i none_left
      exact absurd (List.append_eq_nil_iff.mp none_left).1 clean
    · exact Meets.pure nofun

end Analysis

end PadLang
