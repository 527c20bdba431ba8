/-
This file shows that dead code leaves no trace in what a program is compiled to.

Pruning takes the scopes and the declarations of dead tails back out of the tree, but the tree
they stood in is not the tree that would have been built without them: the scopes of the two bear
different numbers. Code says nothing about numbers. A program from which the dead tails are
deleted beforehand is accepted without a warning, what is left of it is the same up to types and
scopes, its functions are the same, and so is its code.
-/

import PadLang.Proofs.Code.Renumbering
import PadLang.Proofs.DeadTails
import PadLang.Proofs.Mirroring
import PadLang.Proofs.Totality

namespace PadLang

variable {statements : List Stmt}

/-! ### Types that were declared -/

theorem ScopeTree.Opens.sized {tree : ScopeTree} {scope around : ScopeId} {kind : ScopeKind}
    {name : Option String} {vars : Vars} (opens : tree.Opens scope around kind name vars)
    (tidy : tree.Tidy) : ∀ entry ∈ vars, entry.2.Sized := by
  obtain ⟨row, found, _, _, _, _, locals⟩ := opens
  intro entry member
  have sized := (tidy found).sized
  rw [locals] at sized
  exact sized (entry.1, { type := entry.2 }) (List.mem_map_of_mem member)

section Sized

variable {tree : ScopeTree}

mutual

/-- A tree that lays out a statement has counted the cells of the types in it. -/
theorem Stmt.LaidOut.sized {around : ScopeId} {statement : Stmt}
    (laidOut : statement.LaidOut tree around) (tidy : tree.Tidy)
    (declared : ∀ entry ∈ statement.declares, entry.2.Sized) : statement.Sized := by
  match statement with
  | .assignment _ _ | .action _ _ | .returnValue _ _ => trivial
  | .declaration _ made => exact declared _ List.mem_cons_self
  | .block _ _ | .conditional _ _ _ none | .whileLoop _ _ _ =>
    exact Block.LaidOut.sized laidOut tidy
  | .function _ header body =>
    obtain ⟨opened, _, opens, inside⟩ := laidOut
    refine ⟨fun parameter member => ?_, inside.sized tidy⟩
    exact opens.sized tidy _ (List.mem_map_of_mem member)
  | .conditional _ _ first (some second) =>
    exact ⟨laidOut.1.sized tidy, laidOut.2.sized tidy⟩
  | .forLoop _ init _ _ (.mk _ scope body) =>
    obtain ⟨opened, rfl, opens, inside⟩ := laidOut
    obtain ⟨sizedInit, sizedBody⟩ := List.forall_mem_append.mp (opens.sized tidy)
    refine ⟨fun made isInit => ?_, allLaidOut.sized inside tidy sizedBody⟩
    obtain rfl := Option.mem_def.mp isInit
    exact sizedInit _ List.mem_cons_self

theorem Block.LaidOut.sized {around : ScopeId} {kind : ScopeKind} {block : Block}
    (laidOut : block.LaidOut tree around kind) (tidy : tree.Tidy) : block.Sized := by
  match block with
  | .mk _ scope body =>
    obtain ⟨opened, rfl, opens, inside⟩ := laidOut
    exact allLaidOut.sized inside tidy (opens.sized tidy)

theorem allLaidOut.sized {around : ScopeId} {statements : List Stmt}
    (laidOut : allLaidOut tree around statements) (tidy : tree.Tidy)
    (declared : ∀ entry ∈ declaredBy statements, entry.2.Sized) : allSized statements := by
  match statements with
  | [] => trivial
  | first :: rest =>
    rw [declaredBy_cons] at declared
    obtain ⟨sizedFirst, sizedRest⟩ := List.forall_mem_append.mp declared
    exact ⟨Stmt.LaidOut.sized laidOut.1 tidy sizedFirst,
      allLaidOut.sized laidOut.2 tidy sizedRest⟩

end

end Sized

theorem Consistent.sized {tree : ScopeTree} {statements : List Stmt}
    (consistent : Consistent tree statements) : allSized statements := by
  obtain ⟨row, found, locals⟩ := consistent.globals
  refine consistent.laidOut.sized consistent.sound.tidy fun entry member => ?_
  have sized := (consistent.sound.tidy found).sized
  rw [locals] at sized
  exact sized (entry.1, { type := entry.2 }) (List.mem_map_of_mem member)

/-! ### Programs without dead tails -/

/-- A program without the tails that can never run. -/
def Program.pruned (program : Program) : Program := ⟨prunedAll program.statements⟩

theorem headersOf_prunedAll (goesOn : anyReturns statements = false) :
    headersOf (prunedAll statements) = headersOf statements := by
  rw [prunedAll_eq_map goesOn, headersOf, List.filterMap_map]
  exact congrArg (List.filterMap · statements) (funext Stmt.header?_pruned)

theorem anyReturns_filter (goesOn : anyReturns statements = false) (selected : Stmt → Bool) :
    anyReturns (statements.filter selected) = false := by
  induction statements with
  | nil => rfl
  | cons first rest inductionHypothesis =>
    rw [anyReturns, Bool.or_eq_false_iff] at goesOn
    rw [List.filter_cons]
    split
    · rw [anyReturns, goesOn.1, inductionHypothesis goesOn.2, Bool.or_false]
    · exact inductionHypothesis goesOn.2

theorem filter_prunedAll (goesOn : anyReturns statements = false) :
    (prunedAll statements).filter (fun statement => !statement.isFunction) =
      prunedAll (statements.filter fun statement => !statement.isFunction) := by
  have isFunction_pruned (statement : Stmt) :
      statement.pruned.isFunction = statement.isFunction := by
    fun_cases Stmt.pruned statement <;> rfl
  rw [prunedAll_eq_map goesOn, prunedAll_eq_map (anyReturns_filter goesOn _), List.filter_map]
  exact congrArg _ (List.filter_congr fun statement _ => congrArg not (isFunction_pruned statement))

/-- Deleting what can never run leaves a program well typed. -/
theorem Program.WellTyped.pruned {program : Program} (typed : program.WellTyped)
    (goesOn : anyReturns program.statements = false) : program.pruned.WellTyped := by
  have headers := congrArg (List.map fun header => ({ header with scope := none } : Header))
    (headersOf_prunedAll goesOn)
  have functions_eq : functionsOf program.pruned.statements = functionsOf program.statements :=
    functionsOf_eq_of_headersOf headers
  have names_eq : functionNames program.pruned.statements = functionNames program.statements :=
    functionNames_eq_of_headersOf headers
  refine ⟨names_eq ▸ typed.distinct, names_eq ▸ typed.unreserved, ?_, ?_, ?_⟩
  · intro span header body member
    rw [functions_eq]
    obtain ⟨original, isOriginal, same⟩ := exists_of_mem_prunedAll member
    obtain ⟨whole, rfl, rfl⟩ :
        ∃ whole, original = .function span header whole ∧ body = whole.pruned := by
      fun_cases Stmt.pruned original <;> cases same
      exact ⟨_, rfl, rfl⟩
    obtain ⟨parameters, inside, returns⟩ := typed.functions span header whole isOriginal
    exact ⟨parameters, inside.pruned, whole.alwaysReturns_pruned.trans returns⟩
  · rw [functions_eq]
    exact typed.globals.sublist (declaredBy_prunedAll_sublist _)
  · rw [functions_eq]
    exact filter_prunedAll goesOn ▸ typed.statements.pruned

namespace Analysis

variable {program : Program} {analysis : Analysis}

section

variable (accepted : analyze program = .ok (.ok analysis))

include accepted

/-- No statement at the top level of an accepted program always returns. -/
theorem goesOn_of_accepted : anyReturns program.statements = false := by
  obtain ⟨checked, made⟩ := (analyze_meets program).good_of_ok accepted analysis rfl
  obtain ⟨result, typed, fine, rfl⟩ := made.typed
  obtain ⟨_, erased, consistent⟩ := (Typing.program_meets program).good_of_ok typed
  rw [← anyReturns_eraseAll, ← erased, anyReturns_eraseAll]
  exact (consistent fine).inScope.anyReturns_eq_false

/-- The cells of the types in an accepted program were counted. -/
theorem sized_of_accepted : allSized program.statements := by
  obtain ⟨checked, _, isChecked, clean, _⟩ := exists_of_accepted accepted
  obtain ⟨_, erased, consistent⟩ := (Typing.program_meets program).good_of_ok isChecked
  refine (allTypes_eraseAll _ _).mp ?_
  rw [← erased]
  exact (allTypes_eraseAll _ _).mpr (consistent clean).sized

theorem wellTyped_of_accepted : program.WellTyped :=
  ((analyze_exact program).good_of_ok accepted).1.mp ⟨analysis, rfl⟩

end

/-- A program whose types can be counted is accepted if it is well typed. -/
theorem exists_analyze_of_wellTyped (typed : program.WellTyped)
    (sized : allSized program.statements) : ∃ analysis, analyze program = .ok (.ok analysis) := by
  obtain ⟨result, analyzed, decides, _⟩ := (analyze_exact program).exists_ok ⟨sized, .inr typed⟩
  obtain ⟨analysis, rfl⟩ := decides.mpr typed
  exact ⟨analysis, analyzed⟩

variable (accepted : analyze program = .ok (.ok analysis))

include accepted

/-- A program is accepted if it is what pruning leaves of one that is. -/
theorem exists_analyze_pruned : ∃ trimmed, analyze program.pruned = .ok (.ok trimmed) :=
  exists_analyze_of_wellTyped
    ((wellTyped_of_accepted accepted).pruned (goesOn_of_accepted accepted))
    (allTypes.pruned (sized_of_accepted accepted))

/-- An accepted program without dead tails is accepted without warnings. -/
theorem warnings_eq_nil (nothingDead : deadTailsOf program.statements = []) :
    analysis.warnings = [] := by
  obtain ⟨_, _, _, _, _, warnings⟩ := exists_passes accepted
  rw [nothingDead] at warnings
  exact warnings

/-- Pruning an accepted program beforehand does not change its code. -/
theorem program_eq_pruned {trimmed : Analysis}
    (acceptedPruned : analyze program.pruned = .ok (.ok trimmed)) :
    Lexical.program trimmed.tree.lookupFunction? trimmed.program.statements =
      Lexical.program analysis.tree.lookupFunction? analysis.program.statements := by
  obtain ⟨_, made⟩ := (analyze_meets program).good_of_ok accepted analysis rfl
  obtain ⟨_, madePruned⟩ := (analyze_meets program.pruned).good_of_ok acceptedPruned trimmed rfl
  have functions_eq : trimmed.tree.lookupFunction? = analysis.tree.lookupFunction? := by
    rw [((analyze_exact program).good_of_ok accepted).2 analysis rfl,
      ((analyze_exact program.pruned).good_of_ok acceptedPruned).2 trimmed rfl]
    exact functionsOf_eq_of_headersOf
      (congrArg _ (headersOf_prunedAll (goesOn_of_accepted accepted)))
  have erased : eraseAll trimmed.program.statements = eraseAll analysis.program.statements := by
    rw [erased_of_accepted accepted, erased_of_accepted acceptedPruned, Program.pruned,
      ← prunedAll_eraseAll, prunedAll_prunedAll]
  rw [functions_eq]
  exact Lexical.program_eq_of_erase (functions_eq ▸ madePruned.consistent.inScope)
    made.consistent.inScope erased

end Analysis

/-- Dead code leaves no trace. What the pass over the return paths leaves of an accepted program is
the program without its dead tails, up to types and scopes. A program from which they were deleted
beforehand is accepted without warnings, and its code is the code of the whole program. There is
code for both if the blocks of the program are not nested deeper than levels can be counted. -/
theorem dead_code_leaves_no_trace {program : Program} {analysis : Analysis}
    (accepted : Analysis.analyze program = .ok (.ok analysis)) :
    (∃ checked pruned, Typing.program program = .ok checked ∧
      ReturnPaths.program checked.tree checked.value = .ok pruned ∧
      eraseAll pruned.value.statements = eraseAll program.pruned.statements) ∧
    ∃ trimmed, Analysis.analyze program.pruned = .ok (.ok trimmed) ∧ trimmed.warnings = [] ∧
      (∀ code, Code.generate trimmed.program trimmed.tree = .ok code ↔
        Code.generate analysis.program analysis.tree = .ok code) ∧
      (depthOf program.statements + 1 < Counter.bound →
        ∃ code, Code.generate trimmed.program trimmed.tree = .ok code) := by
  obtain ⟨checked, pruned, isChecked, isPruned, left, _⟩ := Analysis.exists_passes accepted
  obtain ⟨trimmed, acceptedPruned⟩ := Analysis.exists_analyze_pruned accepted
  obtain ⟨_, made⟩ := (Analysis.analyze_meets program).good_of_ok accepted analysis rfl
  obtain ⟨_, madePruned⟩ :=
    (Analysis.analyze_meets program.pruned).good_of_ok acceptedPruned trimmed rfl
  refine ⟨⟨checked, pruned, isChecked, isPruned, left⟩, trimmed, acceptedPruned,
    Analysis.warnings_eq_nil acceptedPruned (deadTailsOf_prunedAll _), fun code => ?_, ?_⟩
  · rw [Code.generate_eq_ok_iff madePruned.consistent, Code.generate_eq_ok_iff made.consistent,
      Analysis.program_eq_pruned accepted acceptedPruned]
  · intro shallow
    have shallower := madePruned.depthOf_le
    have fewer : depthOf program.pruned.statements ≤ depthOf program.statements :=
      depthOf_prunedAll _
    exact ⟨_, (Code.generate_eq_ok_iff madePruned.consistent).mpr
      ⟨rfl, Lexical.program_addressable (by omega)⟩⟩

theorem dead_code_leaves_no_trace_branching :
    ∃ analysis trimmed code,
      Analysis.analyze branchingProgram = .ok (.ok analysis) ∧ analysis.warnings.length = 2 ∧
      Analysis.analyze branchingProgram.pruned = .ok (.ok trimmed) ∧ trimmed.warnings = [] ∧
      Code.generate analysis.program analysis.tree = .ok code ∧
      Code.generate trimmed.program trimmed.tree = .ok code := by
  obtain ⟨analysis, accepted, warned⟩ := Analysis.exists_of_view
    (by decide +kernel : ((Analysis.analyze branchingProgram).toOption.bind
      Except.toOption).map (fun analysis => analysis.warnings.length) = some 2)
  obtain ⟨_, trimmed, acceptedPruned, silent, same, generates⟩ :=
    dead_code_leaves_no_trace accepted
  obtain ⟨code, generated⟩ := generates (by decide)
  exact ⟨analysis, trimmed, code, accepted, warned, acceptedPruned, silent,
    (same code).mp generated, generated⟩

end PadLang
