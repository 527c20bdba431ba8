/-
This file says what is left of a program that was accepted.

Analysis writes types and scopes on a program, removes what can never run and moves the functions
in front. None of this changes which functions there are or where functions stand, whether a
function returns on every path, or which types are declared, up to what is removed. So the code
generator is given a program whose functions stand at the top level, bear distinct names, always
return, and declare only types that programs can write.
-/

import PadLang.Proofs.Typing.Exactness

namespace PadLang

variable {statements second first : List Stmt} {statement : Stmt}

/-! ### Pruned statements -/

theorem exists_of_mem_prunedAll (member : statement ∈ prunedAll statements) :
    ∃ original ∈ statements, statement = original.pruned := by
  induction statements with
  | nil => cases member
  | cons first rest inductionHypothesis =>
    have among : statement = first.pruned ∨ statement ∈ prunedAll rest := by
      rw [prunedAll] at member
      split at member
      · exact .inl (List.mem_singleton.mp member)
      · exact List.mem_cons.mp member
    rcases among with rfl | later
    · exact ⟨first, List.mem_cons_self, rfl⟩
    · obtain ⟨original, isOriginal, same⟩ := inductionHypothesis later
      exact ⟨original, List.mem_cons_of_mem _ isOriginal, same⟩

/-- Nothing is removed from statements none of which always returns. -/
theorem prunedAll_eq_map (goesOn : anyReturns statements = false) :
    prunedAll statements = statements.map Stmt.pruned := by
  induction statements with
  | nil => rfl
  | cons first rest inductionHypothesis =>
    rw [anyReturns, Bool.or_eq_false_iff] at goesOn
    rw [prunedAll, goesOn.1, if_neg Bool.false_ne_true, inductionHypothesis goesOn.2, List.map_cons]

mutual

theorem Stmt.Plain.pruned {statement : Stmt} (plain : statement.Plain) :
    statement.pruned.Plain := by
  match statement with
  | .assignment _ _ | .declaration _ _ | .action _ _ | .returnValue _ _ => trivial
  | .block _ body | .conditional _ _ body none | .forLoop _ _ _ _ body | .whileLoop _ _ body =>
    exact Block.Plain.pruned plain
  | .conditional _ _ first (some second) => exact ⟨plain.1.pruned, plain.2.pruned⟩

theorem Block.Plain.pruned {block : Block} (plain : block.Plain) : block.pruned.Plain := by
  match block with
  | .mk _ _ body => exact allPlain.pruned plain

theorem allPlain.pruned {statements : List Stmt} (plain : allPlain statements) :
    allPlain (prunedAll statements) := by
  match statements with
  | [] => trivial
  | first :: rest =>
    rw [prunedAll]
    split
    · exact ⟨plain.1.pruned, trivial⟩
    · exact ⟨plain.1.pruned, allPlain.pruned plain.2⟩

end

theorem Stmt.Flat.pruned (flat : statement.Flat) : statement.pruned.Flat := by
  cases statement with
  | function _ _ _ | block _ _ | forLoop _ _ _ _ _ | whileLoop _ _ _ =>
    exact Block.Plain.pruned flat
  | conditional span condition first second =>
    cases second with
    | none => exact Block.Plain.pruned flat
    | some second => exact ⟨flat.1.pruned, flat.2.pruned⟩
  | _ => trivial

theorem Stmt.Flat.plain (flat : statement.Flat) (notFunction : statement.isFunction = false) :
    statement.Plain := by
  cases statement with
  | function span header body => cases notFunction
  | _ => exact flat

/-- The statements of a program that are no functions define none. -/
theorem allPlain_filter_not_isFunction (flat : ∀ statement ∈ statements, statement.Flat) :
    allPlain (statements.filter fun statement => !statement.isFunction) := by
  refine allPlain_iff.mpr fun statement member => ?_
  obtain ⟨isStatement, notFunction⟩ := List.mem_filter.mp member
  exact (flat statement isStatement).plain (by simpa using notFunction)

theorem Stmt.Returning.pruned (returning : statement.Returning) : statement.pruned.Returning := by
  cases statement with
  | function span header body => exact body.alwaysReturns_pruned.trans returning
  | conditional span condition first second => cases second <;> trivial
  | _ => trivial

/-! ### Declared types -/

theorem allTypes_iff {good : Ty → Prop} :
    allTypes good statements ↔ ∀ statement ∈ statements, statement.AllTypes good := by
  induction statements with
  | nil => simp [allTypes]
  | cons first rest inductionHypothesis =>
    rw [allTypes, inductionHypothesis, List.forall_mem_cons]

mutual

theorem Stmt.allTypes_erase (good : Ty → Prop) (statement : Stmt) :
    statement.erase.AllTypes good ↔ statement.AllTypes good := by
  match statement with
  | .assignment _ _ | .declaration _ _ | .action _ _ | .returnValue _ _ => rfl
  | .block _ body | .conditional _ _ body none | .whileLoop _ _ body =>
    exact body.allTypes_erase good
  | .function _ _ body | .forLoop _ none _ _ body =>
    exact and_congr_right' (body.allTypes_erase good)
  | .conditional _ _ first (some second) =>
    exact and_congr (first.allTypes_erase good) (second.allTypes_erase good)
  | .forLoop _ (some made) _ _ body =>
    refine and_congr ?_ (body.allTypes_erase good)
    simp [Declaration.erase]

theorem Block.allTypes_erase (good : Ty → Prop) (block : Block) :
    block.erase.AllTypes good ↔ block.AllTypes good := by
  match block with
  | .mk _ _ body => exact allTypes_eraseAll good body

theorem allTypes_eraseAll (good : Ty → Prop) (statements : List Stmt) :
    allTypes good (eraseAll statements) ↔ allTypes good statements := by
  match statements with
  | [] => rfl
  | first :: rest => exact and_congr (first.allTypes_erase good) (allTypes_eraseAll good rest)

end

mutual

theorem Stmt.AllTypes.pruned {good : Ty → Prop} {statement : Stmt}
    (types : statement.AllTypes good) : statement.pruned.AllTypes good := by
  match statement with
  | .assignment _ _ | .declaration _ _ | .action _ _ | .returnValue _ _ => exact types
  | .block _ body | .conditional _ _ body none | .whileLoop _ _ body =>
    exact Block.AllTypes.pruned types
  | .function _ _ _ | .forLoop _ _ _ _ _ => exact ⟨types.1, types.2.pruned⟩
  | .conditional _ _ first (some second) => exact ⟨types.1.pruned, types.2.pruned⟩

theorem Block.AllTypes.pruned {good : Ty → Prop} {block : Block} (types : block.AllTypes good) :
    block.pruned.AllTypes good := by
  match block with
  | .mk _ _ body => exact allTypes.pruned types

theorem allTypes.pruned {good : Ty → Prop} {statements : List Stmt}
    (types : allTypes good statements) : allTypes good (prunedAll statements) := by
  match statements with
  | [] => trivial
  | first :: rest =>
    rw [prunedAll]
    split
    · exact ⟨types.1.pruned, trivial⟩
    · exact ⟨types.1.pruned, allTypes.pruned types.2⟩

end

/-! ### Functions -/

/-- The headers of the functions among statements. -/
def headersOf (statements : List Stmt) : List Header := statements.filterMap Stmt.header?

theorem Stmt.header?_pruned (statement : Stmt) : statement.pruned.header? = statement.header? := by
  fun_cases Stmt.pruned statement <;> rfl

theorem Stmt.header?_erase (statement : Stmt) :
    statement.erase.header? =
      statement.header?.map fun header => { header with scope := none } := by
  fun_cases Stmt.erase statement <;> rfl

theorem headersOf_eraseAll (statements : List Stmt) :
    headersOf (eraseAll statements) =
      (headersOf statements).map fun header => { header with scope := none } := by
  rw [headersOf, eraseAll_eq_map, List.filterMap_map, headersOf, List.map_filterMap]
  exact congrArg (List.filterMap · statements) (funext Stmt.header?_erase)

/-- The functions in front come first in any case. -/
theorem headersOf_hoist (statements : List Stmt) :
    headersOf (Analysis.hoist statements) = headersOf statements := by
  have isFunction (statement : Stmt) : statement.isFunction = statement.header?.isSome := by
    cases statement <;> rfl
  unfold headersOf
  rw [Analysis.hoist_eq, List.filterMap_append]
  induction statements with
  | nil => rfl
  | cons first rest inductionHypothesis =>
    rw [List.filter_cons, List.filter_cons, List.filterMap_cons, isFunction first]
    cases header : first.header? with
    | none => simpa [header] using inductionHypothesis
    | some found => simpa [header] using inductionHypothesis

section

variable
  (same : (headersOf first).map (fun header => { header with scope := none }) =
    (headersOf second).map fun header => { header with scope := none })

include same

theorem functionNames_eq_of_headersOf : functionNames first = functionNames second := by
  have bare (statements : List Stmt) : functionNames statements =
      ((headersOf statements).map fun header => { header with scope := none }).map
        fun header => header.name.value := by
    rw [List.map_map]
    rfl
  rw [bare first, same, ← bare second]

theorem functionsOf_eq_of_headersOf : functionsOf first = functionsOf second := by
  have bare (statements : List Stmt) (name : String) : functionsOf statements name =
      (((headersOf statements).map fun header => { header with scope := none }).find?
        fun header => header.name.value == name).map Typing.signatureOf := by
    rw [List.find?_map, Option.map_map]
    rfl
  funext name
  rw [bare first, same, ← bare second]

end

/-! ### Accepted programs -/

/-- A program as the code generator is given it, and its tree of scopes. -/
structure Ready (tree : ScopeTree) (statements : List Stmt) : Prop where
  consistent : Consistent tree statements
  flat : ∀ statement ∈ statements, statement.Flat
  returning : ∀ statement ∈ statements, statement.Returning
  types : allTypes Ty.Written statements
  distinct : (functionNames statements).Nodup
  unreserved : "main" ∉ functionNames statements
  functions : tree.lookupFunction? = functionsOf statements

/-- An accepted program that was read from tokens is ready for code generation. -/
theorem Analysis.ready {program : Program} {analysis : Analysis}
    (analyzed : analyze program = .ok (.ok analysis))
    (types : allTypes Ty.Written program.statements) :
    Ready analysis.tree analysis.program.statements := by
  obtain ⟨checked, accepted⟩ := (analyze_meets program).good_of_ok analyzed analysis rfl
  obtain ⟨decides, calls⟩ := (analyze_exact program).good_of_ok analyzed
  obtain ⟨checks, returning⟩ := (Program.wellTyped_iff program).mp (decides.mp ⟨analysis, rfl⟩)
  obtain ⟨result, typed, fine, isChecked⟩ := accepted.typed
  have consistent := ((Typing.program_meets program).good_of_ok typed).2.2 fine
  -- what erasure does not change and pruning keeps holds of what is left
  have survives {holds : Stmt → Prop}
      (stable : ∀ statement : Stmt, holds statement.erase ↔ holds statement)
      (kept : ∀ statement : Stmt, holds statement → holds statement.pruned)
      (before : ∀ statement ∈ program.statements, holds statement) :
      ∀ statement ∈ analysis.program.statements, holds statement := by
    intro statement member
    rw [accepted.statements] at member
    obtain ⟨original, isOriginal, rfl⟩ :=
      exists_of_mem_prunedAll ((hoist_perm _).mem_iff.mp member)
    exact kept original
      ((forall_mem_iff_of_eraseAll stable accepted.erased).mpr before original isOriginal)
  have goesOn : anyReturns checked = false := by
    rw [← isChecked]
    exact consistent.inScope.anyReturns_eq_false
  have headers : (headersOf analysis.program.statements).map
        (fun header => ({ header with scope := none } : Header)) =
      (headersOf program.statements).map fun header => { header with scope := none } := by
    have kept : headersOf (checked.map Stmt.pruned) = headersOf checked := by
      rw [headersOf, List.filterMap_map]
      exact congrArg (List.filterMap · checked) (funext Stmt.header?_pruned)
    rw [accepted.statements, headersOf_hoist, prunedAll_eq_map goesOn, kept, ← headersOf_eraseAll,
      accepted.erased, headersOf_eraseAll]
  have names := functionNames_eq_of_headersOf headers
  refine ⟨accepted.consistent, survives Stmt.flat_erase (fun _ => Stmt.Flat.pruned) checks.flat,
    survives Stmt.returning_erase (fun _ => Stmt.Returning.pruned) returning, ?_,
    names ▸ checks.distinct, names ▸ checks.unreserved, ?_⟩
  · exact allTypes_iff.mpr (survives (Stmt.allTypes_erase _) (fun _ => Stmt.AllTypes.pruned)
      (allTypes_iff.mp types))
  · rw [calls analysis rfl, functionsOf_eq_of_headersOf headers]

end PadLang
