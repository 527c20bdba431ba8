/-
This file divides code at its labels.

The segment of a label is what stands between it and the next label. Only functions and the entry
point have labels: the code of a statement in which no function is defined has none. So the code
of a program is its segments one after the other, those of the functions in their order and that
of the entry point at the end, and each of them is found under its name.
-/

import PadLang.Proofs.Code.Composition
import PadLang.Proofs.Flow.Lines
import PadLang.Proofs.Survivors

namespace PadLang

namespace Code

variable {pieces : List (String × Code)}

/-! ### Segments -/

/-- The code under a label, up to the next one. -/
def segment? (name : String) : Code → Option Code
  | [] => none
  | instruction :: rest =>
    if instruction = .label name then some (rest.takeWhile fun next => !next.isLabel)
    else segment? name rest

/-- Pieces of code one after the other, each under its label. -/
def assembled (pieces : List (String × Code)) : Code :=
  pieces.flatMap fun piece => .label piece.1 :: piece.2

/-- There is no label in some code. -/
def Unlabelled (code : Code) : Prop := ∀ instruction ∈ code, instruction.isLabel = false

theorem assembled_cons (name : String) (body : Code) (rest : List (String × Code)) :
    assembled ((name, body) :: rest) = .label name :: (body ++ assembled rest) := by
  rw [assembled, List.flatMap_cons]
  rfl

/-- A segment ends where the next piece begins. -/
theorem takeWhile_assembled (pieces : List (String × Code)) :
    (assembled pieces).takeWhile (fun next => !next.isLabel) = [] := by
  cases pieces with
  | nil => rfl
  | cons first rest =>
    rw [assembled_cons]
    exact List.takeWhile_cons_of_neg Bool.false_ne_true

theorem Unlabelled.segment?_append {body : Code} (unlabelled : Unlabelled body) (name : String)
    (rest : Code) : segment? name (body ++ rest) = segment? name rest := by
  induction body with
  | nil => rfl
  | cons instruction body inductionHypothesis =>
    obtain ⟨first, others⟩ := List.forall_mem_cons.mp unlabelled
    have different : instruction ≠ .label name := by
      rintro rfl
      cases first
    rw [List.cons_append, segment?, if_neg different]
    exact inductionHypothesis others

/-- The segment of a name is the first piece under that name. -/
theorem segment?_assembled (unlabelled : ∀ piece ∈ pieces, Unlabelled piece.2) (name : String) :
    segment? name (assembled pieces) = pieces.lookup name := by
  induction pieces with
  | nil => rfl
  | cons piece rest inductionHypothesis =>
    obtain ⟨label, body⟩ := piece
    obtain ⟨bare, others⟩ := List.forall_mem_cons.mp unlabelled
    rw [assembled_cons, segment?]
    by_cases isName : name = label
    · subst isName
      have whole : ∀ next ∈ body, (!next.isLabel) = true := fun next member => by
        rw [bare next member]
        rfl
      rw [if_pos rfl, List.lookup_cons_self, List.takeWhile_append_of_pos whole,
        takeWhile_assembled, List.append_nil]
    · have different : Instruction.label label ≠ .label name := fun same =>
        isName (Instruction.label.inj same).symm
      rw [if_neg different, bare.segment?_append, inductionHypothesis others, List.lookup_cons,
        beq_false_of_ne isName]

/-- Where names are distinct, each entry is found under its name. -/
theorem lookup_eq_some_of_mem {entries : List (String × Code)}
    (distinct : (entries.map Prod.fst).Nodup) {entry : String × Code} (member : entry ∈ entries) :
    entries.lookup entry.1 = some entry.2 := by
  obtain ⟨before, after, rfl⟩ := List.append_of_mem member
  rw [List.map_append, List.map_cons, List.nodup_append] at distinct
  refine List.lookup_eq_some_iff.mpr ⟨before, after, rfl, fun other isOther => ?_⟩
  have differs := distinct.2.2 other.1 (List.mem_map_of_mem isOther) entry.1 List.mem_cons_self
  simpa using differs.symm

/-- Pieces with distinct names are put together from their segments, in their order. -/
theorem assembled_eq_flatMap (unlabelled : ∀ piece ∈ pieces, Unlabelled piece.2)
    (distinct : (pieces.map Prod.fst).Nodup) :
    assembled pieces = (pieces.map Prod.fst).flatMap fun name =>
      .label name :: ((assembled pieces).segment? name).getD [] := by
  rw [List.flatMap_map]
  refine List.flatMap_congr fun piece member => ?_
  rw [segment?_assembled unlabelled, lookup_eq_some_of_mem distinct member, Option.getD_some]

theorem Within.unlabelled {most : Nat} {code : Code} (within : code.Within most False) :
    Unlabelled code := by
  intro instruction member
  have here := within instruction member
  cases instruction with
  | label name => cases here
  | _ => rfl

end Code

namespace Lexical

open Code (Unlabelled)

variable {functions : Functions}

/-! ### The segments of a program -/

/-- The name of a function, and its code without the label. -/
def piece? (functions : Functions) : Stmt → Option (String × Code)
  | .function _ header body =>
    some (header.name.value,
      block functions
        [{ scope := header.scope.getD ScopeTree.global, vars := parameterVars header.parameters }]
        body)
  | .assignment _ _ | .declaration _ _ | .action _ _ | .returnValue _ _ | .block _ _
  | .conditional _ _ _ _ | .forLoop _ _ _ _ _ | .whileLoop _ _ _ => none

/-- The code at the entry point, without the label. -/
def entryPoint (functions : Functions) (statements : List Stmt) : Code :=
  openFrame (declaredBy statements) ++
    Lexical.statements functions { scope := ScopeTree.global, vars := [] } []
      (statements.filter fun statement => !statement.isFunction) ++
    [.op .cframe, .op .halt]

/-- The pieces of a program: its functions, and then its entry point. -/
def pieces (functions : Functions) (statements : List Stmt) : List (String × Code) :=
  statements.filterMap (piece? functions) ++ [("main", entryPoint functions statements)]

theorem statements_filter_isFunction (layer : Layer) (outer : Context) (before : List Stmt) :
    statements functions layer outer (before.filter Stmt.isFunction) =
      Code.assembled (before.filterMap (piece? functions)) := by
  induction before with
  | nil => rfl
  | cons first rest inductionHypothesis =>
    cases first with
    | function span header body =>
      show statements functions layer outer (_ :: rest.filter Stmt.isFunction) =
        Code.assembled ((header.name.value, _) :: rest.filterMap (piece? functions))
      rw [Code.assembled_cons, ← inductionHypothesis, statements, Stmt.declares_of_isFunction rfl,
        List.append_nil]
      rfl
    | _ => exact inductionHypothesis

/-- The code of a program is its pieces one after the other. -/
theorem program_eq_assembled (before : List Stmt) :
    program functions before = Code.assembled (pieces functions before) := by
  have last : Code.assembled [("main", entryPoint functions before)] =
      [.label "main"] ++ entryPoint functions before := by
    rw [Code.assembled_cons]
    exact congrArg (Instruction.label "main" :: ·) (List.append_nil _)
  have splits (first second : List (String × Code)) :
      Code.assembled (first ++ second) = Code.assembled first ++ Code.assembled second :=
    List.flatMap_append
  rw [program, statements_filter_isFunction, pieces, splits, last, entryPoint]
  simp only [List.append_assoc]

theorem map_fst_pieces (functions : Functions) (before : List Stmt) :
    (pieces functions before).map Prod.fst = functionNames before ++ ["main"] := by
  rw [pieces, List.map_append, functionNames, List.map_filterMap, List.map_filterMap]
  refine congrArg (List.filterMap · before ++ ["main"]) (funext fun statement => ?_)
  cases statement <;> rfl

theorem unlabelled_pieces {before : List Stmt} (flat : ∀ statement ∈ before, statement.Flat) :
    ∀ piece ∈ pieces functions before, Unlabelled piece.2 := by
  refine List.forall_mem_append.mpr ⟨?_, List.forall_mem_singleton.mpr ?_⟩
  · intro piece member
    obtain ⟨statement, isStatement, isPiece⟩ := List.mem_filterMap.mp member
    cases statement with
    | function span header body =>
      cases isPiece
      exact (block_within body (Nat.lt_succ_self _) (.inr (flat _ isStatement))).unlabelled
    | _ => cases isPiece
  · refine List.forall_mem_append.mpr ⟨List.forall_mem_append.mpr ⟨?_, ?_⟩, ?_⟩
    · exact List.forall_mem_cons.mpr ⟨rfl, List.forall_mem_singleton.mpr rfl⟩
    · exact (statements_within _ (Nat.lt_succ_self _)
        (.inr (allPlain_filter_not_isFunction flat))).unlabelled
    · exact List.forall_mem_cons.mpr ⟨rfl, List.forall_mem_singleton.mpr rfl⟩

end Lexical

end PadLang
