/-
This file shows that the tree of scopes mirrors the program that analysis leaves.

Every construct that opens a scope decides what that scope must be like: its kind and its name, the
scope it is opened in, the scopes that are opened directly in it and the variables that are declared
in it. In an accepted program each of these constructs bears a scope of its own, the tree holds just
that under its number, and no other scope can be reached from the global one.
-/

import Mathlib.Data.List.Nodup
import Mathlib.Data.Option.Basic
import PadLang.Proofs.Nesting
import PadLang.Proofs.Typing.Erasure

namespace PadLang

variable {program : Program}

/-- A scope has these children and just these variables, and its cells are theirs. -/
structure Scope.Holds (found : Scope) (children : List ScopeId) (vars : Vars) : Prop where
  nested : found.children = children
  locals : found.locals = unplaced vars
  slots : found.declaredSlots = vars.cells

/-- The tree has the scope that a construct bears, and it is what the construct says. -/
def ScopeTree.Mirrors (tree : ScopeTree) (opening : Opening) : Prop :=
  ∃ scope found, opening.scope = some scope ∧ tree.get? scope = some found ∧
    found.kind = opening.kind ∧ found.name = opening.name ∧ found.parent = opening.parent ∧
    found.Holds opening.children opening.vars

namespace ScopeTree

variable {tree : ScopeTree} {scope around : ScopeId} {row : Scope} {vars : Vars}

theorem cells_unplaced (vars : Vars) :
    ((unplaced vars).map fun entry => entry.2.type.size).sum = vars.cells := by
  rw [unplaced, List.map_map]
  rfl

/-- What is known of the row of a scope and of its children is known of the scope. -/
theorem Sound.holds (sound : tree.Sound) (found : tree.row? scope = some row)
    (locals : row.locals = unplaced vars) :
    ∃ whole, tree.get? scope = some whole ∧ whole.row = row ∧
      whole.Holds (tree.childrenOf scope) vars := by
  obtain ⟨whole, here, isRow⟩ := row?_eq_some_iff.mp found
  have counted : row.declaredSlots = vars.cells := by
    rw [(sound.tidy found).counted, locals, cells_unplaced]
  subst isRow
  exact ⟨whole, here, rfl, (childrenOf_eq here).symm, locals, counted⟩

/-- A construct whose scope is opened as it says, with the children that it says. -/
theorem Provides.mirrors {opening : Opening} (provides : tree.Provides opening)
    (sound : tree.Sound)
    (nested : ∀ scope ∈ opening.scope, tree.childrenOf scope = opening.children) :
    tree.Mirrors opening := by
  obtain ⟨scope, around, isScope, isAround, row, found, isKind, isName, isParent, _, locals⟩ :=
    provides
  obtain ⟨whole, here, rfl, holds⟩ := sound.holds found locals
  rw [nested scope isScope] at holds
  exact ⟨scope, whole, isScope, here, isKind, isName, isParent.trans isAround.symm, holds⟩

end ScopeTree

/-- Where every construct bears its scope, the scopes of all are those that some bear. -/
theorem map_scope_eq {openings : List Opening}
    (borne : ∀ opening ∈ openings, ∃ scope, opening.scope = some scope) :
    openings.map Opening.scope = (openings.filterMap Opening.scope).map some := by
  induction openings with
  | nil => rfl
  | cons first rest inductionHypothesis =>
    obtain ⟨⟨scope, isScope⟩, borneRest⟩ := List.forall_mem_cons.mp borne
    rw [List.map_cons, List.filterMap_cons_some isScope, List.map_cons, isScope,
      inductionHypothesis borneRest]

/-! ### Accepted programs -/

namespace Analysis

/-- What is left of an accepted program is the program that was read, up to types and scopes,
without what can never run and with its functions in front. -/
theorem erased_of_accepted {analysis : Analysis} (accepted : analyze program = .ok (.ok analysis)) :
    eraseAll analysis.program.statements = hoist (prunedAll (eraseAll program.statements)) := by
  obtain ⟨checked, made⟩ := (analyze_meets program).good_of_ok accepted analysis rfl
  rw [made.statements, ← hoist_eraseAll, ← prunedAll_eraseAll, made.erased]

end Analysis

/-- The tree of scopes mirrors what analysis leaves of a program: the program that was read,
without what can never run and with its functions in front. The global scope holds what the
statements at the top level open and declare. Every construct that opens a scope bears a scope of
its own, and the tree holds that scope with the kind, the name, the parent, the children, the
variables and the cells that the construct says. No other scope survives. -/
theorem scope_tree_mirrors_program {program : Program} {analysis : Analysis}
    (accepted : Analysis.analyze program = .ok (.ok analysis)) :
    eraseAll analysis.program.statements =
        Analysis.hoist (prunedAll (eraseAll program.statements)) ∧
    (∃ root, analysis.tree.get? ScopeTree.global = some root ∧ root.kind = .global ∧
      root.parent = none ∧
      root.Holds (outermostOf analysis.program.statements)
        (declaredBy analysis.program.statements)) ∧
    (∀ opening ∈ openingsOf (some ScopeTree.global) analysis.program.statements,
      analysis.tree.Mirrors opening) ∧
    ((some ScopeTree.global) :: (openingsOf (some ScopeTree.global)
      analysis.program.statements).map Opening.scope).Nodup ∧
    ∀ scope, analysis.tree.Survives scope ↔ some scope ∈ some ScopeTree.global ::
      (openingsOf (some ScopeTree.global) analysis.program.statements).map Opening.scope := by
  obtain ⟨checked, made⟩ := (Analysis.analyze_meets program).good_of_ok accepted analysis rfl
  have consistent := made.consistent
  have nested := Analysis.nested_of_accepted accepted
  have nestedInside := (List.forall_mem_cons.mp nested).2
  have provides := allLaidOut_iff_provides.mp consistent.laidOut
  have scopes : (openingsOf (some ScopeTree.global) analysis.program.statements).map Opening.scope =
      (scopesOf analysis.program.statements).map some := by
    rw [← scopes_openingsOf _ (some ScopeTree.global)]
    refine map_scope_eq fun opening member => ?_
    obtain ⟨scope, _, isScope, _⟩ := provides opening member
    exact ⟨scope, isScope⟩
  refine ⟨Analysis.erased_of_accepted accepted, ?_, ?_, ?_, ?_⟩
  · obtain ⟨row, found, locals⟩ := consistent.globals
    obtain ⟨top, isTop, isGlobal, orphan⟩ := consistent.sound.rooted.root
    obtain rfl : row = top := Option.some.inj (found.symm.trans isTop)
    obtain ⟨whole, here, rfl, holds⟩ := consistent.sound.holds found locals
    rw [nested.children_global] at holds
    exact ⟨whole, here, isGlobal, orphan, holds⟩
  · intro opening member
    exact (provides opening member).mirrors consistent.sound (nestedInside opening member)
  · rw [scopes, ← List.map_cons, List.nodup_map_iff (Option.some_injective _), List.nodup_cons]
    exact ⟨fun member => consistent.inner _ member rfl, consistent.distinct⟩
  · intro scope
    rw [scopes, ← List.map_cons, List.mem_map_of_injective (Option.some_injective _)]
    exact consistent.survives_iff nested

/-- A variable at the top level, a function that goes on after both branches of a conditional have
returned, and a loop. -/
def branchingProgram : Program :=
  let number (value : Int) : Expr := .literal { position := {} } (.int value)
  let declare (name : String) (value : Expr) : Stmt :=
    .declaration ⟨{}, {}⟩ { name := ⟨{}, name⟩, type := ⟨{}, .int⟩, value }
  let give (value : Expr) : Stmt := .returnValue ⟨{}, {}⟩ value
  let body (statements : List Stmt) : Block := .mk {} none statements
  ⟨[declare "a" (number 1),
    .function ⟨{}, {}⟩
      { name := ⟨{}, "f"⟩, parameters := [⟨⟨{}, "n"⟩, ⟨{}, .int⟩⟩], returns := ⟨{}, .int⟩ }
      (body [.conditional ⟨{}, {}⟩ (.literal { position := {} } (.bool true))
          (body [give (number 1), declare "b" (number 2)])
          (some (body [declare "c" (number 3), give (.var { position := {} } "c")])),
        .block ⟨{}, {}⟩ (body [declare "d" (number 4)]),
        declare "e" (number 5)]),
    .forLoop ⟨{}, {}⟩ (some { name := ⟨{}, "i"⟩, type := ⟨{}, .int⟩, value := number 0 })
      (.binary { position := {} } (.var { position := {} } "i") .less (number 3)) none
      (body [declare "g" (.call { position := {} } ⟨{}, "f"⟩ [.var { position := {} } "a"])])]⟩

/-- An accepted program is one whose analysis can be looked at. -/
theorem Analysis.exists_of_view {α : Type} {view : Analysis → α} {value : α}
    (seen : ((analyze program).toOption.bind Except.toOption).map view = some value) :
    ∃ analysis, analyze program = .ok (.ok analysis) ∧ view analysis = value := by
  obtain ⟨analysis, found, same⟩ := Option.map_eq_some_iff.mp seen
  match analyzed : analyze program with
  | .ok (.ok _) =>
    rw [analyzed] at found
    cases found
    exact ⟨analysis, rfl, same⟩
  | .ok (.error _) | .error _ =>
    rw [analyzed] at found
    cases found

theorem scope_tree_mirrors_branching :
    ∃ analysis, Analysis.analyze branchingProgram = .ok (.ok analysis) ∧
      (openingsOf (some ScopeTree.global) analysis.program.statements).map Opening.scope =
        [some 1, some 2, some 3, some 4, some 6] ∧
      (∀ opening ∈ openingsOf (some ScopeTree.global) analysis.program.statements,
        analysis.tree.Mirrors opening) ∧
      ¬ analysis.tree.Survives 5 := by
  obtain ⟨analysis, accepted, scopes⟩ := Analysis.exists_of_view
    (by decide +kernel : ((Analysis.analyze branchingProgram).toOption.bind
      Except.toOption).map (fun analysis =>
        (openingsOf (some ScopeTree.global) analysis.program.statements).map Opening.scope) =
      some [some 1, some 2, some 3, some 4, some 6])
  obtain ⟨_, _, mirrors, _, survives⟩ := scope_tree_mirrors_program accepted
  refine ⟨analysis, accepted, scopes, mirrors, ?_⟩
  rw [survives, scopes]
  decide

end PadLang
