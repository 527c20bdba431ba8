/-
This file follows the tree of scopes through every sequence of operations on it.

The tree is built and changed by a fixed set of operations, and any of them may come at any time.
Each of them keeps every scope tidy, or faults. So in every tree that is reached the declared cells
of a scope are those of its symbols. They are counted in two ways, one declaration after another and
all over again, and both ways agree.
-/

import PadLang.Proofs.Scope.Children
import PadLang.Proofs.Views

namespace PadLang

namespace ScopeTree

variable {cells : Nat}

/-- An operation on the tree of scopes. -/
inductive Operation where
  | openScope (parent : ScopeId) (kind : ScopeKind) (name : Option String)
  | declare (scope : ScopeId) (name : String) (symbol : Symbol)
  | undeclare (scope : ScopeId) (name : String)
  | detach (scope : ScopeId)
  | hoistFunctions (scope : ScopeId)
  | labelFunctions
  | countSlots
  | allocate (scope : ScopeId) (name : String)

/-- The tree after an operation. A declaration that is refused leaves the tree that was there. -/
def perform (tree : ScopeTree) : Operation → Except Fault ScopeTree
  | .openScope parent kind name => do return (← tree.openScope parent kind name).2
  | .declare scope name symbol => do
    match ← tree.declare scope name symbol with
    | .ok after => return after
    | .error _ => return tree
  | .undeclare scope name => tree.undeclare scope name
  | .detach scope => tree.detach scope
  | .hoistFunctions scope => tree.hoistFunctions scope
  | .labelFunctions => return tree.labelFunctions
  | .countSlots => tree.countSlots
  | .allocate scope name => do return (← tree.allocate scope name).2

/-- The tree after a sequence of operations. -/
def performAll (tree : ScopeTree) (operations : List Operation) : Except Fault ScopeTree :=
  operations.foldlM perform tree

variable {tree after : ScopeTree} {id : ScopeId} {found : Scope} {name : String} {symbol : Symbol}

/-! ### What one operation keeps -/

/-- Every scope of the tree is tidy, its children taken along. -/
def AllTidy (tree : ScopeTree) : Prop := ∀ found ∈ tree.scopes, found.Tidy

theorem allTidy_initial : initial.AllTidy := List.forall_mem_singleton.mpr tidy_fresh

theorem AllTidy.get? (tidy : tree.AllTidy) (here : tree.get? id = some found) : found.Tidy :=
  tidy found (List.mem_of_getElem? here)

theorem AllTidy.tidy (tidy : tree.AllTidy) : tree.Tidy := by
  intro id row found
  obtain ⟨whole, here, rfl⟩ := row?_eq_some_iff.mp found
  exact (tidy.get? here).congr rfl rfl

theorem AllTidy.set (tidy : tree.AllTidy) (id : ScopeId) {replacement : Scope}
    (isTidy : replacement.Tidy) : (tree.set id replacement).AllTidy := by
  intro found member
  rcases List.mem_or_eq_of_mem_set member with old | rfl
  · exact tidy found old
  · exact isTidy

/-- The children of a scope do not count. -/
theorem AllTidy.set_children (tidy : tree.AllTidy) (here : tree.get? id = some found)
    (children : List ScopeId) : (tree.set id { found with children }).AllTidy :=
  tidy.set id ((tidy.get? here).congr rfl rfl)

/-- A scope accepts a symbol if it does not have the name yet and its frame has room. -/
theorem declare_eq (here : tree.get? id = some found) (counted : symbol.slots = .ok cells) :
    tree.declare id name symbol = .ok (
      if (found.find? name).isSome then .error .redeclared
      else if found.declaredSlots + cells < Counter.bound then
        .ok (tree.set id (found.adding name symbol))
      else .error .frameTooLarge) := by
  obtain ⟨rfl, _⟩ := (Symbol.slots_meets False.elim).good_of_ok counted
  rw [ScopeTree.declare, get, here]
  simp only [bind, Except.bind, counted, frameSum?]
  by_cases fits : found.declaredSlots + symbol.size < Counter.bound
  · simp only [fits, if_true]
    split <;> rfl
  · simp only [fits, if_false]
    split <;> rfl

/-- A declaration that is accepted has a new name and a number of cells, and finds room. -/
theorem exists_of_declare (declared : tree.declare id name symbol = .ok (.ok after)) :
    ∃ found, tree.get? id = some found ∧ found.find? name = none ∧ symbol.Sized ∧
      found.declaredSlots + symbol.size < Counter.bound ∧
      after = tree.set id (found.adding name symbol) := by
  obtain ⟨found, got, rest⟩ := bind_eq_ok_iff.mp declared
  have here : tree.get? id = some found := get_partial.good_of_ok got
  refine ⟨found, here, ?_⟩
  split at rest
  · cases rest
  · rename_i absent
    obtain ⟨cells, counted, _⟩ := bind_eq_ok_iff.mp rest
    obtain ⟨rfl, sized⟩ := (Symbol.slots_meets False.elim).good_of_ok counted
    rw [declare_eq here counted, if_neg absent] at declared
    split at declared
    · rename_i fits
      cases declared
      exact ⟨by simpa using absent, sized, fits, rfl⟩
    · cases declared

/-- Taking back a declaration restores the scope. -/
theorem withdrawing_adding (tidy : found.Tidy) (absent : found.find? name = none) :
    (found.adding name symbol).withdrawing name = found := by
  have kept : (found.adding name symbol).symbols.filter (·.1 != name) = found.symbols := by
    rw [Scope.adding, List.filter_append, filter_ne_eq_self (Scope.find?_eq_none_iff.mp absent),
      List.filter_singleton]
    simp
  have slots : (((found.adding name symbol).locals.filter (·.1 != name)).map
      fun entry => entry.2.type.size).sum = found.declaredSlots := by
    rw [← Scope.locals_withdrawing, Scope.locals, Scope.withdrawing, kept]
    exact tidy.counted.symm
  rw [Scope.withdrawing, kept, slots]
  rfl

/-- The functions among some children, and then the others. -/
def functionsFirst (tree : ScopeTree) (children : List ScopeId) : List ScopeId :=
  children.filter tree.isFunction ++ children.filter fun child => !tree.isFunction child

/-- What an operation can do to a tree. -/
inductive Change (tree : ScopeTree) : Operation → ScopeTree → Prop where
  | opened {parent : ScopeId} {outer : Scope} {kind : ScopeKind} {name : Option String}
      (around : tree.get? parent = some outer) :
      Change tree (.openScope parent kind name)
        ⟨(tree.set parent { outer with children := outer.children ++ [tree.size] }).scopes ++
          [{ kind, name, parent := some parent }]⟩
  | unchanged {operation : Operation} (orphan : ∀ id, operation = .detach id →
      ∃ found, tree.get? id = some found ∧ found.parent = none) : Change tree operation tree
  | declared {id : ScopeId} {found : Scope} {name : String} {symbol : Symbol}
      (here : tree.get? id = some found) (absent : found.find? name = none) (sized : symbol.Sized)
      (fits : found.declaredSlots + symbol.size < Counter.bound) :
      Change tree (.declare id name symbol) (tree.set id (found.adding name symbol))
  | undeclared {id : ScopeId} {found : Scope} {name : String} (here : tree.get? id = some found) :
      Change tree (.undeclare id name) (tree.set id (found.withdrawing name))
  | detached {id parent : ScopeId} {found outer : Scope} (here : tree.get? id = some found)
      (isParent : found.parent = some parent) (around : tree.get? parent = some outer) :
      Change tree (.detach id)
        (tree.set parent { outer with children := outer.children.filter (· != id) })
  | hoisted {id : ScopeId} {found : Scope} (here : tree.get? id = some found) :
      Change tree (.hoistFunctions id)
        (tree.set id { found with children := tree.functionsFirst found.children })
  | labelled {found : Scope} (here : tree.get? global = some found) :
      Change tree .labelFunctions
        (tree.set global { found with symbols := found.symbols.map labelled })
  | counted : Change tree .countSlots
      ⟨tree.scopes.map fun scope => { scope with nextFree := 0 }⟩
  | allocated {id : ScopeId} {found : Scope} {name : String} {info : Variable} {nextFree : Nat}
      (here : tree.get? id = some found) (named : found.findVariable? name = some info) :
      Change tree (.allocate id name)
        (tree.set id { found with nextFree, symbols := store name found.nextFree found.symbols })

theorem perform_changes (tidy : tree.AllTidy) (operation : Operation) :
    Meets False (Change tree operation) (tree.perform operation) := by
  cases operation with
  | openScope parent kind name =>
    have opens : Meets False (fun opened => Change tree (.openScope parent kind name) opened.2)
        (tree.openScope parent kind name) := by
      unfold openScope
      split
      · exact False.elim
      · exact Meets.bind get_partial fun outer around => Meets.pure (.opened around)
    exact Meets.bind opens fun _ change => Meets.pure change
  | declare id name symbol =>
    rw [perform]
    cases declared : tree.declare id name symbol with
    | error fault => exact False.elim
    | ok result =>
      cases result with
      | error conflict => exact Meets.pure (.unchanged (by rintro _ ⟨⟩))
      | ok after =>
        obtain ⟨found, here, absent, sized, fits, rfl⟩ := exists_of_declare declared
        exact Meets.pure (.declared here absent sized fits)
  | undeclare id name =>
    rw [perform]
    cases here : tree.get? id with
    | none =>
      rw [undeclare, get, here]
      exact False.elim
    | some found =>
      rw [undeclare_eq here (tidy.get? here)]
      exact Meets.ok (.undeclared here)
  | detach id =>
    refine Meets.bind get_partial fun found here => ?_
    cases isParent : found.parent with
    | none =>
      refine Meets.pure (.unchanged ?_)
      rintro _ ⟨⟩
      exact ⟨found, here, isParent⟩
    | some parent =>
      exact Meets.bind get_partial fun outer around =>
        Meets.pure (.detached here isParent around)
  | hoistFunctions id =>
    refine Meets.bind get_partial fun found here => ?_
    rw [List.partition_eq_filter_filter]
    exact Meets.pure (.hoisted here)
  | labelFunctions =>
    rw [perform, labelFunctions]
    split
    · exact Meets.pure (.unchanged (by rintro _ ⟨⟩))
    · rename_i found here
      exact Meets.pure (.labelled here)
  | countSlots =>
    rw [perform, countSlots_eq tidy.tidy]
    exact Meets.ok .counted
  | allocate id name =>
    have allocates : Meets False (fun result => Change tree (.allocate id name) result.2)
        (tree.allocate id name) := by
      unfold allocate
      refine Meets.bind get_partial fun found here => ?_
      cases named : found.findVariable? name with
      | none => exact False.elim
      | some info =>
        refine Meets.bind (Meets.of_unsafe not_false) fun cells _ => ?_
        exact Meets.bind (Meets.of_unsafe not_false) fun nextFree _ =>
          Meets.pure (.allocated here named)
    exact Meets.bind allocates fun _ change => Meets.pure change

theorem Change.allTidy {operation : Operation} (change : Change tree operation after)
    (tidy : tree.AllTidy) : after.AllTidy := by
  cases change with
  | opened around =>
    exact List.forall_mem_append.mpr
      ⟨tidy.set_children around _, List.forall_mem_singleton.mpr tidy_fresh⟩
  | unchanged => exact tidy
  | declared here absent sized fits => exact tidy.set _ ((tidy.get? here).adding absent sized fits)
  | undeclared here => exact tidy.set _ (tidy.get? here).withdrawing
  | detached _ _ around => exact tidy.set_children around _
  | hoisted here => exact tidy.set_children here _
  | labelled here => exact tidy.set _ (tidy_labelled (tidy.get? here))
  | counted =>
    exact List.forall_mem_map.mpr fun found member => (tidy found member).congr rfl rfl
  | allocated here named => exact tidy.set _ ((tidy.get? here).store named _ _)

theorem AllTidy.undeclare_declare (tidy : tree.AllTidy)
    (declared : tree.declare id name symbol = .ok (.ok after)) :
    after.undeclare id name = .ok tree := by
  obtain ⟨found, here, absent, sized, fits, rfl⟩ := exists_of_declare declared
  have isTidy := (Change.declared here absent sized fits).allTidy tidy
  have there : (tree.set id (found.adding name symbol)).get? id =
      some (found.adding name symbol) := by
    rw [get?_set (lt_size_of_get? here), Function.update_self]
  rw [undeclare_eq there (isTidy.get? there), withdrawing_adding (tidy.get? here) absent,
    ScopeTree.set, ScopeTree.set, List.set_set]
  exact congrArg Except.ok (set_eq_self here)

/-! ### What all operations keep -/

theorem AllTidy.perform (tidy : tree.AllTidy) (operation : Operation) :
    Meets False AllTidy (tree.perform operation) :=
  (perform_changes tidy operation).mono fun _ change => change.allTidy tidy

theorem AllTidy.performAll (tidy : tree.AllTidy) (operations : List Operation) :
    Meets False AllTidy (tree.performAll operations) := by
  induction operations generalizing tree with
  | nil => exact Meets.pure tidy
  | cons operation rest inductionHypothesis =>
    rw [ScopeTree.performAll, List.foldlM_cons]
    exact Meets.bind (tidy.perform operation) fun _ isTidy => inductionHypothesis isTidy

theorem exists_counts (tidy : found.Tidy) :
    ∃ counts : List Nat, found.symbols.map (fun entry => entry.2.slots) = counts.map Except.ok ∧
      found.declaredSlots = counts.sum := by
  refine ⟨found.symbols.map fun entry => entry.2.size, ?_, ?_⟩
  · rw [List.map_map]
    exact List.map_congr_left (sized_of_variablesAmong tidy.sized)
  · rw [sum_size_eq, tidy.counted, Scope.locals]

/-- A declaration is refused just if the name is taken or the frame has no room. -/
theorem declare_verdict (here : tree.get? id = some found) (name : String)
    (counted : symbol.slots = .ok cells) :
    ∃ result, tree.declare id name symbol = .ok result ∧
      (result = .error .redeclared ↔ found.find? name ≠ none) ∧
      (result = .error .frameTooLarge ↔
        found.find? name = none ∧ Counter.bound ≤ found.declaredSlots + cells) := by
  refine ⟨_, declare_eq here counted, ?_⟩
  cases found.find? name with
  | some other => simp
  | none =>
    by_cases fits : found.declaredSlots + cells < Counter.bound
    · simp [fits]
    · simp [fits, Nat.le_of_not_lt fits]

/-- Cells are accounted for in every tree that operations reach. The declared cells of a scope are
the sum of those of its symbols and fit in a counter. So no declaration that is taken back is short
of cells, and counting all cells again, in whatever order, finds the number already there. A
declaration is refused just if the name is taken or the frame has no room, which leaves the tree as
it was; one that is accepted and taken back leaves it as it was, too. -/
theorem cells_are_accounted {operations : List Operation}
    (reached : initial.performAll operations = .ok tree) :
    tree.countSlots = .ok ⟨tree.scopes.map fun scope => { scope with nextFree := 0 }⟩ ∧
    ∀ id scope, tree.get? id = some scope →
      (∃ counts : List Nat, scope.symbols.map (fun entry => entry.2.slots) = counts.map Except.ok ∧
        scope.declaredSlots = counts.sum) ∧
      scope.declaredSlots < Counter.bound ∧
      (∀ order, order.Perm scope.symbols → symbolSlots 0 order = .ok scope.declaredSlots) ∧
      ∀ name, (∃ after, tree.undeclare id name = .ok after) ∧
        ∀ symbol,
          (∀ cells, symbol.slots = .ok cells → ∃ result, tree.declare id name symbol = .ok result ∧
            (result = .error .redeclared ↔ scope.find? name ≠ none) ∧
            (result = .error .frameTooLarge ↔
              scope.find? name = none ∧ Counter.bound ≤ scope.declaredSlots + cells)) ∧
          (∀ conflict, tree.declare id name symbol = .ok (.error conflict) →
            tree.perform (.declare id name symbol) = .ok tree) ∧
          ∀ after, tree.declare id name symbol = .ok (.ok after) →
            tree.perform (.declare id name symbol) = .ok after ∧
              after.perform (.undeclare id name) = .ok tree := by
  have tidy := (allTidy_initial.performAll operations).good_of_ok reached
  refine ⟨countSlots_eq tidy.tidy, fun id scope here => ?_⟩
  have isTidy := tidy.get? here
  refine ⟨exists_counts isTidy, isTidy.fits, fun order same => symbolSlots_of_perm isTidy same,
    fun name => ⟨⟨_, undeclare_eq here isTidy⟩, fun symbol => ⟨?_, ?_, ?_⟩⟩⟩
  · exact fun cells counted => declare_verdict here name counted
  · intro conflict refused
    rw [perform, refused]
    rfl
  · intro after declared
    refine ⟨?_, tidy.undeclare_declare declared⟩
    rw [perform, declared]
    rfl

/-- A frame of one array, after a name taken twice, a declaration taken back and one too large. -/
def exampleOperations : List Operation :=
  [.declare 0 "f" (.function { parameters := [.array 3 (.base .int)], returns := .base .int }),
    .openScope 0 .block none, .openScope 0 .function (some "f"),
    .declare 2 "cells" (.var { type := .array 3 (.base .int) }),
    .declare 2 "cells" (.var { type := .base .bool }), .declare 2 "x" (.var { type := .base .int }),
    .hoistFunctions 0, .labelFunctions, .countSlots, .allocate 2 "cells", .undeclare 2 "x",
    .declare 2 "large" (.var { type := .array 4294967293 (.base .int) }), .detach 2]

theorem cells_are_accounted_example :
    ∃ tree scope, initial.performAll exampleOperations = .ok tree ∧ tree.get? 2 = some scope ∧
      scope.declaredSlots = 3 ∧ symbolSlots 0 scope.symbols.reverse = .ok 3 := by
  obtain ⟨tree, reached, slots⟩ : ∃ tree, initial.performAll exampleOperations = .ok tree ∧
      (tree.get? 2).map Scope.declaredSlots = some 3 := ⟨_, rfl, rfl⟩
  obtain ⟨scope, here, isThree⟩ := Option.map_eq_some_iff.mp slots
  have accounted := (cells_are_accounted reached).2 2 scope here
  exact ⟨tree, scope, reached, here, isThree, isThree ▸ accounted.2.2.1 _ (List.reverse_perm _)⟩

end ScopeTree

end PadLang
