/-
This file relates the storage that code generation gives out to contexts.

While code is generated, the first variables of a scope have storage, one after the other, and
the others wait for their declaration to be reached. A tree serves a context if the scopes of
the context hold their variables that way. A name is then resolved to the place that the context
gives it, and giving storage to the next variable serves the context with its declaration.
-/

import PadLang.Proofs.Views

namespace PadLang

variable {name : String} {type : Ty}

/-! ### Rows with storage -/

/-- The first variables of a row have storage and the others wait for theirs. -/
structure Scope.Stocked (row : Scope) (done todo : Vars) : Prop where
  stored : row.locals = placed 0 done ++ unplaced todo
  nextFree : row.nextFree = done.cells

theorem keys_placed (offset : Nat) (vars : Vars) :
    (placed offset vars).map Prod.fst = vars.map Prod.fst := by
  fun_induction placed offset vars <;> simp_all

theorem keys_unplaced (vars : Vars) : (unplaced vars).map Prod.fst = vars.map Prod.fst := by
  rw [unplaced, List.map_map]
  rfl

theorem sizes_placed (offset : Nat) (vars : Vars) :
    (placed offset vars).map (fun entry => entry.2.type.size) =
      vars.map fun entry => entry.2.size := by
  fun_induction placed offset vars <;> simp_all

theorem sizes_unplaced (vars : Vars) :
    (unplaced vars).map (fun entry => entry.2.type.size) = vars.map fun entry => entry.2.size := by
  rw [unplaced, List.map_map]
  rfl

theorem lookup_placed (offset : Nat) (vars : Vars) (name : String) :
    (placed offset vars).lookup name =
      (vars.place? name offset).map fun place => { type := place.2, storage := some place.1 } := by
  fun_induction placed offset vars with
  | case1 => rfl
  | case2 offset entry rest inductionHypothesis =>
    rw [List.lookup_cons, Vars.place?]
    by_cases same : name = entry.1
    · simp [same]
    · have differs : (name == entry.1) = false := by simpa using same
      rw [differs, if_neg same]
      exact inductionHypothesis

namespace Scope

variable {row : Scope} {done todo : Vars}

theorem Stocked.declaredSlots_eq (stocked : row.Stocked done todo) (tidy : row.Tidy) :
    row.declaredSlots = (done ++ todo).cells := by
  rw [tidy.counted, stocked.stored, List.map_append, sizes_placed, sizes_unplaced,
    ← List.map_append]
  rfl

theorem Stocked.keys_nodup (stocked : row.Stocked done todo) (tidy : row.Tidy) :
    ((done ++ todo).map Prod.fst).Nodup := by
  have distinct := locals_keys_nodup tidy.distinct
  rwa [stocked.stored, List.map_append, keys_placed, keys_unplaced, ← List.map_append] at distinct

/-- The next variable to be declared can be given storage. -/
theorem Stocked.next (stocked : row.Stocked done ((name, type) :: todo)) (tidy : row.Tidy) :
    row.findVariable? name = some { type } ∧ type.Sized ∧
      row.nextFree + type.size < Counter.bound := by
  have distinct := stocked.keys_nodup tidy
  rw [List.map_append, List.map_cons, List.nodup_append] at distinct
  have notDone : name ∉ done.map Prod.fst :=
    fun member => distinct.2.2 name member name List.mem_cons_self rfl
  have member : (name, ({ type } : Variable)) ∈ row.locals := by
    rw [stocked.stored, unplaced, List.map_cons]
    exact List.mem_append_right _ List.mem_cons_self
  refine ⟨?_, tidy.sized _ member, ?_⟩
  · rw [findVariable?_eq_lookup tidy.distinct, stocked.stored, List.lookup_append,
      lookup_eq_none_iff_notMem_keys.mpr (by rw [keys_placed]; exact notDone), Option.none_or,
      ScopeTree.lookup_unplaced, List.lookup_cons, beq_self_eq_true]
    rfl
  · have fits := tidy.fits
    rw [stocked.declaredSlots_eq tidy, Vars.cells_append, Vars.cells_cons] at fits
    rw [stocked.nextFree]
    simp only at fits
    omega

/-- Giving storage to the next variable. -/
theorem Stocked.storing (stocked : row.Stocked done ((name, type) :: todo)) (tidy : row.Tidy) :
    (ScopeTree.storing row name type).Stocked (done ++ [(name, type)]) todo ∧
      (ScopeTree.storing row name type).Tidy := by
  have split : row.locals = placed 0 done ++ (name, { type }) :: unplaced todo := stocked.stored
  have stored : (ScopeTree.storing row name type).locals =
      placed 0 done ++ (name, { type, storage := some row.nextFree }) :: unplaced todo :=
    variablesAmong_store tidy.distinct split
  have named : row.findVariable? name = some { type } := stocked.next tidy |>.1
  refine ⟨⟨?_, ?_⟩, tidy.store named _ _⟩
  · rw [stored, placed_append, stocked.nextFree, Nat.zero_add]
    simp [placed]
  · rw [Vars.cells_append, Vars.cells_cons, Vars.cells_nil, Nat.add_zero, ← stocked.nextFree]
    rfl

end Scope

namespace ScopeTree

variable {scope : ScopeId} {row : Scope} {tree : ScopeTree} {done : Vars}

/-- The variables of a scope of the tree, in the order of their declaration. -/
def varsOf (tree : ScopeTree) (scope : ScopeId) : Vars :=
  match tree.row? scope with
  | none => []
  | some row => row.locals.map fun entry => (entry.1, entry.2.type)

theorem map_placed (offset : Nat) (vars : Vars) :
    ((placed offset vars).map fun entry => (entry.1, entry.2.type)) = vars := by
  fun_induction placed offset vars <;> simp_all

/-- The variables of a scope, whether they have storage or wait for it. -/
theorem varsOf_eq_of_stocked {todo : Vars} (found : tree.row? scope = some row)
    (stocked : row.Stocked done todo) : tree.varsOf scope = done ++ todo := by
  rw [varsOf, found]
  dsimp only
  rw [stocked.stored, List.map_append, map_placed, unplaced, List.map_map]
  exact congrArg (done ++ ·) (List.map_id todo)

theorem varsOf_eq {vars : Vars} (found : tree.row? scope = some row)
    (localsOf : row.locals = unplaced vars) : tree.varsOf scope = vars := by
  rw [varsOf, found]
  dsimp only
  rw [localsOf, unplaced, List.map_map]
  exact List.map_id vars

/-! ### Trees that serve a context -/

variable {tree after : ScopeTree} {layer : Layer} {outer : Context} {todo : Vars}

/-- The scopes of a context hold its variables with their storage. In the innermost scope some
variables still wait for theirs. -/
structure Serves (tree : ScopeTree) (layer : Layer) (outer : Context) (todo : Vars) : Prop where
  visible : tree.visible layer.scope = layer.scope :: outer.map Layer.scope
  here : ∃ row, tree.row? layer.scope = some row ∧ row.Stocked layer.vars todo
  around : ∀ other ∈ outer, ∃ row later, tree.row? other.scope = some row ∧
    row.Stocked other.vars later

theorem placeIn?_eq (tidy : tree.Tidy) {later : Vars} (found : tree.row? scope = some row)
    (stocked : row.Stocked done later) (name : String) (level : Nat) :
    tree.placeIn? name scope level =
      (done.place? name 0).map fun place =>
        { slot := { index := place.1, level }, type := place.2 } := by
  have variableOf : tree.variableIn? name scope =
      ((done.place? name 0).map fun place => { type := place.2, storage := some place.1 }).or
        ((later.lookup name).map fun type => { type }) := by
    rw [variableIn?_eq, found, Option.bind_some,
      Scope.findVariable?_eq_lookup (tidy found).distinct, stocked.stored,
      List.lookup_append, lookup_placed, lookup_unplaced]
  rw [placeIn?, variableOf]
  cases done.place? name 0 with
  | some place => rfl
  | none =>
    -- a variable that waits for its storage is passed over
    cases later.lookup name <;> rfl

/-- A name is resolved to the place that the context gives it. -/
theorem resolveIn?_eq (tidy : tree.Tidy) {context : Context}
    (rows : ∀ layer ∈ context, ∃ row later, tree.row? layer.scope = some row ∧
      row.Stocked layer.vars later) (name : String) (level : Nat) :
    tree.resolveIn? name level (context.map Layer.scope) =
      Context.placeFrom? name level context := by
  induction context generalizing level with
  | nil => rfl
  | cons layer outer inductionHypothesis =>
    obtain ⟨row, later, found, stocked⟩ := rows layer List.mem_cons_self
    rw [List.map_cons, resolveIn?, placeIn?_eq tidy found stocked, Context.placeFrom?,
      inductionHypothesis (fun other member => rows other (List.mem_cons_of_mem _ member))]
    cases layer.vars.place? name 0 <;> rfl

namespace Serves

theorem rows (serves : tree.Serves layer outer todo) :
    ∀ other ∈ layer :: outer, ∃ row later, tree.row? other.scope = some row ∧
      row.Stocked other.vars later := by
  intro other member
  rcases List.mem_cons.mp member with rfl | isOuter
  · obtain ⟨row, found, stocked⟩ := serves.here
    exact ⟨row, todo, found, stocked⟩
  · exact serves.around other isOuter

theorem resolve?_eq (serves : tree.Serves layer outer todo) (tidy : tree.Tidy) (name : String) :
    tree.resolve? layer.scope name = Context.place? (layer :: outer) name := by
  rw [resolve?, serves.visible, ← List.map_cons, resolveIn?_eq tidy serves.rows, Context.place?]

theorem notMem_outer (serves : tree.Serves layer outer todo) (rooted : tree.Rooted) :
    layer.scope ∉ outer.map Layer.scope := by
  obtain ⟨row, found, _⟩ := serves.here
  obtain ⟨outerScopes, visible, smaller⟩ := rooted.visible_eq_cons (lt_size_of_row? found)
  have scopes := serves.visible.symm.trans visible
  rw [List.cons.injEq] at scopes
  rw [scopes.2]
  exact fun member => Nat.lt_irrefl _ (smaller _ member)

end Serves

/-- Walks towards the root, functions and variables are the same in two trees, up to storage. -/
structure Keeps (before after : ScopeTree) : Prop where
  outline : ∀ id, after.outline? id = before.outline? id
  functions : after.lookupFunction? = before.lookupFunction?
  vars : after.varsOf = before.varsOf

namespace Keeps

variable {before middle : ScopeTree}

theorem refl : Keeps tree tree := ⟨fun _ => rfl, rfl, rfl⟩

theorem trans (first : Keeps before middle) (second : Keeps middle after) : Keeps before after :=
  ⟨fun id => (second.outline id).trans (first.outline id), second.functions.trans first.functions,
    second.vars.trans first.vars⟩

theorem visible (keeps : Keeps before after) (scope : ScopeId) :
    after.visible scope = before.visible scope := by
  refine visible_congr (fun id (_ : True) => keeps.outline id) ?_ trivial
  intros
  trivial

end Keeps

/-- All variables of a scope have storage. -/
def Filled (tree : ScopeTree) (scope : ScopeId) : Prop :=
  ∃ row vars, tree.row? scope = some row ∧ row.Stocked vars []

/-- The tree after the variables of a statement got their storage: only the scope of the
statement and the scopes that the statement bears have changed, and of the latter no variable
waits any more. -/
structure Furnishes (layer : Layer) (added : Vars) (scopes : List ScopeId)
    (before after : ScopeTree) : Prop where
  formed : after.Formed
  keeps : Keeps before after
  kept : ∀ id, id ≠ layer.scope → id ∉ scopes → after.row? id = before.row? id
  here : ∀ row todo, before.row? layer.scope = some row → row.Stocked layer.vars (added ++ todo) →
    ∃ row, after.row? layer.scope = some row ∧ row.Stocked (layer.vars ++ added) todo
  filled : ∀ id ∈ scopes, after.Filled id

namespace Furnishes

variable {before middle : ScopeTree} {added more : Vars} {scopes others : List ScopeId}

theorem refl (formed : tree.Formed) : Furnishes layer [] [] tree tree where
  formed := formed
  keeps := .refl
  kept _ _ _ := rfl
  here row todo found stocked := ⟨row, found, by simpa using stocked⟩
  filled := nofun

theorem trans (first : Furnishes layer added scopes before middle)
    (second : Furnishes { layer with vars := layer.vars ++ added } more others middle after)
    (apart : ∀ id ∈ scopes, id ≠ layer.scope ∧ id ∉ others) :
    Furnishes layer (added ++ more) (scopes ++ others) before after where
  formed := second.formed
  keeps := first.keeps.trans second.keeps
  kept id notHere outside := by
    rw [List.mem_append, not_or] at outside
    rw [second.kept id notHere outside.2, first.kept id notHere outside.1]
  here row todo found stocked := by
    rw [List.append_assoc] at stocked
    obtain ⟨between, foundBetween, stockedBetween⟩ := first.here row _ found stocked
    rw [← List.append_assoc]
    exact second.here between todo foundBetween stockedBetween
  filled id member := by
    rcases List.mem_append.mp member with isFirst | isSecond
    · obtain ⟨row, vars, found, stocked⟩ := first.filled id isFirst
      obtain ⟨notHere, notSecond⟩ := apart id isFirst
      exact ⟨row, vars, (second.kept id notHere notSecond).trans found, stocked⟩
    · exact second.filled id isSecond

/-- A statement that declares nothing, and another after it. -/
theorem trans_nil (first : Furnishes layer [] scopes before middle)
    (second : Furnishes layer more others middle after)
    (apart : ∀ id ∈ scopes, id ≠ layer.scope ∧ id ∉ others) :
    Furnishes layer more (scopes ++ others) before after := by
  refine first.trans ?_ apart
  rw [List.append_nil]
  exact second

/-- The tree serves the context with the new declarations. -/
theorem serves (furnishes : Furnishes layer added scopes before after)
    (served : before.Serves layer outer (added ++ todo))
    (rooted : before.Rooted) (apart : ∀ id ∈ scopes, id ∉ (layer :: outer).map Layer.scope) :
    after.Serves { layer with vars := layer.vars ++ added } outer todo := by
  refine ⟨?_, ?_, ?_⟩
  · rw [furnishes.keeps.visible]
    exact served.visible
  · obtain ⟨row, found, stocked⟩ := served.here
    exact furnishes.here row todo found stocked
  · intro other isOuter
    obtain ⟨row, later, found, stocked⟩ := served.around other isOuter
    have isScope : other.scope ∈ outer.map Layer.scope := List.mem_map_of_mem isOuter
    refine ⟨row, later, ?_, stocked⟩
    rw [furnishes.kept other.scope (fun same => served.notMem_outer rooted (same ▸ isScope)), found]
    exact fun member => apart _ member (List.mem_cons_of_mem _ isScope)

end Furnishes

/-- Giving storage to the next variable of a scope. -/
theorem allocate_furnishes {safe : Prop} (formed : tree.Formed)
    (serves : tree.Serves layer outer ((name, type) :: todo)) :
    Meets safe
      (fun result => result.1 = layer.vars.cells ∧
        Furnishes layer [(name, type)] [] tree result.2)
      (tree.allocate layer.scope name) := by
  obtain ⟨row, found, stocked⟩ := serves.here
  have tidy := formed.tidy found
  obtain ⟨named, sized, fits⟩ := stocked.next tidy
  refine Meets.mono (allocate_meets found named sized fits) ?_
  rintro ⟨index, after⟩ ⟨sameIndex, size, rows⟩
  refine ⟨sameIndex.trans stocked.nextFree, ?_, ⟨?_, ?_, ?_⟩, ?_, ?_, nofun⟩
  · exact formed.update found rows rfl rfl (stocked.storing tidy).2
  · intro id
    rw [outline?, outline?, rows]
    by_cases same : id = layer.scope
    · subst same
      rw [Function.update_self, found]
      rfl
    · rw [Function.update_of_ne same]
  · funext called
    rw [lookupFunction?, lookupFunction?, functionIn?_eq, functionIn?_eq, rows]
    by_cases same : global = layer.scope
    · rw [same, Function.update_self, found]
      exact Scope.findFunction?_store row.nextFree called
    · rw [Function.update_of_ne same]
  · funext id
    by_cases same : id = layer.scope
    · subst same
      have foundAfter : after.row? layer.scope = some (storing row name type) := by
        rw [rows, Function.update_self]
      rw [varsOf_eq_of_stocked foundAfter (stocked.storing tidy).1,
        varsOf_eq_of_stocked found stocked, List.append_assoc, List.singleton_append]
    · rw [varsOf, varsOf, rows, Function.update_of_ne same]
  · intro id notHere _
    rw [rows, Function.update_of_ne notHere]
  · intro other more foundOther stockedOther
    rw [found] at foundOther
    cases foundOther
    exact ⟨_, by rw [rows, Function.update_self], (stockedOther.storing tidy).1⟩

end ScopeTree

end PadLang
