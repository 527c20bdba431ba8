/-
This file says what each operation on the tree of scopes changes.

Looking up a name, finding the scopes around a place and giving out storage never ask for the
children of a scope. A scope without its children is called its row, and every operation is
described by the rows it changes: opening a scope adds one row, declaring, withdrawing and
storing replace one, detaching and reordering children replace none. What is visible from a
place depends on the rows of the scopes around it and on nothing else.
-/

import Mathlib.Logic.Function.Basic
import PadLang.Scope.Basic
import PadLang.Proofs.Outcome

namespace PadLang

/-! ### Rows -/

/-- A scope without its children. -/
def Scope.row (scope : Scope) : Scope := { scope with children := [] }

namespace ScopeTree

variable {other : ScopeTree}

/-- The row of a scope. -/
def row? (tree : ScopeTree) (scope : ScopeId) : Option Scope :=
  (tree.get? scope).map Scope.row

/-- The number of scopes. -/
def size (tree : ScopeTree) : Nat := tree.scopes.length

variable {tree : ScopeTree} {scope : ScopeId} {row : Scope} {safe : Prop}

theorem row?_eq_none_iff : tree.row? scope = none ↔ tree.size ≤ scope := by
  simp [row?, get?, size]

theorem lt_size_of_row? (found : tree.row? scope = some row) : scope < tree.size := by
  by_contra outside
  rw [row?_eq_none_iff.mpr (Nat.le_of_not_lt outside)] at found
  cases found

theorem exists_row? (inside : scope < tree.size) : ∃ row, tree.row? scope = some row := by
  cases found : tree.row? scope with
  | none => exact absurd (row?_eq_none_iff.mp found) (Nat.not_le_of_lt inside)
  | some row => exact ⟨row, rfl⟩

theorem row?_eq_some_iff :
    tree.row? scope = some row ↔ ∃ found, tree.get? scope = some found ∧ found.row = row :=
  Option.map_eq_some_iff

theorem get_meets (inside : scope < tree.size) :
    Meets safe (fun found => tree.get? scope = some found ∧ tree.row? scope = some found.row)
      (tree.get scope) := by
  unfold get
  cases found : tree.get? scope with
  | none => exact absurd inside (Nat.not_lt_of_le (by simpa [get?, size] using found))
  | some value => exact Meets.ok ⟨rfl, by rw [row?, found, Option.map_some]⟩

@[simp] theorem size_set (replacement : Scope) : (tree.set scope replacement).size = tree.size := by
  simp [size, set]

theorem row?_set (inside : scope < tree.size) (replacement : Scope) :
    (tree.set scope replacement).row? = Function.update tree.row? scope (some replacement.row) := by
  funext other
  by_cases same : other = scope
  · subst same
    simp [row?, get?, set, List.getElem?_set_self (show other < tree.scopes.length from inside)]
  · rw [Function.update_of_ne same]
    simp [row?, get?, set, List.getElem?_set_ne (Ne.symm same)]

/-- Replacing a scope by one that differs in its children only changes no row. -/
theorem row?_set_of_row_eq {found replacement : Scope} (here : tree.get? scope = some found)
    (same : replacement.row = found.row) : (tree.set scope replacement).row? = tree.row? := by
  have inside : scope < tree.size :=
    lt_size_of_row? (row?_eq_some_iff.mpr ⟨found, here, rfl⟩)
  rw [row?_set inside, same]
  funext other
  by_cases equal : other = scope
  · subst equal
    rw [Function.update_self, row?, here, Option.map_some]
  · rw [Function.update_of_ne equal]

/-- A scope behind the others has the next number. -/
theorem get?_append (fresh : Scope) :
    (⟨tree.scopes ++ [fresh]⟩ : ScopeTree).get? =
      Function.update tree.get? tree.size (some fresh) := by
  funext (other : Nat)
  by_cases last : other = tree.size
  · rw [last, Function.update_self]
    exact List.getElem?_concat_length
  · rw [Function.update_of_ne last]
    simp only [get?, size] at last ⊢
    by_cases before : other < tree.scopes.length
    · rw [List.getElem?_append_left before]
    · rw [List.getElem?_eq_none (Nat.le_of_not_lt before), List.getElem?_eq_none]
      rw [List.length_append, List.length_singleton]
      omega

theorem row?_append (fresh : Scope) :
    (⟨tree.scopes ++ [fresh]⟩ : ScopeTree).row? =
      Function.update tree.row? tree.size (some fresh.row) := by
  funext other
  rw [row?, get?_append, Function.apply_update (fun _ => Option.map Scope.row)]
  rfl

/-! ### Opening, detaching and reordering -/

/-- A scope was opened: its row is added under the next number. -/
structure Opened (tree : ScopeTree) (parent : ScopeId) (kind : ScopeKind) (name : Option String)
    (after : ScopeTree) : Prop where
  made : tree.openScope parent kind name = .ok (tree.size, after)
  inside : parent < tree.size
  size : after.size = tree.size + 1
  rows : after.row? =
    Function.update tree.row? tree.size (some { kind, name, parent := some parent })

/-- Whatever follows is done in the tree in which the scope is open. -/
theorem openScope_meets {α : Type} {good : α → Prop} {parent : ScopeId} {kind : ScopeKind}
    {name : Option String} {next : ScopeId × ScopeTree → Except Fault α}
    (inside : parent < tree.size) (named : kind = .function → name ≠ none)
    (follows : ∀ after, tree.Opened parent kind name after →
      Meets safe good (next (tree.size, after))) :
    Meets safe good (tree.openScope parent kind name >>= next) := by
  have opens : Meets safe
      (fun opened => opened.1 = tree.size ∧ opened.2.size = tree.size + 1 ∧ opened.2.row? =
        Function.update tree.row? tree.size (some { kind, name, parent := some parent }))
      (tree.openScope parent kind name) := by
    unfold openScope
    rw [if_neg (fun both => named both.1 both.2)]
    refine Meets.bind (get_meets inside) fun outer found => ?_
    refine Meets.pure ⟨rfl, by simp [size, set], ?_⟩
    rw [row?_append, size_set]
    exact congrArg (Function.update · _ _) (row?_set_of_row_eq found.1 rfl)
  refine Meets.bind opens.with_eq ?_
  rintro ⟨_, after⟩ ⟨made, rfl, size, rows⟩
  exact follows after ⟨made, inside, size, rows⟩

/-- Detaching a scope from its parent changes no row. -/
theorem detach_meets (inside : scope < tree.size)
    (above : ∀ row parent, tree.row? scope = some row → row.parent = some parent →
      parent < tree.size) :
    Meets safe (fun after => after.size = tree.size ∧ after.row? = tree.row?)
      (tree.detach scope) := by
  unfold detach
  refine Meets.bind (get_meets inside) fun found here => ?_
  cases parentOf : found.parent with
  | none => exact Meets.pure ⟨rfl, rfl⟩
  | some parent =>
    refine Meets.bind (get_meets (above _ _ here.2 parentOf)) fun outer there => ?_
    exact Meets.pure ⟨size_set _, row?_set_of_row_eq there.1 rfl⟩

/-- Moving function scopes to the front changes no row. -/
theorem hoistFunctions_meets (inside : scope < tree.size) :
    Meets safe (fun after => after.size = tree.size ∧ after.row? = tree.row?)
      (tree.hoistFunctions scope) := by
  unfold hoistFunctions
  refine Meets.bind (get_meets inside) fun found here => ?_
  exact Meets.pure ⟨size_set _, row?_set_of_row_eq here.1 rfl⟩

/-! ### Looking up -/

theorem variableIn?_eq (name : String) :
    tree.variableIn? name scope = (tree.row? scope).bind (·.findVariable? name) := by
  rw [variableIn?, row?, Option.bind_map]
  rfl

theorem functionIn?_eq (name : String) :
    tree.functionIn? name scope = (tree.row? scope).bind (·.findFunction? name) := by
  rw [functionIn?, row?, Option.bind_map]
  rfl

theorem isFunction_eq (found : tree.row? scope = some row) :
    tree.isFunction scope = (row.kind == .function) := by
  obtain ⟨whole, here, rfl⟩ := row?_eq_some_iff.mp found
  simp only [isFunction, here]
  rfl

/-- What decides where a walk towards the global scope goes and ends. -/
def outline? (tree : ScopeTree) (scope : ScopeId) : Option (ScopeKind × Option ScopeId) :=
  (tree.row? scope).map fun row => (row.kind, row.parent)

theorem outline?_eq (found : tree.row? scope = some row) :
    tree.outline? scope = some (row.kind, row.parent) := by
  rw [outline?, found, Option.map_some]

theorem isFunction_eq_outline? :
    tree.isFunction scope = ((tree.outline? scope).map Prod.fst == some .function) := by
  cases found : tree.row? scope with
  | none =>
    have absent : tree.get? scope = none := by simpa [row?] using found
    simp [isFunction, outline?, found, absent]
  | some row => simp [isFunction_eq found, outline?_eq found]

theorem climb_succ (limit : Nat) :
    tree.climb (limit + 1) scope =
      match tree.outline? scope with
      | none => []
      | some (_, none) => [scope]
      | some (_, some parent) => scope :: tree.climb limit parent := by
  rw [climb]
  cases found : tree.get? scope with
  | none => simp [outline?, row?, found]
  | some whole =>
    cases parentOf : whole.parent with
    | none => simp [outline?, row?, found, Scope.row, parentOf]
    | some parent => simp [outline?, row?, found, Scope.row, parentOf]

/-- The scopes around a place are the same in two trees that agree on a set of scopes which a
walk towards the global scope does not leave. -/
theorem climb_congr (shared : ScopeId → Prop)
    (same : ∀ id, shared id → other.outline? id = tree.outline? id)
    (closed : ∀ id kind parent, shared id → tree.outline? id = some (kind, some parent) →
      shared parent) (limit : Nat) (member : shared scope) :
    other.climb limit scope = tree.climb limit scope := by
  induction limit generalizing scope with
  | zero => rfl
  | succ limit inductionHypothesis =>
    rw [climb_succ, climb_succ, same scope member]
    match shape : tree.outline? scope with
    | none => rfl
    | some (_, none) => rfl
    | some (kind, some parent) =>
      exact congrArg (scope :: ·) (inductionHypothesis (closed scope kind parent member shape))

theorem mem_of_mem_climb (shared : ScopeId → Prop)
    (closed : ∀ id kind parent, shared id → tree.outline? id = some (kind, some parent) →
      shared parent) (limit : Nat) (member : shared scope) :
    ∀ id ∈ tree.climb limit scope, shared id := by
  induction limit generalizing scope with
  | zero => simp [climb]
  | succ limit inductionHypothesis =>
    rw [climb_succ]
    match shape : tree.outline? scope with
    | none => simp
    | some (_, none) => simpa using member
    | some (kind, some parent) =>
      intro id inside
      rcases List.mem_cons.mp inside with rfl | above
      · exact member
      · exact inductionHypothesis (closed scope kind parent member shape) id above

theorem throughFunction_congr {walk : List ScopeId}
    (same : ∀ id ∈ walk, other.isFunction id = tree.isFunction id) :
    other.throughFunction walk = tree.throughFunction walk := by
  induction walk with
  | nil => rfl
  | cons first rest inductionHypothesis =>
    rw [throughFunction, throughFunction, same first List.mem_cons_self,
      inductionHypothesis fun id member => same id (List.mem_cons_of_mem _ member)]

section Congruence

variable {other : ScopeTree} {shared : ScopeId → Prop}
  (same : ∀ id, shared id → other.outline? id = tree.outline? id)
  (closed : ∀ id kind parent, shared id → tree.outline? id = some (kind, some parent) →
    shared parent) (member : shared scope)

include same closed member

theorem ancestors_congr : other.ancestors scope = tree.ancestors scope :=
  climb_congr shared same closed _ member

theorem visible_congr : other.visible scope = tree.visible scope := by
  rw [visible, visible, ancestors_congr same closed member]
  refine throughFunction_congr fun id inside => ?_
  rw [isFunction_eq_outline?, isFunction_eq_outline?,
    same id (mem_of_mem_climb shared closed _ member id inside)]

end Congruence

/-- Inside a function, all visible scopes but that of the function lie between a place and the
frame of the call. -/
theorem functionDepth_eq (within : ∃ id ∈ tree.visible scope, tree.isFunction id = true) :
    tree.functionDepth scope = (tree.visible scope).length - 1 := by
  rw [visible] at within ⊢
  rw [functionDepth]
  generalize tree.ancestors scope = walk at within
  induction walk with
  | nil =>
    obtain ⟨_, member, _⟩ := within
    cases member
  | cons first rest inductionHypothesis =>
    rw [throughFunction] at within ⊢
    by_cases isFunction : tree.isFunction first = true
    · rw [if_pos isFunction, List.takeWhile_cons_of_neg (by simp [isFunction])]
      rfl
    · rw [if_neg isFunction] at within ⊢
      rw [List.takeWhile_cons_of_pos (by simp [isFunction])]
      obtain ⟨id, member, found⟩ := within
      rcases List.mem_cons.mp member with rfl | later
      · exact absurd found isFunction
      · have shorter := inductionHypothesis ⟨id, later, found⟩
        have some_left := List.length_pos_of_mem later
        rw [List.length_cons, List.length_cons, shorter]
        omega

/-! ### Trees with a root -/

/-- The global scope has no parent, and every other scope has one of a smaller number. -/
structure Rooted (tree : ScopeTree) : Prop where
  root : ∃ row, tree.row? global = some row ∧ row.kind = .global ∧ row.parent = none
  above : ∀ {scope : Nat} {row}, tree.row? scope = some row → scope ≠ global →
    ∃ parent : Nat, row.parent = some parent ∧ parent < scope

namespace Rooted

variable {id parent : Nat} {row : Scope}

variable (rooted : tree.Rooted)

include rooted

theorem parent_lt (found : tree.row? id = some row) (child : row.parent = some parent) :
    parent < id := by
  by_cases isRoot : id = global
  · subst isRoot
    obtain ⟨rootRow, atRoot, _, orphan⟩ := rooted.root
    rw [found] at atRoot
    cases atRoot
    rw [child] at orphan
    cases orphan
  · obtain ⟨other, same, smaller⟩ := rooted.above found isRoot
    rw [child] at same
    cases same
    exact smaller

theorem global_lt : global < tree.size := by
  obtain ⟨_, atRoot, _⟩ := rooted.root
  exact lt_size_of_row? atRoot

/-- A walk never needs more steps than the number it starts from and one. -/
theorem climb_eq_ancestors {limit : Nat} (enough : id < limit) :
    tree.climb limit id = tree.ancestors id := by
  induction limit using Nat.strongRecOn generalizing id with
  | _ limit inductionHypothesis =>
    obtain ⟨limit, rfl⟩ : ∃ less, limit = less + 1 := ⟨limit - 1, by omega⟩
    rw [ancestors, climb_succ, climb_succ]
    cases found : tree.row? id with
    | none => simp [outline?, found]
    | some row =>
      rw [outline?_eq found]
      cases child : row.parent with
      | none => rfl
      | some parent =>
        have smaller := rooted.parent_lt found child
        have long := @inductionHypothesis limit (by omega) parent (by omega)
        by_cases equal : limit = id
        · rw [equal]
        · have short := inductionHypothesis id (by omega) smaller
          simp only [long, short]

theorem ancestors_global : tree.ancestors global = [global] := by
  obtain ⟨row, atRoot, _, orphan⟩ := rooted.root
  rw [ancestors, climb_succ, outline?_eq atRoot, orphan]

theorem ancestors_child (found : tree.row? id = some row) (child : row.parent = some parent) :
    tree.ancestors id = id :: tree.ancestors parent := by
  rw [ancestors, climb_succ, outline?_eq found, child]
  exact congrArg (id :: ·) (rooted.climb_eq_ancestors (rooted.parent_lt found child))

theorem visible_global : tree.visible global = [global] := by
  rw [visible, rooted.ancestors_global, throughFunction]
  split <;> rfl

theorem visible_function (found : tree.row? id = some row) (child : row.parent = some parent)
    (isFunction : row.kind = .function) : tree.visible id = [id] := by
  rw [visible, rooted.ancestors_child found child, throughFunction, isFunction_eq found,
    isFunction]
  rfl

theorem visible_child (found : tree.row? id = some row) (child : row.parent = some parent)
    (notFunction : row.kind ≠ .function) : tree.visible id = id :: tree.visible parent := by
  rw [visible, rooted.ancestors_child found child, throughFunction, isFunction_eq found,
    if_neg (by simpa using notFunction), visible]

/-- What is visible from a place has no greater number than the place. -/
theorem le_of_mem_visible {other : Nat} (member : other ∈ tree.visible id) : other ≤ id := by
  have around : other ∈ tree.ancestors id := by
    rw [visible] at member
    generalize tree.ancestors id = walk at member
    induction walk with
    | nil => exact member
    | cons first rest inductionHypothesis =>
      rw [throughFunction] at member
      split at member
      · rw [List.mem_singleton.mp member]
        exact List.mem_cons_self
      · rcases List.mem_cons.mp member with rfl | later
        · exact List.mem_cons_self
        · exact List.mem_cons_of_mem _ (inductionHypothesis later)
  refine mem_of_mem_climb (fun candidate => (candidate : Nat) ≤ id) ?_ _ (Nat.le_refl id) other
    around
  intro candidate kind parent small shape
  obtain ⟨row, found, same⟩ := Option.map_eq_some_iff.mp shape
  have smaller := rooted.parent_lt found (congrArg Prod.snd same)
  exact Nat.le_trans (Nat.le_of_lt smaller) small

end Rooted

end ScopeTree

end PadLang
