/-
This file says what each operation on the tree of scopes does to the children of scopes.

Opening a scope adds it to the children of the scope around it, detaching a scope takes it from
its parent, and moving functions to the front reorders the children of one scope. Declaring and
withdrawing names change no children. A scope survives if it can be reached from the global scope
over children, so a detached scope is lost with everything inside it.
-/

import PadLang.Proofs.Scope.Rows

namespace PadLang

namespace ScopeTree

variable {parent : ScopeId} {name : String}

/-- The children of a scope, in order. -/
def childrenOf (tree : ScopeTree) (scope : ScopeId) : List ScopeId :=
  match tree.get? scope with
  | none => []
  | some found => found.children

/-- The parent of a scope, if it has one. -/
def parentOf? (tree : ScopeTree) (scope : ScopeId) : Option ScopeId :=
  (tree.row? scope).bind Scope.parent

/-- A scope that the tree still has: the global scope, or a child of such a scope. -/
inductive Survives (tree : ScopeTree) : ScopeId → Prop where
  | root : Survives tree global
  | child {parent scope : ScopeId} {found : Scope} (survives : Survives tree parent)
      (here : tree.get? parent = some found) (isChild : scope ∈ found.children) :
      Survives tree scope

variable {tree after : ScopeTree} {scope : ScopeId} {found : Scope}

theorem childrenOf_eq (here : tree.get? scope = some found) :
    tree.childrenOf scope = found.children := by
  rw [childrenOf, here]

theorem childrenOf_of_size_le (outside : tree.size ≤ scope) : tree.childrenOf scope = [] := by
  have absent : tree.get? scope = none := List.getElem?_eq_none outside
  rw [childrenOf, absent]

theorem Survives.of_mem_childrenOf (survives : tree.Survives parent)
    (isChild : scope ∈ tree.childrenOf parent) : tree.Survives scope := by
  cases here : tree.get? parent with
  | none =>
    rw [childrenOf, here] at isChild
    cases isChild
  | some found => exact .child survives here (childrenOf_eq here ▸ isChild)

/-- The scopes that survive are those that are found from the global scope on. -/
theorem Survives.mem {scopes : List ScopeId} (survives : tree.Survives scope)
    (root : global ∈ scopes)
    (closed : ∀ id ∈ scopes, ∀ child ∈ tree.childrenOf id, child ∈ scopes) : scope ∈ scopes := by
  induction survives with
  | root => exact root
  | child _ here isChild inductionHypothesis =>
    exact closed _ inductionHypothesis _ (by rw [childrenOf_eq here]; exact isChild)

/-! ### Replacing a scope -/

theorem get_partial : Meets False (fun found => tree.get? scope = some found) (tree.get scope) := by
  unfold get
  cases found : tree.get? scope with
  | none => exact id
  | some whole => exact rfl

theorem lt_size_of_get? (here : tree.get? scope = some found) : scope < tree.size :=
  lt_size_of_row? (row?_eq_some_iff.mpr ⟨found, here, rfl⟩)

theorem get?_set (inside : scope < tree.size) (replacement : Scope) :
    (tree.set scope replacement).get? = Function.update tree.get? scope (some replacement) := by
  funext other
  by_cases same : other = scope
  · subst same
    rw [Function.update_self, get?, set, List.getElem?_set_self inside]
  · rw [Function.update_of_ne same, get?, get?, set, List.getElem?_set_ne (Ne.symm same)]

theorem childrenOf_set (inside : scope < tree.size) (replacement : Scope) :
    (tree.set scope replacement).childrenOf =
      Function.update tree.childrenOf scope replacement.children := by
  funext other
  by_cases same : other = scope
  · subst same
    rw [Function.update_self, childrenOf, get?_set inside, Function.update_self]
  · rw [Function.update_of_ne same, childrenOf, childrenOf, get?_set inside,
      Function.update_of_ne same]

/-! ### Opening, declaring and withdrawing -/

/-- A row that is added behind the others without children changes no children. -/
theorem childrenOf_append {fresh : Scope} (childless : fresh.children = []) :
    (⟨tree.scopes ++ [fresh]⟩ : ScopeTree).childrenOf = tree.childrenOf := by
  funext other
  rw [childrenOf, get?_append]
  by_cases last : other = tree.size
  · rw [last, Function.update_self, childrenOf_of_size_le (Nat.le_refl _)]
    exact childless
  · rw [Function.update_of_ne last, childrenOf]

/-- A scope is opened as the last child of the scope around it. -/
theorem openScope_children {kind : ScopeKind} {name : Option String} :
    Meets False
      (fun opened => opened.1 = tree.size ∧ opened.2.size = tree.size + 1 ∧
        opened.2.childrenOf =
          Function.update tree.childrenOf parent (tree.childrenOf parent ++ [tree.size]))
      (tree.openScope parent kind name) := by
  unfold openScope
  split
  · exact id
  refine Meets.bind get_partial fun outer here => ?_
  refine Meets.pure ⟨rfl, ?_, ?_⟩
  · simp [size, set]
  · rw [childrenOf_append rfl, childrenOf_set (lt_size_of_get? here), childrenOf_eq here]
    rfl

/-- Replacing a scope by one with the same children changes no children. -/
theorem childrenOf_set_of_eq {replacement : Scope} (here : tree.get? scope = some found)
    (same : replacement.children = found.children) :
    (tree.set scope replacement).childrenOf = tree.childrenOf := by
  rw [childrenOf_set (lt_size_of_get? here), same, ← childrenOf_eq here, Function.update_eq_self]

/-- No scope is opened, and all children stay the same. -/
structure Still (before after : ScopeTree) : Prop where
  size : after.size = before.size
  children : after.childrenOf = before.childrenOf

theorem Still.refl : Still tree tree := ⟨rfl, rfl⟩

theorem Still.trans {middle : ScopeTree} (first : Still tree middle) (second : Still middle after) :
    Still tree after :=
  ⟨second.size.trans first.size, second.children.trans first.children⟩

theorem declare_still {symbol : Symbol} :
    Meets False (fun result => ∀ declared, result = .ok declared → Still tree declared)
      (tree.declare scope name symbol) := by
  unfold declare
  refine Meets.bind get_partial fun whole here => ?_
  split
  · exact Meets.pure nofun
  refine Meets.bind (Meets.of_unsafe id) fun width _ => ?_
  split
  · exact Meets.pure nofun
  · refine Meets.pure fun declared same => ?_
    cases same
    exact ⟨size_set _, childrenOf_set_of_eq here rfl⟩

/-! ### Detaching -/

/-- A scope is taken off the children of its parent. -/
theorem detach_children {id : ScopeId} :
    Meets False
      (fun after => ∀ other, after.childrenOf other = (tree.childrenOf other).filter fun child =>
        ¬ (child ∈ [id] ∧ tree.parentOf? child = some other))
      (tree.detach id) := by
  unfold detach
  refine Meets.bind get_partial fun whole here => ?_
  have parentOf : tree.parentOf? id = whole.parent := by
    rw [parentOf?, row?, here]
    rfl
  cases isParent : whole.parent with
  | none =>
    exact Meets.pure fun other => (List.filter_eq_self.mpr fun child _ => by grind).symm
  | some parent =>
    refine Meets.bind get_partial fun outer around => Meets.pure fun other => ?_
    rw [childrenOf_set (lt_size_of_get? around)]
    by_cases same : other = parent
    · subst same
      rw [Function.update_self, childrenOf_eq around]
      exact List.filter_congr fun child _ => by grind
    · rw [Function.update_of_ne same]
      exact (List.filter_eq_self.mpr fun child _ => by grind).symm

theorem undeclare_children :
    Meets False (fun after => after.childrenOf = tree.childrenOf) (tree.undeclare scope name) := by
  unfold undeclare
  refine Meets.bind get_partial fun whole here => ?_
  split
  · exact Meets.pure rfl
  · refine Meets.bind (Meets.of_unsafe id) fun width _ => ?_
    refine Meets.bind (Meets.of_unsafe id) fun left _ => ?_
    exact Meets.pure (childrenOf_set_of_eq here rfl)

/-! ### Moving functions to the front -/

theorem hoistFunctions_children :
    Meets False
      (fun after => after.childrenOf = Function.update tree.childrenOf scope
        ((tree.childrenOf scope).filter tree.isFunction ++
          (tree.childrenOf scope).filter fun id => !tree.isFunction id))
      (tree.hoistFunctions scope) := by
  unfold hoistFunctions
  refine Meets.bind get_partial fun whole here => ?_
  rw [List.partition_eq_filter_filter]
  refine Meets.pure ?_
  rw [childrenOf_set (lt_size_of_get? here), childrenOf_eq here]
  rfl

end ScopeTree

end PadLang
