/-
This file shows that the scopes stay a tree through every sequence of operations.

A scope knows its parent and lists its children, and different operations change the one and the
other. What opened a scope, its name and its parent are its origin, which nothing changes. A parent
is there before its children, so a walk over parents ends at the global scope. A scope is listed
once by its parent and by no other scope, until it is detached.
-/

import PadLang.Proofs.Scope.Operations

namespace PadLang

/-- What opened a scope, its name and its parent. -/
abbrev Origin := ScopeKind × Option String × Option ScopeId

/-- The origin of a scope. -/
def Scope.origin (scope : Scope) : Origin := (scope.kind, scope.name, scope.parent)

namespace ScopeTree

/-- The origin of the scope of a number. -/
def origin? (tree : ScopeTree) (id : ScopeId) : Option Origin := (tree.get? id).map Scope.origin

variable {tree after : ScopeTree} {id parent : ScopeId} {found outer replacement : Scope}
  {past : ScopeId → Option Origin} {gone : ScopeId → Prop} {operation : Operation}

theorem origin?_eq (here : tree.get? id = some found) : tree.origin? id = some found.origin := by
  rw [origin?, here, Option.map_some]

theorem parentOf?_eq_origin? (id : ScopeId) :
    tree.parentOf? id = (tree.origin? id).bind fun origin => origin.2.2 := by
  rw [parentOf?, row?, origin?, Option.bind_map, Option.bind_map]
  rfl

theorem parentOf?_eq (here : tree.get? id = some found) : tree.parentOf? id = found.parent := by
  rw [parentOf?_eq_origin?, origin?_eq here]
  rfl

theorem lt_size_of_parentOf? (isParent : tree.parentOf? id = some parent) : id < tree.size := by
  obtain ⟨row, isRow, -⟩ := Option.bind_eq_some_iff.mp isParent
  exact lt_size_of_row? isRow

theorem lt_size_of_origin? {origin : Origin} (isOrigin : tree.origin? id = some origin) :
    id < tree.size := by
  obtain ⟨found, here, -⟩ := Option.map_eq_some_iff.mp isOrigin
  exact lt_size_of_get? here

theorem exists_get? (inside : id < tree.size) : ∃ found, tree.get? id = some found :=
  ⟨_, List.getElem?_eq_getElem inside⟩

theorem origin?_set (here : tree.get? id = some found)
    (same : replacement.origin = found.origin) :
    (tree.set id replacement).origin? = tree.origin? := by
  funext candidate
  rw [origin?, origin?, get?_set (lt_size_of_get? here)]
  by_cases isHere : candidate = id
  · rw [isHere, Function.update_self, here, Option.map_some, Option.map_some, same]
  · rw [Function.update_of_ne isHere]

/-! ### What every operation keeps -/

/-- The scopes are a tree, and all but those that are gone are listed by their parents. The scopes
of the past are still there. -/
structure Lineage (past : ScopeId → Option Origin) (gone : ScopeId → Prop) (tree : ScopeTree) :
    Prop where
  kept : ∀ id origin, past id = some origin → tree.origin? id = some origin
  root : tree.origin? global = some (.global, none, none)
  above : ∀ {id origin}, tree.origin? id = some origin → id ≠ global →
    ∃ parent, origin.2.2 = some parent ∧ parent < id
  distinct : ∀ id, (tree.childrenOf id).Nodup
  listed : ∀ id child, child ∈ tree.childrenOf id ↔ tree.parentOf? child = some id ∧ ¬ gone child
  known : ∀ id, gone id → id < tree.size

namespace Lineage

/-- Origins stay the same, and so do the children of each scope, up to their order. -/
theorem of_perm (lineage : tree.Lineage past gone) (size : after.size = tree.size)
    (origins : after.origin? = tree.origin?)
    (children : ∀ id, (after.childrenOf id).Perm (tree.childrenOf id)) :
    after.Lineage past gone where
  kept := origins ▸ lineage.kept
  root := origins ▸ lineage.root
  above isOrigin notRoot := lineage.above (origins ▸ isOrigin) notRoot
  distinct id := (children id).nodup_iff.mpr (lineage.distinct id)
  listed id child := by
    rw [(children id).mem_iff, lineage.listed, parentOf?_eq_origin?, parentOf?_eq_origin?, origins]
  known id isGone := size ▸ lineage.known id isGone

theorem set (lineage : tree.Lineage past gone) (here : tree.get? id = some found)
    (same : replacement.origin = found.origin)
    (children : replacement.children.Perm found.children) :
    (tree.set id replacement).Lineage past gone := by
  refine lineage.of_perm (size_set _) (origin?_set here same) fun candidate => ?_
  rw [childrenOf_set (lt_size_of_get? here)]
  by_cases isHere : candidate = id
  · rw [isHere, Function.update_self, childrenOf_eq here]
    exact children
  · rw [Function.update_of_ne isHere]

end Lineage

theorem lineage_initial : initial.Lineage (fun _ => none) fun _ => False where
  kept _ _ isPast := by cases isPast
  root := rfl
  above {id origin} isOrigin notRoot := by
    match id with
    | 0 => exact absurd rfl notRoot
    | _ + 1 => cases isOrigin
  distinct id := by
    match id with
    | 0 => exact List.nodup_nil
    | _ + 1 => exact List.nodup_nil
  listed id child := by
    match id, child with
    | 0, 0 | 0, _ + 1 | _ + 1, 0 | _ + 1, _ + 1 =>
      simp [childrenOf, parentOf?, row?, get?, initial, Scope.row]
  known _ := False.elim

namespace Lineage

variable (lineage : tree.Lineage past gone)

include lineage

/-- A scope that is opened has the next number, so it is new and comes behind its parent. -/
theorem opened (around : tree.get? parent = some outer) (kind : ScopeKind) (name : Option String) :
    (⟨(tree.set parent { outer with children := outer.children ++ [tree.size] }).scopes ++
      [{ kind, name, parent := some parent }]⟩ : ScopeTree).Lineage past gone := by
  generalize isExtended : tree.set parent _ = extended
  generalize isAfter : (⟨_⟩ : ScopeTree) = after
  have inside := lt_size_of_get? around
  have size : after.size = tree.size + 1 := by
    rw [← isAfter, ← isExtended]
    simp [ScopeTree.size, ScopeTree.set]
  have origins : after.origin? =
      Function.update tree.origin? tree.size (some (kind, name, some parent)) := by
    funext candidate
    rw [← isAfter, origin?, get?_append, ← isExtended, size_set,
      Function.apply_update (fun _ => Option.map Scope.origin)]
    exact congrArg (Function.update · _ _ candidate) (origin?_set around rfl)
  have children : after.childrenOf =
      Function.update tree.childrenOf parent (tree.childrenOf parent ++ [tree.size]) := by
    rw [← isAfter, childrenOf_append rfl, ← isExtended, childrenOf_set inside, childrenOf_eq around]
  have parents (child : ScopeId) : after.parentOf? child =
      if child = tree.size then some parent else tree.parentOf? child := by
    rw [parentOf?_eq_origin?, origins, Function.update_apply, parentOf?_eq_origin?]
    split <;> rfl
  have unlisted (id : ScopeId) : tree.size ∉ tree.childrenOf id := fun isListed =>
    Nat.lt_irrefl _ (lt_size_of_parentOf? ((lineage.listed id _).mp isListed).1)
  have before {id : ScopeId} {origin : Origin} (isOrigin : tree.origin? id = some origin) :
      after.origin? id = some origin := by
    rw [origins, Function.update_of_ne (Nat.ne_of_lt (lt_size_of_origin? isOrigin))]
    exact isOrigin
  constructor
  case kept => exact fun id origin isPast => before (lineage.kept id origin isPast)
  case root => exact before lineage.root
  case above =>
    intro id origin isOrigin notRoot
    rw [origins, Function.update_apply] at isOrigin
    split at isOrigin
    · rename_i isLast
      cases isOrigin
      exact ⟨parent, rfl, isLast ▸ inside⟩
    · exact lineage.above isOrigin notRoot
  case distinct =>
    intro id
    rw [children, Function.update_apply]
    split
    · refine List.nodup_append.mpr ⟨lineage.distinct parent, List.pairwise_singleton _ _, ?_⟩
      intro child isListed last isLast same
      exact unlisted parent (List.mem_singleton.mp isLast ▸ same ▸ isListed)
    · exact lineage.distinct id
  case listed =>
    intro id child
    have notGone : ¬ gone tree.size := fun isGone => Nat.lt_irrefl _ (lineage.known _ isGone)
    rw [children, parents, Function.update_apply]
    by_cases isLast : child = tree.size
    · subst isLast
      by_cases isParent : id = parent
      · simp [isParent, notGone]
      · simp [isParent, unlisted, Ne.symm isParent]
    · by_cases isParent : id = parent
      · simp [isParent, isLast, lineage.listed]
      · simp [isParent, isLast, lineage.listed]
  case known =>
    intro id isGone
    exact size ▸ Nat.lt_succ_of_lt (lineage.known id isGone)

/-- A scope that is detached is no longer listed, and nothing else changes. -/
theorem detached (here : tree.get? id = some found) (isParent : found.parent = some parent)
    (around : tree.get? parent = some outer) :
    (tree.set parent { outer with children := outer.children.filter (· != id) }).Lineage past
      fun other => gone other ∨ other = id := by
  generalize isAfter : tree.set parent _ = after
  have size : after.size = tree.size := isAfter ▸ size_set _
  have origins : after.origin? = tree.origin? := isAfter ▸ origin?_set around rfl
  have children (other : ScopeId) :
      after.childrenOf other = (tree.childrenOf other).filter (· != id) := by
    rw [← isAfter, childrenOf_set (lt_size_of_get? around), Function.update_apply]
    split
    · rename_i isHere
      rw [isHere, childrenOf_eq around]
    · rename_i isOther
      refine (List.filter_eq_self.mpr fun child isChild => bne_iff_ne.mpr ?_).symm
      rintro rfl
      have isToo := ((lineage.listed other child).mp isChild).1
      rw [parentOf?_eq here, isParent] at isToo
      exact isOther (Option.some.inj isToo).symm
  refine ⟨origins ▸ lineage.kept, origins ▸ lineage.root,
    fun isOrigin => lineage.above (origins ▸ isOrigin), fun other => ?_, fun other child => ?_, ?_⟩
  · rw [children]
    exact (lineage.distinct other).filter _
  · rw [children, List.mem_filter, lineage.listed, parentOf?_eq_origin?, parentOf?_eq_origin?,
      origins, bne_iff_ne, not_or, and_assoc]
  · rintro other (isGone | rfl)
    · exact size ▸ lineage.known other isGone
    · exact size ▸ lt_size_of_get? here

/-- The counters are freed, which is no matter here. -/
theorem counted :
    (⟨tree.scopes.map fun scope => { scope with nextFree := 0 }⟩ : ScopeTree).Lineage past
      gone := by
  have rows (id : ScopeId) :
      (⟨tree.scopes.map fun scope => { scope with nextFree := 0 }⟩ : ScopeTree).get? id =
        (tree.get? id).map fun scope => { scope with nextFree := 0 } := List.getElem?_map
  refine lineage.of_perm (List.length_map _) (funext fun id => ?_) fun id => ?_
  · rw [origin?, origin?, rows, Option.map_map]
    rfl
  · rw [childrenOf, childrenOf, rows]
    cases tree.get? id <;> exact .refl _

theorem change (change : Change tree operation after) :
    after.Lineage past fun id => gone id ∨ operation = .detach id := by
  have kept (quiet : ∀ id, operation ≠ .detach id) (stays : after.Lineage past gone) :
      after.Lineage past fun id => gone id ∨ operation = .detach id := by
    simpa only [quiet, or_false] using stays
  cases change with
  | opened around => exact kept (by rintro _ ⟨⟩) (lineage.opened around _ _)
  | unchanged orphan =>
    refine ⟨lineage.kept, lineage.root, lineage.above, lineage.distinct, fun id child => ?_, ?_⟩
    · rw [lineage.listed, not_or, ← and_assoc]
      refine (and_iff_left_of_imp fun both isDetached => ?_).symm
      obtain ⟨found, here, isOrphan⟩ := orphan child isDetached
      rw [parentOf?_eq here, isOrphan] at both
      cases both.1
    · rintro id (isGone | isDetached)
      · exact lineage.known id isGone
      · obtain ⟨found, here, -⟩ := orphan id isDetached
        exact lt_size_of_get? here
  | declared here _ _ _ => exact kept (by rintro _ ⟨⟩) (lineage.set here rfl (.refl _))
  | undeclared here => exact kept (by rintro _ ⟨⟩) (lineage.set here rfl (.refl _))
  | detached here isParent around =>
    simpa only [Operation.detach.injEq, eq_comm] using lineage.detached here isParent around
  | hoisted here => exact kept (by rintro _ ⟨⟩) (lineage.set here rfl (List.filter_append_perm _ _))
  | labelled here => exact kept (by rintro _ ⟨⟩) (lineage.set here rfl (.refl _))
  | counted => exact kept (by rintro _ ⟨⟩) lineage.counted
  | allocated here _ => exact kept (by rintro _ ⟨⟩) (lineage.set here rfl (.refl _))

theorem performAll (tidy : tree.AllTidy) {operations : List Operation}
    (reached : tree.performAll operations = .ok after) :
    after.Lineage past fun id => gone id ∨ .detach id ∈ operations := by
  induction operations generalizing tree gone with
  | nil =>
    cases reached
    simpa using lineage
  | cons operation rest inductionHypothesis =>
    rw [ScopeTree.performAll, List.foldlM_cons] at reached
    obtain ⟨middle, performed, reached⟩ := bind_eq_ok_iff.mp reached
    have change := (perform_changes tidy operation).good_of_ok performed
    have later := inductionHypothesis (lineage.change change) (change.allTidy tidy) reached
    simpa only [List.mem_cons, or_assoc, eq_comm] using later

theorem rooted : tree.Rooted where
  root := by
    obtain ⟨found, here, isOrigin⟩ := Option.map_eq_some_iff.mp lineage.root
    exact ⟨found.row, row?_eq_some_iff.mpr ⟨found, here, rfl⟩, congrArg Prod.fst isOrigin,
      congrArg (·.2.2) isOrigin⟩
  above {id row} isRow notRoot := by
    obtain ⟨found, here, rfl⟩ := row?_eq_some_iff.mp isRow
    exact lineage.above (origin?_eq here) notRoot

end Lineage

/-! ### Walks over parents -/

/-- The walk from a scope over parents, up to a scope that has none. -/
inductive Climbs (tree : ScopeTree) : ScopeId → List ScopeId → Prop where
  | finish {id : ScopeId} {found : Scope} (here : tree.get? id = some found)
      (orphan : found.parent = none) : Climbs tree id [id]
  | step {id parent : ScopeId} {found : Scope} {walk : List ScopeId}
      (here : tree.get? id = some found) (isParent : found.parent = some parent)
      (above : Climbs tree parent walk) : Climbs tree id (id :: walk)

theorem Climbs.eq_ancestors {walk : List ScopeId} (climbs : tree.Climbs id walk)
    (rooted : tree.Rooted) : walk = tree.ancestors id := by
  induction climbs with
  | @finish id found here orphan =>
    by_cases isRoot : id = global
    · rw [isRoot, rooted.ancestors_global]
    · obtain ⟨parent, isParent, -⟩ :=
        rooted.above (row?_eq_some_iff.mpr ⟨found, here, rfl⟩) isRoot
      cases orphan.symm.trans isParent
  | @step id parent found walk here isParent above inductionHypothesis =>
    rw [inductionHypothesis,
      rooted.ancestors_child (row?_eq_some_iff.mpr ⟨found, here, rfl⟩) isParent]

/-- A walk comes to smaller and smaller numbers, so it ends at the global scope. -/
theorem Rooted.climbs (rooted : tree.Rooted) (here : tree.get? id = some found) :
    tree.Climbs id (tree.ancestors id) ∧ (tree.ancestors id).getLast? = some global := by
  induction id using Nat.strongRecOn generalizing found with
  | _ id inductionHypothesis =>
    have isRow := row?_eq_some_iff.mpr ⟨found, here, rfl⟩
    by_cases isRoot : id = global
    · subst isRoot
      obtain ⟨row, atRoot, -, orphan⟩ := rooted.root
      cases isRow.symm.trans atRoot
      rw [rooted.ancestors_global]
      exact ⟨.finish here orphan, rfl⟩
    · obtain ⟨parent, isParent, smaller⟩ := rooted.above isRow isRoot
      obtain ⟨outer, around⟩ := exists_get? (Nat.lt_trans smaller (lt_size_of_get? here))
      obtain ⟨climbs, last⟩ := inductionHypothesis parent smaller around
      rw [rooted.ancestors_child isRow isParent]
      refine ⟨.step here isParent climbs, ?_⟩
      rw [List.getLast?_cons, last]
      rfl

/-! ### Detaching and moving functions to the front -/

theorem detach_eq (here : tree.get? id = some found) (isParent : found.parent = some parent)
    (around : tree.get? parent = some outer) :
    tree.detach id =
      .ok (tree.set parent { outer with children := outer.children.filter (· != id) }) := by
  rw [detach, get, here]
  simp only [bind, Except.bind, isParent, get, around]
  rfl

/-- Detaching a scope takes it off the list of its parent, and doing so again changes nothing. -/
theorem Rooted.detach (rooted : tree.Rooted) (here : tree.get? id = some found) :
    ∃ after, tree.detach id = .ok after ∧ after.detach id = .ok after ∧
      ∀ other, after.get? other = (tree.get? other).map fun scope =>
        if found.parent = some other then
          { scope with children := scope.children.filter (· != id) }
        else scope := by
  cases isParent : found.parent with
  | none =>
    have stays : tree.detach id = .ok tree := by
      rw [ScopeTree.detach, get, here]
      simp only [bind, Except.bind, isParent]
      rfl
    exact ⟨tree, stays, stays, fun other => Option.map_id'.symm⟩
  | some parent =>
    have smaller := rooted.parent_lt (row?_eq_some_iff.mpr ⟨found, here, rfl⟩) isParent
    obtain ⟨outer, around⟩ := exists_get? (Nat.lt_trans smaller (lt_size_of_get? here))
    have changed := get?_set (lt_size_of_get? around)
      { outer with children := outer.children.filter (· != id) }
    refine ⟨_, detach_eq here isParent around, ?_, fun other => ?_⟩
    · have stillHere := congrFun changed id
      have stillAround := congrFun changed parent
      rw [Function.update_of_ne (Nat.ne_of_gt smaller), here] at stillHere
      rw [Function.update_self] at stillAround
      rw [detach_eq stillHere isParent stillAround]
      simp only [List.filter_filter, Bool.and_self]
      exact congrArg Except.ok (set_eq_self stillAround)
    · rw [changed, Function.update_apply]
      split
      · rename_i isHere
        rw [isHere, around, Option.map_some, if_pos rfl]
      · rename_i isOther
        simp only [Option.some_inj, Ne.symm isOther, if_false]
        exact Option.map_id'.symm

theorem hoistFunctions_eq (here : tree.get? id = some found) :
    tree.hoistFunctions id =
      .ok (tree.set id { found with children := tree.functionsFirst found.children }) := by
  rw [hoistFunctions, get, here]
  simp only [bind, Except.bind, List.partition_eq_filter_filter]
  rfl

theorem functionsFirst_idem (children : List ScopeId) :
    tree.functionsFirst (tree.functionsFirst children) = tree.functionsFirst children := by
  simp only [functionsFirst, List.filter_append, List.filter_filter, Bool.and_self,
    Bool.not_and_self, Bool.and_not_self, List.filter_false, List.append_nil, List.nil_append]

/-- Moving functions to the front again changes nothing, since it does not change which scopes are
functions. -/
theorem hoistFunctions_idem (here : tree.get? id = some found)
    (hoisted : tree.hoistFunctions id = .ok after) : after.hoistFunctions id = .ok after := by
  rw [hoistFunctions_eq here] at hoisted
  generalize isChildren : tree.functionsFirst found.children = children at hoisted
  have changed := get?_set (lt_size_of_get? here) { found with children }
  rw [Except.ok.inj hoisted] at changed
  have same : after.isFunction = tree.isFunction := by
    funext child
    rw [isFunction, isFunction, changed]
    by_cases isHere : child = id
    · rw [isHere, Function.update_self, here]
    · rw [Function.update_of_ne isHere]
  have stillHere := congrFun changed id
  rw [Function.update_self] at stillHere
  rw [hoistFunctions_eq stillHere, functionsFirst, same, ← functionsFirst, ← isChildren,
    functionsFirst_idem, isChildren]
  exact congrArg Except.ok (set_eq_self stillHere)

/-- The scopes stay a tree in every sequence of operations. Only the global scope has no parent, and
every other has one of a smaller number, so there is one walk over parents from each scope and it
ends at the global scope; lookups are made along it. A scope is listed once by its parent, and by no
other, until it is detached. Detaching changes that one list, and doing so again changes nothing.
Moving functions to the front keeps the order among functions and among the others, and doing so
again changes nothing either. Whatever follows, a scope keeps what opened it, its name and its
parent. -/
theorem scopes_stay_a_tree {operations : List Operation}
    (reached : initial.performAll operations = .ok tree) {scope : Scope}
    (here : tree.get? id = some scope) :
    (scope.parent = none ↔ id = global) ∧
    (∀ parent, scope.parent = some parent → parent < id) ∧
    (∃ walk, (∀ other, tree.Climbs id other ↔ other = walk) ∧ walk.getLast? = some global ∧
      tree.ancestors id = walk ∧
      tree.functionDepth id = (walk.takeWhile fun around => !tree.isFunction around).length ∧
      ∀ name,
        tree.lookupVariable? id name =
          (tree.throughFunction walk).findSome? (tree.variableIn? name) ∧
        tree.resolve? id name = tree.resolveIn? name 0 (tree.throughFunction walk) ∧
        tree.functionInChain id name =
          walk.any fun around => (tree.functionIn? name around).isSome) ∧
    scope.children.Nodup ∧
    (∀ child, child ∈ scope.children ↔
      tree.parentOf? child = some id ∧ .detach child ∉ operations) ∧
    (∃ after, tree.detach id = .ok after ∧ after.detach id = .ok after ∧
      ∀ other, after.get? other = (tree.get? other).map fun found =>
        if scope.parent = some other then
          { found with children := found.children.filter (· != id) }
        else found) ∧
    (∃ after front back,
      tree.hoistFunctions id = .ok after ∧ after.hoistFunctions id = .ok after ∧
      (∀ other, after.get? other =
        if other = id then some { scope with children := front ++ back } else tree.get? other) ∧
      (front ++ back).Perm scope.children ∧
      front.Sublist scope.children ∧ (∀ child ∈ front, tree.isFunction child = true) ∧
      back.Sublist scope.children ∧ ∀ child ∈ back, tree.isFunction child = false) ∧
    ∀ more after, tree.performAll more = .ok after →
      ∃ found, after.get? id = some found ∧ found.kind = scope.kind ∧ found.name = scope.name ∧
        found.parent = scope.parent := by
  have tidy := (allTidy_initial.performAll operations).good_of_ok reached
  have lineage := lineage_initial.performAll allTidy_initial reached
  have rooted := lineage.rooted
  have isRow := row?_eq_some_iff.mpr ⟨scope, here, rfl⟩
  refine ⟨?_, fun parent isParent => rooted.parent_lt isRow isParent, ?_, ?_, fun child => ?_,
    rooted.detach here, ?_, fun more after performed => ?_⟩
  · constructor
    · intro orphan
      by_contra notRoot
      obtain ⟨parent, isParent, -⟩ := rooted.above isRow notRoot
      cases orphan.symm.trans isParent
    · rintro rfl
      obtain ⟨row, atRoot, -, orphan⟩ := rooted.root
      cases isRow.symm.trans atRoot
      exact orphan
  · obtain ⟨climbs, last⟩ := rooted.climbs here
    refine ⟨tree.ancestors id, fun other => ⟨fun isWalk => isWalk.eq_ancestors rooted, ?_⟩, last,
      rfl, rfl, fun name => ⟨rfl, rfl, rfl⟩⟩
    rintro rfl
    exact climbs
  · exact childrenOf_eq here ▸ lineage.distinct id
  · rw [← childrenOf_eq here, lineage.listed, false_or]
  · refine ⟨_, _, _, hoistFunctions_eq here, hoistFunctions_idem here (hoistFunctions_eq here),
      fun other => ?_, List.filter_append_perm tree.isFunction _, List.filter_sublist,
      fun child member => ?_, List.filter_sublist, fun child member => ?_⟩
    · rw [get?_set (lt_size_of_get? here), Function.update_apply, functionsFirst]
    · exact (List.mem_filter.mp member).2
    · simpa using (List.mem_filter.mp member).2
  · have present := { lineage with kept := fun id origin isOrigin => isOrigin }
    have kept := (present.performAll tidy performed).kept id _ (origin?_eq here)
    obtain ⟨found, there, same⟩ := Option.map_eq_some_iff.mp kept
    exact ⟨found, there, congrArg Prod.fst same, congrArg (·.2.1) same, congrArg (·.2.2) same⟩

/-- The block is still listed and the detached function is not, though it keeps its parent. -/
theorem scopes_stay_a_tree_example :
    ∃ tree scope, initial.performAll exampleOperations = .ok tree ∧ tree.get? 0 = some scope ∧
      tree.parentOf? 1 = some 0 ∧ tree.parentOf? 2 = some 0 ∧
      1 ∈ scope.children ∧ 2 ∉ scope.children := by
  obtain ⟨tree, reached, parents, scope, here⟩ :
      ∃ tree, initial.performAll exampleOperations = .ok tree ∧
        [1, 2].map tree.parentOf? = [some 0, some 0] ∧ ∃ scope, tree.get? 0 = some scope :=
    ⟨_, rfl, rfl, _, rfl⟩
  obtain ⟨-, -, -, -, listed, -⟩ := scopes_stay_a_tree reached here
  simp only [List.map_cons, List.map_nil, List.cons.injEq, and_true] at parents
  refine ⟨tree, scope, reached, here, parents.1, parents.2, ?_, ?_⟩
  · exact (listed 1).mpr ⟨parents.1, by simp [exampleOperations]⟩
  · exact fun isListed => ((listed 2).mp isListed).2 (by simp [exampleOperations])

end ScopeTree

end PadLang
