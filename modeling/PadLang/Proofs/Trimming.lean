/-
This file shows what pruning does to the tree of scopes.

The variables declared by removed statements leave the scope that the statements stood in, the
scopes that these statements opened are detached, and nothing else in the tree changes. Every
construct that is left had a scope of its own before, and what the construct lost is what its scope
loses. So the tree lays out what is left. Pruning never faults, not even on a program that the
checker complained about.
-/

import Mathlib.Data.List.Nodup
import PadLang.Proofs.Scope.Children
import PadLang.Proofs.Typing.Program
import PadLang.Proofs.Verdicts

namespace PadLang

variable {removals : List Removal} {statements : List Stmt} {id : ScopeId}

/-! ### Constructs that are left -/

/-- A construct after statements directly in its scope were removed. -/
structure Opening.Trimmed (gone : List Stmt) (before after : Opening) : Prop where
  scope : after.scope = before.scope
  kind : after.kind = before.kind
  name : after.name = before.name
  parent : after.parent = before.parent
  children : before.children = after.children ++ outermostOf gone
  vars : before.vars = after.vars ++ declaredBy gone

/-- A construct is left of one of these, which lost what one of the removals took from its scope. -/
def Opening.LeftOf (openings : List Opening) (removals : List Removal) (after : Opening) : Prop :=
  ∃ before ∈ openings, ∃ removal ∈ removals,
    removal.around = before.scope ∧ before.Trimmed removal.gone after

theorem Opening.LeftOf.mono {openings more : List Opening} {others : List Removal} {after : Opening}
    (left : after.LeftOf openings removals) (wider : openings ⊆ more) (larger : removals ⊆ others) :
    after.LeftOf more others := by
  obtain ⟨before, isBefore, removal, isRemoval, rest⟩ := left
  exact ⟨before, wider isBefore, removal, larger isRemoval, rest⟩

/-- A scope whose statements are pruned, behind variables that are declared ahead of them. -/
theorem trimmed_body (scope parent : Option ScopeId) (kind : ScopeKind) (ahead : Vars)
    (body : List Stmt) :
    Opening.Trimmed (droppedBy body)
      { scope, kind, parent, children := outermostOf body, vars := ahead ++ declaredBy body }
      { scope, kind, parent, children := outermostOf (prunedAll body)
        vars := ahead ++ declaredBy (prunedAll body) } where
  scope := rfl
  kind := rfl
  name := rfl
  parent := rfl
  children := outermostOf_prunedAll body
  vars := by rw [List.append_assoc, ← declaredBy_prunedAll]

mutual

theorem Stmt.openings_pruned (around : Option ScopeId) (statement : Stmt) :
    ∀ after ∈ statement.pruned.openings around,
      after.LeftOf (statement.openings around) statement.removals := by
  match statement with
  | .assignment _ _ | .declaration _ _ | .action _ _ | .returnValue _ _ =>
    exact List.forall_mem_nil _
  | .block _ body | .conditional _ _ body none | .whileLoop _ _ body =>
    exact body.openings_pruned around _
  | .function _ header body =>
    refine List.forall_mem_cons.mpr ⟨⟨_, List.mem_cons_self, ⟨header.scope, []⟩,
      List.mem_append_right _ List.mem_cons_self, rfl, rfl, rfl, rfl, rfl, ?_, ?_⟩, ?_⟩
    · rw [Block.scope_pruned]
      exact (List.append_nil _).symm
    · exact (List.append_nil _).symm
    · exact fun after member => (body.openings_pruned _ _ after member).mono
        (List.subset_cons_self _ _) (List.subset_append_left _ _)
  | .conditional _ _ first (some second) =>
    refine List.forall_mem_append.mpr ⟨fun after member => ?_, fun after member => ?_⟩
    · exact (first.openings_pruned _ _ after member).mono (List.subset_append_left _ _)
        (List.subset_append_left _ _)
    · exact (second.openings_pruned _ _ after member).mono (List.subset_append_right _ _)
        (List.subset_append_right _ _)
  | .forLoop _ init _ _ (.mk _ scope body) =>
    refine List.forall_mem_cons.mpr ⟨⟨_, List.mem_cons_self, ⟨scope, droppedBy body⟩,
      List.mem_append_right _ List.mem_cons_self, rfl, trimmed_body _ _ _ _ _⟩, ?_⟩
    exact fun after member => (openingsOf_prunedAll _ body after member).mono
      (List.subset_cons_self _ _) (List.subset_append_left _ _)

theorem Block.openings_pruned (around : Option ScopeId) (kind : ScopeKind) (block : Block) :
    ∀ after ∈ block.pruned.openings around kind,
      after.LeftOf (block.openings around kind) block.removals := by
  match block with
  | .mk _ scope body =>
    refine List.forall_mem_cons.mpr ⟨⟨_, List.mem_cons_self, ⟨scope, droppedBy body⟩,
      List.mem_append_right _ List.mem_cons_self, rfl, trimmed_body _ _ _ [] _⟩, ?_⟩
    exact fun after member => (openingsOf_prunedAll _ body after member).mono
      (List.subset_cons_self _ _) (List.subset_append_left _ _)

/-- Every construct that pruning leaves was there before. -/
theorem openingsOf_prunedAll (around : Option ScopeId) (statements : List Stmt) :
    ∀ after ∈ openingsOf around (prunedAll statements),
      after.LeftOf (openingsOf around statements) (removalsOf statements) := by
  match statements with
  | [] => exact List.forall_mem_nil _
  | first :: rest =>
    have inFirst : ∀ after ∈ first.pruned.openings around,
        after.LeftOf (openingsOf around (first :: rest)) (removalsOf (first :: rest)) :=
      fun after member => (first.openings_pruned around after member).mono
        (List.subset_append_left _ _) (List.subset_append_left _ _)
    rw [prunedAll]
    split
    · exact List.forall_mem_append.mpr ⟨inFirst, List.forall_mem_nil _⟩
    · rename_i goesOn
      refine List.forall_mem_append.mpr ⟨inFirst, fun after member => ?_⟩
      refine (openingsOf_prunedAll around rest after member).mono (List.subset_append_right _ _) ?_
      rw [removalsOf, if_neg goesOn]
      exact List.subset_append_right _ _

end

/-! ### Scopes that are left and scopes that go -/

/-- The scopes that are left, and those of the statements that are removed. -/
def scopesAmong (removals : List Removal) : List ScopeId :=
  removals.filterMap Removal.around ++ removals.flatMap fun removal => scopesOf removal.gone

theorem scopesAmong_append (first second : List Removal) :
    (scopesAmong (first ++ second)).Perm (scopesAmong first ++ scopesAmong second) := by
  rw [scopesAmong, List.filterMap_append, List.flatMap_append]
  refine List.perm_iff_count.mpr fun id => ?_
  simp only [scopesAmong, List.count_append]
  omega

theorem scopesAmong_singleton (scope : Option ScopeId) (gone : List Stmt) :
    scopesAmong [⟨scope, gone⟩] = scope.toList ++ scopesOf gone := by
  cases scope <;> simp [scopesAmong]

mutual

theorem Stmt.scopes_removals (statement : Stmt) :
    (scopesAmong statement.removals).Perm statement.scopes := by
  match statement with
  | .assignment _ _ | .declaration _ _ | .action _ _ | .returnValue _ _ => exact .refl _
  | .block _ body | .conditional _ _ body none | .forLoop _ _ _ _ body | .whileLoop _ _ body =>
    exact body.scopes_removals
  | .function _ header body =>
    refine (scopesAmong_append _ _).trans ?_
    rw [scopesAmong_singleton, scopesOf, List.append_nil]
    exact (body.scopes_removals.append_right _).trans List.perm_append_comm
  | .conditional _ _ first (some second) =>
    exact (scopesAmong_append _ _).trans (first.scopes_removals.append second.scopes_removals)

theorem Block.scopes_removals (block : Block) :
    (scopesAmong block.removals).Perm block.scopes := by
  match block with
  | .mk _ scope body =>
    refine (scopesAmong_append _ _).trans ?_
    rw [scopesAmong_singleton]
    exact (List.perm_append_comm_assoc _ _ _).trans ((scopesOf_removalsOf body).append_left _)

/-- The scopes of statements are those that are left and those that go. -/
theorem scopesOf_removalsOf (statements : List Stmt) :
    (scopesAmong (removalsOf statements) ++ scopesOf (droppedBy statements)).Perm
      (scopesOf statements) := by
  match statements with
  | [] => exact .refl _
  | first :: rest =>
    rw [removalsOf, droppedBy]
    split
    · rw [List.append_nil]
      exact first.scopes_removals.append_right _
    · refine ((scopesAmong_append _ _).append_right _).trans ?_
      rw [List.append_assoc]
      exact first.scopes_removals.append (scopesOf_removalsOf rest)

end

/-- Of a scope just one removal takes something, where all scopes are different. -/
theorem flatMap_removals {α : Type} {removal : Removal}
    (distinct : (removals.filterMap Removal.around).Nodup) (member : removal ∈ removals)
    (isAround : removal.around = some id) (view : List Stmt → List α) :
    (removals.flatMap fun other => if other.around = some id then view other.gone else []) =
      view removal.gone := by
  obtain ⟨first, second, rfl⟩ := List.append_of_mem member
  rw [List.filterMap_append, List.filterMap_cons_some isAround, List.nodup_middle,
    List.nodup_cons] at distinct
  have elsewhere {others : List Removal} (part : others ⊆ first ++ second) :
      (others.flatMap fun other => if other.around = some id then view other.gone else []) = [] :=
    List.flatMap_eq_nil_iff.mpr fun other isOther => if_neg fun same =>
      distinct.1 (List.filterMap_append ▸ List.mem_filterMap.mpr ⟨other, part isOther, same⟩)
  rw [List.flatMap_append, List.flatMap_cons, elsewhere (List.subset_append_left _ _),
    elsewhere (List.subset_append_right _ _), if_pos isAround, List.nil_append, List.append_nil]

/-- The scopes that are left of a program and those that go are all different. -/
theorem Consistent.distinct_removals {tree : ScopeTree} (consistent : Consistent tree statements) :
    (scopesAmong (Block.mk {} (some ScopeTree.global) statements).removals).Nodup :=
  (Block.scopes_removals _).nodup_iff.mpr (List.nodup_cons.mpr
    ⟨fun member => consistent.inner _ member rfl, consistent.distinct⟩)

namespace ReturnPaths

variable {tree middle after : ScopeTree} {around : Option ScopeId} {safe : Prop}
  {names others : ScopeId → List String} {gone more : List ScopeId}

/-! ### Removing statements -/

/-- Names are taken back in their scopes and scopes are detached, and nothing else changes. -/
structure Removes (names : ScopeId → List String) (gone : List ScopeId)
    (before after : ScopeTree) : Prop where
  sound : after.Sound
  size : after.size = before.size
  rows : ∀ id, after.row? id = (before.row? id).map (Scope.withdrawingAll · (names id))
  children : ∀ id, after.childrenOf id =
    (before.childrenOf id).filter fun child => ¬ (child ∈ gone ∧ before.parentOf? child = some id)

namespace Removes

theorem parentOf?_eq (removes : Removes names gone tree after) :
    after.parentOf? = tree.parentOf? := by
  funext id
  rw [ScopeTree.parentOf?, ScopeTree.parentOf?, removes.rows]
  cases tree.row? id with
  | none => rfl
  | some row => exact (Scope.resembles_withdrawingAll _).parent

theorem trans {all : ScopeId → List String} (first : Removes names gone tree middle)
    (second : Removes others more middle after) (both : ∀ id, all id = names id ++ others id) :
    Removes all (gone ++ more) tree after where
  sound := second.sound
  size := second.size.trans first.size
  rows id := by
    rw [second.rows, first.rows, Option.map_map, both]
    exact congrArg (Option.map · _) (funext fun row => (Scope.withdrawingAll_append _ _).symm)
  children id := by
    rw [second.children, first.children, List.filter_filter, first.parentOf?_eq]
    refine List.filter_congr fun child _ => ?_
    grind

/-- A tree whose rows stay the same. -/
theorem of_rows (sound : tree.Sound) (nothing : ∀ id, names id = [])
    (size : after.size = tree.size) (rows : after.row? = tree.row?)
    (children : ∀ id, after.childrenOf id = (tree.childrenOf id).filter fun child =>
      ¬ (child ∈ gone ∧ tree.parentOf? child = some id)) : Removes names gone tree after where
  sound := sound.of_rows rows
  size := size
  rows id := by
    rw [rows, nothing]
    exact Option.map_id'.symm
  children := children

theorem refl (sound : tree.Sound) (nothing : ∀ id, names id = []) : Removes names [] tree tree :=
  .of_rows sound nothing rfl rfl fun id => by simp

end Removes

/-- The names that a scope loses if variables are taken back in some scope. -/
def namesAt (around : Option ScopeId) (vars : Vars) (id : ScopeId) : List String :=
  if around = some id then vars.map Prod.fst else []

theorem namesAt_nil (id : ScopeId) : namesAt around [] id = [] := ite_self _

theorem namesAt_append (vars added : Vars) (id : ScopeId) :
    namesAt around (vars ++ added) id = namesAt around vars id ++ namesAt around added id := by
  rw [namesAt, namesAt, namesAt]
  split
  · exact List.map_append
  · rfl

theorem detachScope_meets (around : Option ScopeId) (sound : tree.Sound) {scope : Option ScopeId}
    (held : ∀ id ∈ scope.toList, (id : Nat) < tree.size) :
    Meets safe (Removes (namesAt around []) scope.toList tree) (detachScope tree scope) := by
  cases scope with
  | none => exact Meets.ok (.refl sound namesAt_nil)
  | some opened =>
    have inside : (opened : Nat) < tree.size := held opened List.mem_cons_self
    refine Meets.mono ((ScopeTree.detach_meets inside fun row parent found child =>
      Nat.lt_trans (sound.rooted.parent_lt found child) inside).and_partial
        ScopeTree.detach_children) ?_
    rintro left ⟨⟨size, rows⟩, children⟩
    exact .of_rows sound namesAt_nil size rows children

/-- Removing a statement takes its declarations back and detaches the scopes that it opens. -/
theorem remove_meets (sound : tree.Sound) (inside : ∀ id ∈ around.toList, (id : Nat) < tree.size)
    {statement : Stmt} (held : ∀ id ∈ statement.outermost, (id : Nat) < tree.size) :
    Meets safe (Removes (namesAt around statement.declares) statement.outermost tree)
      (remove tree around statement) := by
  match statement with
  | .assignment _ _ | .action _ _ | .returnValue _ _ => exact Meets.ok (.refl sound namesAt_nil)
  | .block _ _ | .conditional _ _ _ none | .forLoop _ _ _ _ _ | .whileLoop _ _ _
  | .function _ _ _ => exact detachScope_meets around sound held
  | .conditional _ _ first (some second) =>
    obtain ⟨heldFirst, heldSecond⟩ := List.forall_mem_append.mp held
    refine Meets.bind (detachScope_meets around sound heldFirst) fun middle start => ?_
    rw [← start.size] at heldSecond
    refine Meets.mono (detachScope_meets around start.sound heldSecond) fun after next => ?_
    exact start.trans next (namesAt_append [] [])
  | .declaration _ made =>
    cases around with
    | none => exact Meets.ok (.refl sound fun _ => rfl)
    | some scope =>
      obtain ⟨row, found⟩ := ScopeTree.exists_row? (inside scope List.mem_cons_self)
      refine Meets.mono ((ScopeTree.undeclare_meets found (sound.tidy found)).and_partial
        ScopeTree.undeclare_children) ?_
      rintro left ⟨⟨size, rows⟩, children⟩
      refine ⟨sound.update found rows rfl rfl rfl (sound.tidy found).withdrawing, size, ?_, ?_⟩
      · intro id
        rw [rows, namesAt]
        by_cases same : id = scope
        · subst same
          rw [Function.update_self, found, if_pos rfl]
          rfl
        · rw [Function.update_of_ne same, if_neg fun isScope => same (Option.some.inj isScope).symm]
          exact Option.map_id'.symm
      · intro id
        rw [children]
        simp [Stmt.outermost]

theorem removeAll_meets (sound : tree.Sound) (inside : ∀ id ∈ around.toList, (id : Nat) < tree.size)
    (held : ∀ id ∈ outermostOf statements, (id : Nat) < tree.size) :
    Meets safe (Removes (namesAt around (declaredBy statements)) (outermostOf statements) tree)
      (removeAll tree around statements) := by
  induction statements generalizing tree with
  | nil => exact Meets.ok (.refl sound namesAt_nil)
  | cons first rest inductionHypothesis =>
    rw [outermostOf, List.flatMap_cons, List.forall_mem_append] at held
    refine Meets.bind (remove_meets sound inside held.1) fun middle start => ?_
    rw [← start.size] at inside held
    refine Meets.mono (inductionHypothesis start.sound inside held.2) fun after next => ?_
    rw [declaredBy_cons, outermostOf, List.flatMap_cons]
    exact start.trans next (namesAt_append _ _)

/-- What the removals of a pass do. -/
def Prunes (removals : List Removal) : ScopeTree → ScopeTree → Prop :=
  Removes (fun id => removals.flatMap fun removal =>
      namesAt removal.around (declaredBy removal.gone) id)
    (removals.flatMap fun removal => outermostOf removal.gone)

theorem removeEach_meets (sound : tree.Sound)
    (held : ∀ removal ∈ removals, ∀ id ∈ removal.around.toList ++ outermostOf removal.gone,
      (id : Nat) < tree.size) : Meets safe (Prunes removals tree) (removeEach tree removals) := by
  induction removals generalizing tree with
  | nil => exact Meets.ok (.refl sound fun _ => rfl)
  | cons removal rest inductionHypothesis =>
    rw [List.forall_mem_cons, List.forall_mem_append] at held
    obtain ⟨⟨inside, heldHere⟩, heldRest⟩ := held
    refine Meets.bind (removeAll_meets sound inside heldHere) fun middle start => ?_
    rw [← start.size] at heldRest
    refine Meets.mono (inductionHypothesis start.sound heldRest) fun after next => ?_
    exact start.trans next fun id => List.flatMap_cons

variable {removals : List Removal} {removal : Removal} {scopes : List ScopeId}

theorem removeEach_meets_of_perm (sound : tree.Sound) (perm : (scopesAmong removals).Perm scopes)
    (held : ∀ id ∈ scopes, (id : Nat) < tree.size) :
    Meets safe (Prunes removals tree) (removeEach tree removals) := by
  refine removeEach_meets sound fun removal isRemoval => List.forall_mem_append.mpr ⟨?_, ?_⟩
  · intro id isAround
    refine held id (perm.mem_iff.mp (List.mem_append_left _ ?_))
    exact List.mem_filterMap.mpr ⟨removal, isRemoval, Option.mem_toList.mp isAround⟩
  · intro id isGone
    refine held id (perm.mem_iff.mp (List.mem_append_right _ ?_))
    exact List.mem_flatMap.mpr ⟨removal, isRemoval, outermostOf_subset _ isGone⟩

namespace Prunes

/-- A scope that is left loses the variables of the statements that are removed from it. -/
theorem row?_eq (prunes : Prunes removals tree after)
    (distinct : (removals.filterMap Removal.around).Nodup) (member : removal ∈ removals)
    (isAround : removal.around = some id) :
    after.row? id =
      (tree.row? id).map (Scope.withdrawingAll · ((declaredBy removal.gone).map Prod.fst)) := by
  have names := flatMap_removals distinct member isAround fun gone => (declaredBy gone).map Prod.fst
  rw [prunes.rows, ← names]
  rfl

/-- The tree has the scopes of the constructs that are left as they are left. -/
theorem provides (prunes : Prunes removals tree after) (sound : tree.Sound)
    (distinct : (removals.filterMap Removal.around).Nodup) {openings : List Opening}
    (provides : ∀ opening ∈ openings, tree.Provides opening) {opening : Opening}
    (left : opening.LeftOf openings removals) : after.Provides opening := by
  obtain ⟨before, isBefore, removal, isRemoval, isAround, trimmed⟩ := left
  obtain ⟨scope, outer, isScope, isOuter, row, found, isKind, isName, isParent, isFree, localsOf⟩ :=
    provides before isBefore
  have foundAfter := prunes.row?_eq distinct isRemoval (isAround.trans isScope)
  rw [found, Option.map_some] at foundAfter
  have resembles := row.resembles_withdrawingAll ((declaredBy removal.gone).map Prod.fst)
  refine ⟨scope, outer, trimmed.scope.trans isScope, trimmed.parent.trans isOuter, _, foundAfter,
    ?_, ?_, resembles.parent.trans isParent, resembles.nextFree.trans isFree, ?_⟩
  · rw [resembles.kind, isKind, trimmed.kind]
  · rw [resembles.name, isName, trimmed.name]
  · refine Scope.locals_withdrawingAll (Scope.locals_keys_nodup (sound.tidy found).distinct) ?_
    rw [localsOf, trimmed.vars]

end Prunes

/-! ### Running the pass -/

theorem statement_meets (sound : tree.Sound) (before : Stmt)
    (held : ∀ id ∈ before.scopes, (id : Nat) < tree.size) :
    Meets safe (fun result => Prunes before.removals tree result.tree) (statement tree before) := by
  rw [statement_eq]
  exact Meets.bind (removeEach_meets_of_perm sound before.scopes_removals held)
    fun left prunes => Meets.ok prunes

theorem sequence_meets (sound : tree.Sound) (around : Option ScopeId) (before : List Stmt)
    (held : ∀ id ∈ around.toList ++ scopesOf before, (id : Nat) < tree.size) :
    Meets safe
      (fun result => result.value = prunedAll before ∧
        Prunes (Block.mk {} around before).removals tree result.tree)
      (sequence tree around before) := by
  rw [sequence_eq]
  exact Meets.bind (removeEach_meets_of_perm sound (Block.mk {} around before).scopes_removals held)
    fun left prunes => Meets.ok ⟨rfl, prunes⟩

/-- Pruning a program never faults, and what is left belongs to what is left of the tree. -/
theorem program_meets (sound : tree.Sound) (before : Program)
    (held : ∀ id ∈ scopesOf before.statements, (id : Nat) < tree.size) :
    Meets safe
      (fun result => result.value.statements = prunedAll before.statements ∧
        Prunes (Block.mk {} (some ScopeTree.global) before.statements).removals tree result.tree ∧
        (Consistent tree before.statements →
          Consistent result.tree (prunedAll before.statements) ∧
            result.tree.lookupFunction? = tree.lookupFunction?))
      (program tree before) := by
  obtain ⟨statements⟩ := before
  refine Meets.bind (sequence_meets sound (some ScopeTree.global) statements
    (List.forall_mem_cons.mpr ⟨sound.rooted.global_lt, held⟩)) ?_
  rintro pruned ⟨value, prunes⟩
  refine Meets.pure ⟨value, prunes, fun consistent => ?_⟩
  have nothing : droppedBy statements = [] :=
    droppedBy_eq_nil consistent.inScope.anyReturns_eq_false
  have distinct := (List.nodup_append.mp consistent.distinct_removals).1
  have sameGlobal : pruned.tree.row? ScopeTree.global = tree.row? ScopeTree.global := by
    rw [prunes.row?_eq distinct (List.mem_append_right _ List.mem_cons_self) rfl, nothing]
    exact Option.map_id'
  have sameFunctions : pruned.tree.lookupFunction? = tree.lookupFunction? := by
    funext name
    rw [ScopeTree.lookupFunction?, ScopeTree.lookupFunction?, ScopeTree.functionIn?_eq,
      ScopeTree.functionIn?_eq, sameGlobal]
  refine ⟨?_, sameFunctions⟩
  exact {
    sound := prunes.sound
    inScope := sameFunctions ▸ consistent.inScope.pruned
    laidOut := allLaidOut_iff_provides.mpr fun opening member =>
      prunes.provides sound distinct (allLaidOut_iff_provides.mp consistent.laidOut)
        ((openingsOf_prunedAll _ _ opening member).mono (List.Subset.refl _)
          (List.subset_append_left _ _))
    globals := by
      have declared := declaredBy_prunedAll statements
      rw [nothing, declaredBy_nil, List.append_nil] at declared
      rw [sameGlobal, ← declared]
      exact consistent.globals
    distinct := consistent.distinct.sublist (scopesOf_prunedAll _)
    held := fun id member => by
      rw [prunes.size]
      exact held id ((scopesOf_prunedAll _).subset member)
    inner := fun id member => consistent.inner id ((scopesOf_prunedAll _).subset member)
    callable := sameFunctions ▸ consistent.callable }

end ReturnPaths

end PadLang
