/-
This file shows that the tree of scopes is nested as the program is.

Every statement opens some scopes in the scope it stands in, and others inside of these. The
checker makes the children of each scope the scopes that the statements directly inside it open,
in order. Pruning takes the scopes of removed statements off the children of the scope around
them, and moving functions to the front does the same to the program and to the tree. So the
children of a scope are always those of its surviving statements, and the scopes that survive in
the tree are just those that the surviving program bears.
-/

import PadLang.Proofs.Analysis

namespace PadLang

variable {tree : ScopeTree} {scope around : ScopeId} {kind : ScopeKind} {name : Option String}
  {vars : Vars}

/-! ### Constructs inside one another -/

theorem outermostOf_cons (first : Stmt) (rest : List Stmt) :
    outermostOf (first :: rest) = first.outermost ++ outermostOf rest := List.flatMap_cons

/-- The children of each construct are the scopes of others, which are opened in it. Each construct
is a child of the one it is opened in, or it is one of the outermost and opened in the scope around
them all. -/
structure Linked (openings : List Opening) (around : Option ScopeId) (outermost : List ScopeId) :
    Prop where
  inner : ∀ outer ∈ openings, ∀ id ∈ outer.children,
    ∃ opening ∈ openings, opening.scope = some id ∧ opening.parent = outer.scope
  outer : ∀ opening ∈ openings, opening.parent = around ∧ opening.scope.toList ⊆ outermost ∨
    ∃ outer ∈ openings, opening.parent = outer.scope ∧ opening.scope.toList ⊆ outer.children

namespace Linked

variable {around : Option ScopeId} {outermost others : List ScopeId} {openings more : List Opening}

theorem nil : Linked [] around [] := ⟨List.forall_mem_nil _, List.forall_mem_nil _⟩

theorem append (first : Linked openings around outermost) (second : Linked more around others) :
    Linked (openings ++ more) around (outermost ++ others) where
  inner := by
    refine List.forall_mem_append.mpr
      ⟨fun outer isOuter id isChild => ?_, fun outer isOuter id isChild => ?_⟩
    · obtain ⟨opening, isOpening, rest⟩ := first.inner outer isOuter id isChild
      exact ⟨opening, List.mem_append_left _ isOpening, rest⟩
    · obtain ⟨opening, isOpening, rest⟩ := second.inner outer isOuter id isChild
      exact ⟨opening, List.mem_append_right _ isOpening, rest⟩
  outer := by
    refine List.forall_mem_append.mpr ⟨fun opening isOpening => ?_, fun opening isOpening => ?_⟩
    · refine (first.outer opening isOpening).imp
        (And.imp_right (List.subset_append_of_subset_left _)) ?_
      exact fun ⟨outer, isOuter, inside⟩ => ⟨outer, List.mem_append_left _ isOuter, inside⟩
    · refine (second.outer opening isOpening).imp
        (And.imp_right (List.subset_append_of_subset_right _)) ?_
      exact fun ⟨outer, isOuter, inside⟩ => ⟨outer, List.mem_append_right _ isOuter, inside⟩

/-- A construct around others. -/
theorem cons {whole : Opening} (inside : Linked openings whole.scope whole.children)
    (listed : ∀ id ∈ whole.children,
      ∃ opening ∈ openings, opening.scope = some id ∧ opening.parent = whole.scope) :
    Linked (whole :: openings) whole.parent whole.scope.toList where
  inner := by
    refine List.forall_mem_cons.mpr ⟨fun id isChild => ?_, fun outer isOuter id isChild => ?_⟩
    · obtain ⟨opening, isOpening, rest⟩ := listed id isChild
      exact ⟨opening, List.mem_cons_of_mem _ isOpening, rest⟩
    · obtain ⟨opening, isOpening, rest⟩ := inside.inner outer isOuter id isChild
      exact ⟨opening, List.mem_cons_of_mem _ isOpening, rest⟩
  outer := by
    refine List.forall_mem_cons.mpr
      ⟨.inl ⟨rfl, List.Subset.refl _⟩, fun opening isOpening => .inr ?_⟩
    rcases inside.outer opening isOpening with atTop | ⟨outer, isOuter, below⟩
    · exact ⟨whole, List.mem_cons_self, atTop⟩
    · exact ⟨outer, List.mem_cons_of_mem _ isOuter, below⟩

end Linked

mutual

theorem Stmt.linked (statement : Stmt) (around : Option ScopeId) :
    Linked (statement.openings around) around statement.outermost := by
  match statement with
  | .assignment _ _ | .declaration _ _ | .action _ _ | .returnValue _ _ => exact .nil
  | .block _ body | .conditional _ _ body none | .whileLoop _ _ body => exact body.linked around _
  | .function _ header body =>
    refine .cons (body.linked header.scope .block) fun id member => ?_
    obtain ⟨opening, isOpening, isScope, isParent, _⟩ :=
      Block.exists_opening member header.scope .block
    exact ⟨opening, isOpening, isScope, isParent⟩
  | .conditional _ _ first (some second) =>
    exact (first.linked around .consequent).append (second.linked around .alternative)
  | .forLoop _ _ _ _ (.mk _ scope body) =>
    exact .cons (linkedOf body scope) fun _ member => exists_opening_of_mem_outermostOf member scope

theorem Block.linked (block : Block) (around : Option ScopeId) (kind : ScopeKind) :
    Linked (block.openings around kind) around block.scope.toList := by
  match block with
  | .mk _ scope body =>
    exact .cons (linkedOf body scope) fun _ member => exists_opening_of_mem_outermostOf member scope

theorem linkedOf (statements : List Stmt) (around : Option ScopeId) :
    Linked (openingsOf around statements) around (outermostOf statements) := by
  match statements with
  | [] => exact .nil
  | first :: rest => exact (first.linked around).append (linkedOf rest around)

end

namespace ScopeTree

/-- The children of scopes are those that the constructs say. -/
def Nested (tree : ScopeTree) (openings : List Opening) : Prop :=
  ∀ opening ∈ openings, ∀ scope ∈ opening.scope, tree.childrenOf scope = opening.children

variable {before middle after : ScopeTree} {scope : Nat} {openings others : List Opening}
  {opened more : List ScopeId}

theorem nested_append :
    tree.Nested (openings ++ others) ↔ tree.Nested openings ∧ tree.Nested others :=
  List.forall_mem_append

theorem Nested.congr (nested : tree.Nested openings)
    (same : ∀ opening ∈ openings, ∀ id ∈ opening.scope, after.childrenOf id = tree.childrenOf id) :
    after.Nested openings := fun opening member id isScope =>
  (same opening member id isScope).trans (nested opening member id isScope)

/-! ### Scopes as they are opened -/

/-- Scopes are opened in one scope, with others inside of them: they are its last children, and
what the other scopes had as children they still have. -/
structure Nests (scope : ScopeId) (opened : List ScopeId) (openings : List Opening)
    (before after : ScopeTree) : Prop where
  grows : before.size ≤ after.size
  kept : ∀ id : Nat, id < before.size → id ≠ scope → after.childrenOf id = before.childrenOf id
  here : after.childrenOf scope = before.childrenOf scope ++ opened
  fresh : ∀ opening ∈ openings, ∀ id ∈ opening.scope,
    before.size ≤ (id : Nat) ∧ (id : Nat) < after.size
  nested : after.Nested openings

namespace Nests

theorem of_still (still : Still before after) : Nests scope [] [] before after where
  grows := Nat.le_of_eq still.size.symm
  kept id _ _ := by rw [still.children]
  here := by rw [still.children, List.append_nil]
  fresh := List.forall_mem_nil _
  nested := List.forall_mem_nil _

theorem trans (inside : scope < before.size)
    (first : Nests scope opened openings before middle)
    (second : Nests scope more others middle after) :
    Nests scope (opened ++ more) (openings ++ others) before after where
  grows := Nat.le_trans first.grows second.grows
  kept id isOld notHere := by
    rw [second.kept id (Nat.lt_of_lt_of_le isOld first.grows) notHere, first.kept id isOld notHere]
  here := by rw [second.here, first.here, List.append_assoc]
  fresh := by
    refine List.forall_mem_append.mpr
      ⟨fun opening member id isScope => ?_, fun opening member id isScope => ?_⟩
    · obtain ⟨least, most⟩ := first.fresh opening member id isScope
      exact ⟨least, Nat.lt_of_lt_of_le most second.grows⟩
    · obtain ⟨least, most⟩ := second.fresh opening member id isScope
      exact ⟨Nat.le_trans first.grows least, most⟩
  nested := by
    refine nested_append.mpr ⟨first.nested.congr fun opening member id isScope => ?_, second.nested⟩
    obtain ⟨least, most⟩ := first.fresh opening member id isScope
    exact second.kept id most (Nat.ne_of_gt (Nat.lt_of_lt_of_le inside least))

/-- A scope that is opened, and what is opened inside it. -/
theorem enclose {opening : Opening} (isScope : opening.scope = some before.size)
    (inside : scope < before.size) (size : middle.size = before.size + 1)
    (children : middle.childrenOf =
      Function.update before.childrenOf scope (before.childrenOf scope ++ [before.size]))
    (inner : Nests before.size opening.children openings middle after) :
    Nests scope [before.size] (opening :: openings) before after where
  grows := by
    have grows := inner.grows
    omega
  kept id isOld notHere := by
    rw [inner.kept id (by omega) (Nat.ne_of_lt isOld), children, Function.update_of_ne notHere]
  here := by
    rw [inner.kept scope (by omega) (Nat.ne_of_lt inside), children, Function.update_self]
  fresh := by
    have larger : before.size < after.size := by
      have grows := inner.grows
      omega
    refine List.forall_mem_cons.mpr ⟨fun id isId => ?_, fun other member id isId => ?_⟩
    · cases isScope.symm.trans isId
      exact ⟨Nat.le_refl _, larger⟩
    · obtain ⟨least, most⟩ := inner.fresh other member id isId
      rw [size] at least
      exact ⟨Nat.le_of_succ_le least, most⟩
  nested := by
    refine List.forall_mem_cons.mpr ⟨fun id isId => ?_, inner.nested⟩
    cases isScope.symm.trans isId
    rw [inner.here, children, Function.update_of_ne (Nat.ne_of_gt inside),
      childrenOf_of_size_le (Nat.le_refl _), List.nil_append]

end Nests

end ScopeTree

namespace Typing

open ScopeTree (Still Nests)

variable {scope : Nat}

theorem declareVariable_still {name : Ident} {type : Ty} :
    Meets False (fun result => Still tree result.1) (declareVariable tree scope name type) := by
  unfold declareVariable
  split
  · exact Meets.pure .refl
  · refine Meets.bind ScopeTree.declare_still fun result still => ?_
    cases result with
    | ok declared => exact Meets.pure (still declared rfl)
    | error conflict => exact Meets.pure .refl

theorem parameters_still {parameters : List Parameter} :
    Meets False (fun result => Still tree result.1) (Typing.parameters tree scope parameters) := by
  induction parameters generalizing tree with
  | nil => exact Meets.ok .refl
  | cons parameter rest inductionHypothesis =>
    refine Meets.bind declareVariable_still fun first still => ?_
    refine Meets.bind inductionHypothesis fun others stillOthers => ?_
    exact Meets.pure (still.trans stillOthers)

theorem declaration_still {made : Declaration} :
    Meets False (fun checked => Still tree checked.tree) (declaration tree scope made) :=
  Meets.bind declareVariable_still fun _ still => Meets.pure still

theorem loopInit_still {init : Option Declaration} :
    Meets False (fun checked => Still tree checked.tree) (loopInit tree scope init) := by
  cases init with
  | none => exact Meets.ok .refl
  | some made => exact Meets.bind declaration_still fun _ still => Meets.pure still

/-- What a check without complaints leaves behind is nested as the scopes that were opened in it. -/
def NestsIn {α : Type} (tree : ScopeTree) (scope : Nat) (outermost : α → List ScopeId)
    (openings : α → List Opening) (checked : Checked α) : Prop :=
  checked.complaints = [] → scope < tree.size →
    Nests scope (outermost checked.value) (openings checked.value) tree checked.tree

/-- A statement that opens no scope, as it stands after the check. -/
theorem pureCheck_nests {before : Stmt} {result : Except Complaints Stmt}
    (bare : before.outermost = [] ∧ before.openings (some scope) = [])
    (bareAfter : ∀ after, result = .ok after →
      after.outermost = [] ∧ after.openings (some scope) = []) :
    Meets False (NestsIn tree scope Stmt.outermost (Stmt.openings (some scope)))
      (.ok (pureCheck tree before result)) := by
  have bareValue : (valueOr before result).outermost = [] ∧
      (valueOr before result).openings (some scope) = [] := by
    cases result with
    | ok after => exact bareAfter after rfl
    | error complaints => exact bare
  refine Meets.ok fun _ _ => ?_
  dsimp only [pureCheck]
  rw [bareValue.1, bareValue.2]
  exact .of_still .refl

mutual

theorem statement_nests {tree : ScopeTree} {scope : Nat} {enclosing : Enclosing} (before : Stmt) :
    Meets False (NestsIn tree scope Stmt.outermost (Stmt.openings (some scope)))
      (statement tree scope enclosing before) := by
  match before with
  | .assignment _ _ | .action _ _ | .returnValue _ _ =>
    refine pureCheck_nests ⟨rfl, rfl⟩ fun after checked => ?_
    obtain ⟨_, _, rfl⟩ := map_eq_ok checked
    exact ⟨rfl, rfl⟩
  | .declaration _ _ =>
    rw [statement]
    exact Meets.bind declaration_still fun _ still => Meets.pure fun _ _ => .of_still still
  | .block _ body =>
    rw [statement]
    exact Meets.bind (block_nests body) fun _ nests => Meets.pure nests
  | .conditional _ _ body none | .whileLoop _ _ body =>
    rw [statement]
    exact Meets.bind (block_nests body) fun _ nests =>
      Meets.pure fun clean => nests (List.append_eq_nil_iff.mp clean).2
  | .function span header body =>
    rw [statement]
    split
    · exact Meets.ok fun clean => absurd clean (List.cons_ne_nil _ _)
    · refine Meets.bind ScopeTree.openScope_children ?_
      rintro ⟨opened, inner⟩ ⟨rfl, size, children⟩
      dsimp only at size children ⊢
      refine Meets.bind parameters_still fun declared still => ?_
      refine Meets.bind (block_nests body) fun checked nests => Meets.pure fun clean inside => ?_
      have entered : tree.size < declared.1.size := by
        have same := still.size
        omega
      have nestsInside := nests (List.append_eq_nil_iff.mp clean).2 entered
      exact .enclose rfl inside size children (.trans (by omega) (.of_still still) nestsInside)
  | .conditional _ _ first (some second) =>
    rw [statement]
    refine Meets.bind (block_nests first) fun checked nests => ?_
    refine Meets.bind (block_nests second) fun other nestsOther => Meets.pure fun clean inside => ?_
    obtain ⟨cleanFirst, cleanSecond⟩ := List.append_eq_nil_iff.mp clean
    have opened := nests (List.append_eq_nil_iff.mp cleanFirst).2 inside
    exact opened.trans inside (nestsOther cleanSecond (Nat.lt_of_lt_of_le inside opened.grows))
  | .forLoop _ init _ _ (.mk _ _ body) =>
    rw [statement]
    refine Meets.bind ScopeTree.openScope_children ?_
    rintro ⟨opened, inner⟩ ⟨rfl, size, children⟩
    dsimp only at size children ⊢
    refine Meets.bind loopInit_still fun start still => ?_
    refine Meets.bind (statements_nests body) fun checked nests => Meets.pure fun clean inside => ?_
    have entered : tree.size < start.tree.size := by
      have same := still.size
      omega
    have nestsInside := nests (List.append_eq_nil_iff.mp clean).2 entered
    exact .enclose rfl inside size children (.trans (by omega) (.of_still still) nestsInside)

theorem block_nests {tree : ScopeTree} {scope : Nat} {enclosing : Enclosing} {kind : ScopeKind}
    (before : Block) :
    Meets False
      (NestsIn tree scope (fun body => body.scope.toList) (Block.openings (some scope) kind))
      (block tree scope enclosing kind before) := by
  match before with
  | .mk _ _ body =>
    rw [block]
    refine Meets.bind ScopeTree.openScope_children ?_
    rintro ⟨opened, inner⟩ ⟨rfl, size, children⟩
    dsimp only at size children ⊢
    refine Meets.bind (statements_nests body) fun checked nests => Meets.pure fun clean inside => ?_
    exact .enclose rfl inside size children (nests clean (by omega))

theorem statements_nests {tree : ScopeTree} {scope : Nat} {enclosing : Enclosing}
    (before : List Stmt) :
    Meets False (NestsIn tree scope outermostOf (openingsOf (some scope)))
      (statements tree scope enclosing before) := by
  match before with
  | [] => exact Meets.ok fun _ _ => .of_still .refl
  | first :: rest =>
    rw [statements]
    refine Meets.bind (statement_nests first) fun checked nests => ?_
    refine Meets.bind (statements_nests rest) fun others nestsOthers =>
      Meets.pure fun clean inside => ?_
    obtain ⟨cleanFirst, cleanRest⟩ := List.append_eq_nil_iff.mp clean
    have opened := nests cleanFirst inside
    exact opened.trans inside (nestsOthers cleanRest (Nat.lt_of_lt_of_le inside opened.grows))

end

theorem declareFunction_still {header : Header} :
    Meets False (fun result => Still tree result.1) (declareFunction tree header) := by
  unfold declareFunction
  dsimp only
  split
  · exact Meets.pure .refl
  · refine Meets.bind ScopeTree.declare_still fun result still => ?_
    cases result with
    | ok declared => exact Meets.pure (still declared rfl)
    | error conflict => exact Meets.pure .refl

theorem declareFunctions_still {statements : List Stmt} :
    Meets False (fun result => Still tree result.1) (declareFunctions tree statements) := by
  induction statements generalizing tree with
  | nil => exact Meets.ok .refl
  | cons first rest inductionHypothesis =>
    cases first with
    | function span header body =>
      refine Meets.bind declareFunction_still fun declared still => ?_
      refine Meets.bind inductionHypothesis fun others stillOthers => ?_
      exact Meets.pure (still.trans stillOthers)
    | _ => exact inductionHypothesis

end Typing

/-- The constructs of a whole program, which is a block of the global scope. -/
def allOpenings (statements : List Stmt) : List Opening :=
  (Block.mk {} (some ScopeTree.global) statements).openings none .global

theorem scopes_allOpenings (statements : List Stmt) :
    (allOpenings statements).filterMap Opening.scope = ScopeTree.global :: scopesOf statements :=
  Block.scopes_openings _ _ _

theorem linked_allOpenings (statements : List Stmt) :
    Linked (allOpenings statements) none [ScopeTree.global] := Block.linked _ _ _

theorem ScopeTree.Nested.children_global {statements : List Stmt}
    (nested : tree.Nested (allOpenings statements)) :
    tree.childrenOf global = outermostOf statements := (List.forall_mem_cons.mp nested).1 _ rfl

/-- The checker nests scopes as the program does. -/
theorem Typing.program_nests (before : Program) :
    Meets False
      (fun checked => checked.complaints = [] →
        checked.tree.Nested (allOpenings checked.value.statements))
      (program before) := by
  refine Meets.bind declareFunctions_still fun declared still => ?_
  refine Meets.bind (statements_nests before.statements) fun checked nestsIn =>
    Meets.pure fun clean => ?_
  have inside : ScopeTree.global < declared.1.size := by
    rw [still.size]
    exact Nat.zero_lt_one
  have nests := nestsIn (List.append_eq_nil_iff.mp clean).2 inside
  refine List.forall_mem_cons.mpr ⟨?_, nests.nested⟩
  rintro _ ⟨⟩
  rw [nests.here, still.children]
  rfl

/-! ### Scopes as they are detached -/

theorem ScopeTree.Opens.parentOf?_eq (opens : tree.Opens scope around kind name vars) :
    tree.parentOf? scope = some around := by
  obtain ⟨row, found, _, _, isParent, _⟩ := opens
  rw [parentOf?, found]
  exact isParent

/-- Of the children of a scope just those are left whose statements are not removed. -/
theorem ReturnPaths.Prunes.nested {after : ScopeTree} {removals : List Removal}
    {openings left : List Opening} {outermost outermostLeft : List ScopeId}
    {outside : Option ScopeId}
    (prunes : Prunes removals tree after) (distinct : (scopesAmong removals).Nodup)
    (parents : ∀ opening ∈ openings, ∀ id ∈ opening.scope, ∀ parent ∈ opening.parent,
      tree.parentOf? id = some parent)
    (nested : tree.Nested openings) (linked : Linked openings outside outermost)
    (leftOf : ∀ opening ∈ left, opening.LeftOf openings removals)
    (linkedLeft : Linked left outside outermostLeft) : after.Nested left := by
  have apart := (List.nodup_append.mp distinct).2.2
  intro opening member scope isScope
  obtain ⟨before, isBefore, removal, isRemoval, isAround, trimmed⟩ := leftOf opening member
  have scopeBefore : before.scope = some scope := trimmed.scope.symm.trans isScope
  have stays : ∀ id ∈ opening.children,
      id ∉ removals.flatMap fun removal => outermostOf removal.gone := by
    intro id isChild isGone
    obtain ⟨inner, isInner, isId, _⟩ := linkedLeft.inner opening member id isChild
    obtain ⟨_, _, taken, isTaken, aroundTaken, trimmedInner⟩ := leftOf inner isInner
    have isLeft : id ∈ removals.filterMap Removal.around := List.mem_filterMap.mpr
      ⟨taken, isTaken, aroundTaken.trans (trimmedInner.scope.symm.trans isId)⟩
    obtain ⟨other, isOther, inside⟩ := List.mem_flatMap.mp isGone
    exact apart id isLeft id
      (List.mem_flatMap.mpr ⟨other, isOther, outermostOf_subset _ inside⟩) rfl
  have goes : ∀ id ∈ outermostOf removal.gone,
      (id ∈ removals.flatMap fun removal => outermostOf removal.gone) ∧
        tree.parentOf? id = some scope := by
    intro id isGone
    refine ⟨List.mem_flatMap.mpr ⟨removal, isRemoval, isGone⟩, ?_⟩
    obtain ⟨inner, isInner, isId, isParent⟩ := linked.inner before isBefore id
      (trimmed.children ▸ List.mem_append_right _ isGone)
    exact parents inner isInner id isId scope (isParent.trans scopeBefore)
  rw [prunes.children, nested before isBefore scope scopeBefore, trimmed.children,
    List.filter_append, List.filter_eq_self.mpr, List.filter_eq_nil_iff.mpr, List.append_nil]
  · exact fun id isGone kept => of_decide_eq_true kept (goes id isGone)
  · exact fun id isChild => decide_eq_true fun both => stays id isChild both.1

/-! ### Whole programs -/

theorem ScopeTree.Opens.isFunction_eq (opens : tree.Opens scope around kind name vars) :
    tree.isFunction scope = (kind == .function) := by
  obtain ⟨row, found, isKind, _⟩ := opens
  rw [ScopeTree.isFunction_eq found, isKind]

/-- Just the functions open function scopes. -/
theorem Stmt.LaidOut.isFunction_eq {statement : Stmt} (laidOut : statement.LaidOut tree around) :
    ∀ id ∈ statement.outermost, tree.isFunction id = statement.isFunction := by
  intro id member
  obtain ⟨opening, isOpening, isScope, _, isFunction⟩ := exists_opening member (some around)
  obtain ⟨_, _, same, _, opens⟩ := laidOut_iff.mp laidOut opening isOpening
  cases same.symm.trans isScope
  rw [opens.isFunction_eq, isFunction]

/-- Selecting scopes by their statements selects the scopes of selected statements. -/
theorem filter_outermostOf {statements : List Stmt} {selected : Stmt → Bool}
    {chosen : ScopeId → Bool}
    (same : ∀ statement ∈ statements, ∀ id ∈ statement.outermost, chosen id = selected statement) :
    (outermostOf statements).filter chosen = outermostOf (statements.filter selected) := by
  induction statements with
  | nil => rfl
  | cons first rest inductionHypothesis =>
    obtain ⟨sameFirst, sameRest⟩ := List.forall_mem_cons.mp same
    rw [outermostOf_cons, List.filter_append, inductionHypothesis sameRest]
    by_cases isSelected : selected first = true
    · rw [List.filter_cons_of_pos isSelected, outermostOf_cons, List.filter_eq_self.mpr]
      exact fun id member => (sameFirst id member).trans isSelected
    · rw [List.filter_cons_of_neg isSelected, List.filter_eq_nil_iff.mpr, List.nil_append]
      exact fun id member => (sameFirst id member) ▸ isSelected

theorem allLaidOut.parentOf?_eq {statements : List Stmt}
    (laidOut : allLaidOut tree ScopeTree.global statements) :
    ∀ opening ∈ allOpenings statements, ∀ id ∈ opening.scope, ∀ parent ∈ opening.parent,
      tree.parentOf? id = some parent := by
  refine List.forall_mem_cons.mpr ⟨fun _ _ _ isParent => (by cases isParent), ?_⟩
  intro opening member id isScope parent isParent
  obtain ⟨_, _, same, sameParent, opens⟩ := allLaidOut_iff_provides.mp laidOut opening member
  cases same.symm.trans isScope
  cases sameParent.symm.trans isParent
  exact opens.parentOf?_eq

namespace Analysis

/-- Moving functions to the front of a program and of its tree. -/
theorem hoist_nests {after : ScopeTree} {statements : List Stmt}
    (consistent : Consistent tree statements) (nested : tree.Nested (allOpenings statements))
    (moved : after.childrenOf = Function.update tree.childrenOf ScopeTree.global
      ((tree.childrenOf ScopeTree.global).filter tree.isFunction ++
        (tree.childrenOf ScopeTree.global).filter fun id => !tree.isFunction id)) :
    after.Nested (allOpenings (hoist statements)) := by
  have isFunction (statement : Stmt) (member : statement ∈ statements) :=
    (consistent.laidOut.of_mem member).isFunction_eq
  have nestedInside := (List.forall_mem_cons.mp nested).2
  refine List.forall_mem_cons.mpr ⟨?_, fun opening member id isScope => ?_⟩
  · rintro _ ⟨⟩
    rw [moved, Function.update_self, nested.children_global, filter_outermostOf isFunction,
      hoist_eq, filter_outermostOf fun statement member id isOutermost =>
        congrArg (!·) (isFunction statement member id isOutermost)]
    exact List.flatMap_append.symm
  · rw [openingsOf_eq_flatMap, ((hoist_perm statements).flatMap_right _).mem_iff,
      ← openingsOf_eq_flatMap] at member
    have isInner : id ∈ scopesOf statements := by
      rw [← scopes_openingsOf statements (some ScopeTree.global)]
      exact List.mem_filterMap.mpr ⟨opening, member, isScope⟩
    rw [moved, Function.update_of_ne (consistent.inner id isInner)]
    exact nestedInside opening member id isScope

/-- The tree of an accepted program is nested as the program is. -/
theorem nested_of_accepted {program : Program} {analysis : Analysis}
    (accepted : analyze program = .ok (.ok analysis)) :
    analysis.tree.Nested (allOpenings analysis.program.statements) := by
  obtain ⟨checked, pruned, isChecked, clean, isPruned, hoisted, left⟩ := exists_of_accepted accepted
  have consistent := ((Typing.program_meets program).good_of_ok isChecked).2.2 clean
  have nested := (Typing.program_nests program).good_of_ok isChecked clean
  have pruning : Meets False _ (ReturnPaths.program checked.tree checked.value) :=
    ReturnPaths.program_meets consistent.sound _ consistent.held
  obtain ⟨value, prunes, stillConsistent⟩ := pruning.good_of_ok isPruned
  have nestedLeft : pruned.tree.Nested (allOpenings (prunedAll checked.value.statements)) :=
    prunes.nested consistent.distinct_removals consistent.laidOut.parentOf?_eq nested
      (linked_allOpenings _)
      (Block.openings_pruned none .global (.mk {} (some ScopeTree.global) _))
      (linked_allOpenings _)
  rw [left, value]
  exact hoist_nests (stillConsistent consistent).1 nestedLeft
    (ScopeTree.hoistFunctions_children.good_of_ok hoisted)

end Analysis

/-- Just the scopes that the program bears survive in a tree that is nested as it is. -/
theorem Consistent.survives_iff {statements : List Stmt} (consistent : Consistent tree statements)
    (nested : tree.Nested (allOpenings statements)) :
    tree.Survives scope ↔ scope ∈ ScopeTree.global :: scopesOf statements := by
  have linked := linked_allOpenings statements
  rw [← scopes_allOpenings]
  constructor
  · intro survives
    refine survives.mem (scopes_allOpenings statements ▸ List.mem_cons_self) ?_
    intro id member child isChild
    obtain ⟨outer, isOuter, isScope⟩ := List.mem_filterMap.mp member
    rw [nested outer isOuter id isScope] at isChild
    obtain ⟨inner, isInner, isId, _⟩ := linked.inner outer isOuter child isChild
    exact List.mem_filterMap.mpr ⟨inner, isInner, isId⟩
  · -- a scope is opened in one with a smaller number, and that one survives
    induction scope using Nat.strong_induction_on with
    | _ scope inductionHypothesis =>
    intro member
    obtain ⟨opening, isOpening, isScope⟩ := List.mem_filterMap.mp member
    rcases linked.outer opening isOpening with ⟨_, atTop⟩ | ⟨outer, isOuter, isParent, below⟩
    · cases List.mem_singleton.mp (atTop (Option.mem_toList.mpr isScope))
      exact .root
    · rcases List.mem_cons.mp isOpening with rfl | isInner
      · cases isScope
        exact .root
      obtain ⟨_, parent, same, sameParent, row, found, _, _, child, _⟩ :=
        allLaidOut_iff_provides.mp consistent.laidOut opening isInner
      cases same.symm.trans isScope
      have outerScope : outer.scope = some parent := isParent.symm.trans sameParent
      have smaller := consistent.sound.rooted.parent_lt found child
      have survives := inductionHypothesis parent smaller
        (List.mem_filterMap.mpr ⟨outer, isOuter, outerScope⟩)
      refine survives.of_mem_childrenOf ?_
      rw [nested outer isOuter parent outerScope]
      exact below (Option.mem_toList.mpr isScope)

end PadLang
