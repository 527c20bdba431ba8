/-
This file shows what pruning does to programs.

Pruning cuts every sequence of statements after the first statement that always returns. What
is left is described without the tree of scopes. Each sequence is what is left of it and what it
drops, so whatever is gathered from its statements falls into two parts too.
-/

import PadLang.Proofs.Layout

namespace PadLang

/-! ### Pruned statements -/

mutual

/-- Whether a statement always returns. -/
def Stmt.alwaysReturns : Stmt → Bool
  | .returnValue _ _ => true
  | .block _ body => body.alwaysReturns
  | .conditional _ _ first (some second) => first.alwaysReturns && second.alwaysReturns
  | .conditional _ _ _ none => false
  | .assignment _ _ | .declaration _ _ | .action _ _ | .function _ _ _ | .forLoop _ _ _ _ _
  | .whileLoop _ _ _ => false

/-- Whether a block always returns. -/
def Block.alwaysReturns : Block → Bool
  | .mk _ _ body => anyReturns body

/-- Whether one of the statements always returns. -/
def anyReturns : List Stmt → Bool
  | [] => false
  | first :: rest => first.alwaysReturns || anyReturns rest

end

mutual

/-- A statement without what can never run. -/
def Stmt.pruned : Stmt → Stmt
  | .assignment span made => .assignment span made
  | .declaration span made => .declaration span made
  | .action span done => .action span done
  | .returnValue span value => .returnValue span value
  | .block span body => .block span body.pruned
  | .function span header body => .function span header body.pruned
  | .conditional span condition first none => .conditional span condition first.pruned none
  | .conditional span condition first (some second) =>
    .conditional span condition first.pruned (some second.pruned)
  | .forLoop span init condition update body => .forLoop span init condition update body.pruned
  | .whileLoop span condition body => .whileLoop span condition body.pruned

/-- A block without what can never run. -/
def Block.pruned : Block → Block
  | .mk position scope body => .mk position scope (prunedAll body)

/-- Statements up to the first that always returns. -/
def prunedAll : List Stmt → List Stmt
  | [] => []
  | first :: rest =>
    if first.alwaysReturns then [first.pruned] else first.pruned :: prunedAll rest

end

@[simp] theorem Stmt.declares_pruned (statement : Stmt) :
    statement.pruned.declares = statement.declares := by
  fun_cases Stmt.pruned statement <;> rfl

@[simp] theorem Block.scope_pruned (block : Block) : block.pruned.scope = block.scope := by
  cases block
  rfl

@[simp] theorem Stmt.outermost_pruned (statement : Stmt) :
    statement.pruned.outermost = statement.outermost := by
  fun_cases Stmt.pruned statement <;> simp [Stmt.outermost]

/-- The statements behind the first that always returns. -/
def droppedBy : List Stmt → List Stmt
  | [] => []
  | first :: rest => if first.alwaysReturns then rest else droppedBy rest

/-- What is gathered from statements and not changed by pruning them comes from those that are left
and from those that are dropped. -/
theorem flatMap_prunedAll {α : Type} {view : Stmt → List α}
    (same : ∀ statement : Stmt, view statement.pruned = view statement) (statements : List Stmt) :
    statements.flatMap view =
      (prunedAll statements).flatMap view ++ (droppedBy statements).flatMap view := by
  induction statements with
  | nil => rfl
  | cons first rest inductionHypothesis =>
    rw [prunedAll, droppedBy]
    split
    · rw [List.flatMap_cons, List.flatMap_cons, same, List.flatMap_nil, List.append_nil]
    · rw [List.flatMap_cons, List.flatMap_cons, same, inductionHypothesis, List.append_assoc]

theorem declaredBy_prunedAll (statements : List Stmt) :
    declaredBy statements =
      declaredBy (prunedAll statements) ++ declaredBy (droppedBy statements) :=
  flatMap_prunedAll Stmt.declares_pruned statements

theorem outermostOf_prunedAll (statements : List Stmt) :
    outermostOf statements =
      outermostOf (prunedAll statements) ++ outermostOf (droppedBy statements) :=
  flatMap_prunedAll Stmt.outermost_pruned statements

theorem droppedBy_eq_nil {statements : List Stmt} (goesOn : anyReturns statements = false) :
    droppedBy statements = [] := by
  induction statements with
  | nil => rfl
  | cons first rest inductionHypothesis =>
    rw [anyReturns, Bool.or_eq_false_iff] at goesOn
    rw [droppedBy, goesOn.1, if_neg Bool.false_ne_true, inductionHypothesis goesOn.2]

mutual

theorem Stmt.scopes_pruned (statement : Stmt) :
    statement.pruned.scopes.Sublist statement.scopes := by
  match statement with
  | .assignment _ _ | .declaration _ _ | .action _ _ | .returnValue _ _ => exact List.Sublist.refl _
  | .block _ body | .conditional _ _ body none | .forLoop _ _ _ _ body | .whileLoop _ _ body =>
    exact body.scopes_pruned
  | .function _ header body => exact body.scopes_pruned.append_left _
  | .conditional _ _ first (some second) => exact first.scopes_pruned.append second.scopes_pruned

theorem Block.scopes_pruned (block : Block) : block.pruned.scopes.Sublist block.scopes := by
  match block with
  | .mk _ scope body => exact (scopesOf_prunedAll body).append_left _

theorem scopesOf_prunedAll (statements : List Stmt) :
    (scopesOf (prunedAll statements)).Sublist (scopesOf statements) := by
  match statements with
  | [] => exact List.Sublist.refl _
  | first :: rest =>
    rw [prunedAll]
    split
    · rw [scopesOf, scopesOf, scopesOf]
      exact first.scopes_pruned.append (List.nil_sublist _)
    · exact first.scopes_pruned.append (scopesOf_prunedAll rest)

end

mutual

theorem Stmt.Scoped.pruned {functions : Functions} {returns : Option Ty} {context : Context}
    {statement : Stmt} (inScope : statement.Scoped functions returns context) :
    statement.pruned.Scoped functions returns context := by
  match statement with
  | .assignment _ _ | .declaration _ _ | .action _ _ | .returnValue _ _ => exact inScope
  | .block _ body => exact Block.Scoped.pruned inScope
  | .function _ header body =>
    obtain ⟨opened, isOpened, inside⟩ := inScope
    exact ⟨opened, isOpened, inside.pruned⟩
  | .conditional _ _ body none | .whileLoop _ _ body => exact ⟨inScope.1, inScope.2.pruned⟩
  | .conditional _ _ first (some second) =>
    exact ⟨inScope.1, inScope.2.1.pruned, inScope.2.2.pruned⟩
  | .forLoop _ _ _ _ (.mk _ scope body) =>
    obtain ⟨opened, isOpened, init, condition, update, inside⟩ := inScope
    exact ⟨opened, isOpened, init, condition, update, allScoped.pruned inside⟩

theorem Block.Scoped.pruned {functions : Functions} {returns : Option Ty} {context : Context}
    {block : Block} (inScope : block.Scoped functions returns context) :
    block.pruned.Scoped functions returns context := by
  match block with
  | .mk _ scope body =>
    obtain ⟨opened, isOpened, inside⟩ := inScope
    exact ⟨opened, isOpened, allScoped.pruned inside⟩

theorem allScoped.pruned {functions : Functions} {returns : Option Ty} {context : Context}
    {statements : List Stmt} (inScope : allScoped functions returns context statements) :
    allScoped functions returns context (prunedAll statements) := by
  match statements with
  | [] => trivial
  | first :: rest =>
    rw [prunedAll]
    split
    · exact ⟨inScope.1.pruned, trivial⟩
    · refine ⟨inScope.1.pruned, ?_⟩
      rw [Stmt.declares_pruned]
      exact allScoped.pruned inScope.2

end

mutual

/-- Outside functions nothing returns. -/
theorem Stmt.Scoped.alwaysReturns_eq_false {functions : Functions} {context : Context}
    {statement : Stmt} (inScope : statement.Scoped functions none context) :
    statement.alwaysReturns = false := by
  match statement with
  | .returnValue _ _ =>
    obtain ⟨_, isNone, _⟩ := inScope
    cases isNone
  | .block _ body => exact Block.Scoped.alwaysReturns_eq_false inScope
  | .conditional _ _ first (some second) =>
    rw [Stmt.alwaysReturns, inScope.2.1.alwaysReturns_eq_false, Bool.false_and]
  | .conditional _ _ _ none | .assignment _ _ | .declaration _ _ | .action _ _
  | .function _ _ _ | .forLoop _ _ _ _ _ | .whileLoop _ _ _ => rfl

theorem Block.Scoped.alwaysReturns_eq_false {functions : Functions} {context : Context}
    {block : Block} (inScope : block.Scoped functions none context) :
    block.alwaysReturns = false := by
  match block with
  | .mk _ scope body =>
    obtain ⟨opened, isOpened, inside⟩ := inScope
    exact inside.anyReturns_eq_false

theorem allScoped.anyReturns_eq_false {functions : Functions} {context : Context}
    {statements : List Stmt} (inScope : allScoped functions none context statements) :
    anyReturns statements = false := by
  match statements with
  | [] => rfl
  | first :: rest =>
    rw [anyReturns, inScope.1.alwaysReturns_eq_false, allScoped.anyReturns_eq_false inScope.2,
      Bool.false_or]

end

end PadLang
