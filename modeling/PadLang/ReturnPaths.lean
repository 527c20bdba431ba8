/-
This file follows the paths on which a function returns.

A statement always returns if it is a return, a block whose statements always return, or a
conditional both of whose branches do. A loop never counts, since its body may not run at
all. What follows the first statement that always returns can never run: it is removed, one
warning covers all of it, its scopes are detached and its declarations are taken back, so
that code generation neither visits it nor keeps room for it.

A function whose body does not always return is complained about.
-/

import PadLang.Typing.Expr

namespace PadLang

namespace ReturnPaths

open Typing (Complaints)

/-- A pruned piece of a program: whether it always returns, the scopes without what was
removed, and what there is to report. -/
structure Pruned (α : Type) where
  value : α
  returns : Bool
  tree : ScopeTree
  complaints : Complaints
  warnings : List (Located Unreachable)

/-- A piece of a program in which there is nothing to prune. -/
def unchanged {α : Type} (tree : ScopeTree) (returns : Bool) (value : α) : Pruned α :=
  { value, returns, tree, complaints := [], warnings := [] }

/-! ### Removing statements -/

/-- Detaches a scope, if there is one. -/
def detachScope (tree : ScopeTree) : Option ScopeId → Except Fault ScopeTree
  | none => .ok tree
  | some scope => tree.detach scope

/-- Takes a removed statement out of the scopes. Its declarations were made in the scope
around it. -/
def remove (tree : ScopeTree) (around : Option ScopeId) : Stmt → Except Fault ScopeTree
  | .declaration _ made =>
    match around with
    | none => .ok tree
    | some scope => tree.undeclare scope made.name.value
  | .block _ body => detachScope tree body.scope
  | .conditional _ _ consequent none => detachScope tree consequent.scope
  | .conditional _ _ consequent (some alternative) => do
    detachScope (← detachScope tree consequent.scope) alternative.scope
  | .forLoop _ _ _ _ body => detachScope tree body.scope
  | .whileLoop _ _ body => detachScope tree body.scope
  | .function _ header _ => detachScope tree header.scope
  | .assignment _ _ | .action _ _ | .returnValue _ _ => .ok tree

/-- Takes removed statements out of the scopes, in order. -/
def removeAll (tree : ScopeTree) (around : Option ScopeId) :
    List Stmt → Except Fault ScopeTree
  | [] => .ok tree
  | stmt :: rest => do removeAll (← remove tree around stmt) around rest

/-- The warning about removed statements, at the first of them. -/
def warning (first : Stmt) (rest : List Stmt) : Located Unreachable :=
  let last := (first :: rest).getLastD first
  { position := first.span.first
    value := { firstLine := first.span.first.line, lastLine := last.span.last.line } }

/-- Removes the statements after one that always returns. -/
def cut (tree : ScopeTree) (around : Option ScopeId) :
    List Stmt → Except Fault (ScopeTree × List (Located Unreachable))
  | [] => .ok (tree, [])
  | first :: rest => do
    let pruned ← removeAll tree around (first :: rest)
    return (pruned, [warning first rest])

/-! ### Following the paths -/

mutual

/-- Prunes a statement. -/
def statement (tree : ScopeTree) : Stmt → Except Fault (Pruned Stmt)
  | .returnValue span value => .ok (unchanged tree true (.returnValue span value))
  | .block span body => do
    let pruned ← block tree body
    return { pruned with value := .block span pruned.value }
  | .conditional span condition consequent none => do
    let first ← block tree consequent
    return {
      first with value := .conditional span condition first.value none, returns := false }
  | .conditional span condition consequent (some alternative) => do
    let first ← block tree consequent
    let second ← block first.tree alternative
    return {
      value := .conditional span condition first.value (some second.value)
      returns := first.returns && second.returns
      tree := second.tree
      complaints := first.complaints ++ second.complaints
      warnings := first.warnings ++ second.warnings }
  | .forLoop span init condition update body => do
    let pruned ← block tree body
    return {
      pruned with value := .forLoop span init condition update pruned.value, returns := false }
  | .whileLoop span condition body => do
    let pruned ← block tree body
    return { pruned with value := .whileLoop span condition pruned.value, returns := false }
  | .function span header body => do
    let pruned ← block tree body
    let missing : Complaints :=
      if pruned.returns then []
      else [{ position := header.name.position, value := .missingReturn header.name.value }]
    return {
      pruned with
      value := .function span header pruned.value
      returns := false
      complaints := pruned.complaints ++ missing }
  | .assignment span made => .ok (unchanged tree false (.assignment span made))
  | .declaration span made => .ok (unchanged tree false (.declaration span made))
  | .action span done => .ok (unchanged tree false (.action span done))

/-- Prunes the statements of a block. -/
def block (tree : ScopeTree) : Block → Except Fault (Pruned Block)
  | .mk position scope body => do
    let pruned ← sequence tree scope body
    return { pruned with value := .mk position scope pruned.value }

/-- Prunes a sequence of statements that stand directly in a scope. -/
def sequence (tree : ScopeTree) (around : Option ScopeId) :
    List Stmt → Except Fault (Pruned (List Stmt))
  | [] => .ok (unchanged tree false [])
  | first :: rest => do
    let pruned ← statement tree first
    if pruned.returns then
      let (shortened, warnings) ← cut pruned.tree around rest
      return {
        pruned with
        value := [pruned.value]
        tree := shortened
        warnings := pruned.warnings ++ warnings }
    else
      let others ← sequence pruned.tree around rest
      return {
        value := pruned.value :: others.value
        returns := others.returns
        tree := others.tree
        complaints := pruned.complaints ++ others.complaints
        warnings := pruned.warnings ++ others.warnings }

end

/-- Prunes a program. -/
def program (tree : ScopeTree) (program : Program) : Except Fault (Pruned Program) := do
  let pruned ← sequence tree (some ScopeTree.global) program.statements
  return { pruned with value := ⟨pruned.value⟩ }

end ReturnPaths

end PadLang
