/-
This file puts the analysis of a program together: types and scopes first, then the paths
on which functions return. A program without complaints has its functions moved in front of
its other statements, in the program as in the tree of scopes, each group in its own order.
-/

import PadLang.Typing.Stmt
import PadLang.ReturnPaths

namespace PadLang

/-- An accepted program: typed, pruned and with its functions first, and its scopes. -/
structure Analysis where
  program : Program
  tree : ScopeTree
  warnings : List (Located Unreachable)

/-- What there is to report about a program that is not accepted. -/
structure Rejection where
  complaints : List (Located Complaint)
  warnings : List (Located Unreachable)

namespace Analysis

/-- Moves the functions in front of the other statements. -/
def hoist (statements : List Stmt) : List Stmt :=
  let (functions, others) := statements.partition Stmt.isFunction
  functions ++ others

/-- Analyses a program. -/
def analyze (program : Program) : Except Fault (Except Rejection Analysis) := do
  let checked ← Typing.program program
  let pruned ← ReturnPaths.program checked.tree checked.value
  match checked.complaints ++ pruned.complaints with
  | [] =>
    let tree ← pruned.tree.hoistFunctions ScopeTree.global
    return .ok {
      program := ⟨hoist pruned.value.statements⟩
      tree
      warnings := pruned.warnings }
  | complaints => return .error { complaints, warnings := pruned.warnings }

end Analysis

end PadLang
