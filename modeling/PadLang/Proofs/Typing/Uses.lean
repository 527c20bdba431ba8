/-
This file lists what the checker finds for each use of a variable.

The list follows the checker: each name is looked up in the tree that the checker has when it
comes to that name, and statements behind one that always returns are left out, since they do
not survive. A tree that shows a context finds what the context has, so simple statements use
what the context gives.
-/

import PadLang.Proofs.Uses
import PadLang.Proofs.Views

namespace PadLang

namespace Typing

/-! ### The uses that are checked -/

/-- The variable that a name stands for in a scope. -/
def denoted (tree : ScopeTree) (scope : ScopeId) (name : String) : Option Denoted :=
  (tree.declaring? scope name).map fun found => { scope := found.1, type := found.2.type }

mutual

/-- The uses in a statement as it is checked. -/
def statementUses (tree : ScopeTree) (scope : ScopeId) (enclosing : Enclosing) :
    Stmt → Except Fault (List Use)
  | .assignment _ made => .ok (usesAt .ordinary (denoted tree scope) made.names)
  | .declaration _ made => .ok (usesAt .ordinary (denoted tree scope) made.value.names)
  | .action _ done => .ok (usesAt .ordinary (denoted tree scope) done.names)
  | .returnValue _ value => .ok (usesAt .ordinary (denoted tree scope) value.names)
  | .block _ body => blockUses tree scope enclosing .block body
  | .function _ header body => do
    let (opened, inner) ← tree.openScope scope .function (some header.name.value)
    let (declared, _) ← parameters inner opened header.parameters
    blockUses declared opened (some (header.name.value, header.returns.value)) .block body
  | .conditional _ condition consequent none => do
    let first ← blockUses tree scope enclosing .consequent consequent
    return usesAt .ordinary (denoted tree scope) condition.names ++ first
  | .conditional _ condition consequent (some alternative) => do
    let first ← blockUses tree scope enclosing .consequent consequent
    let checked ← block tree scope enclosing .consequent consequent
    let second ← blockUses checked.tree scope enclosing .alternative alternative
    return usesAt .ordinary (denoted tree scope) condition.names ++ first ++ second
  | .forLoop _ init condition update (.mk _ _ body) => do
    let (opened, inner) ← tree.openScope scope .forLoop none
    let start ← loopInit inner opened init
    let rest ← statementsUses start.tree opened enclosing body
    return usesAt .ordinary (denoted inner opened) (initNames init) ++
      usesAt .ordinary (denoted start.tree opened) condition.names ++
      usesAt (.update (declaredNames (prunedAll body))) (denoted start.tree opened)
        (updateNames update) ++
      rest
  | .whileLoop _ condition body => do
    let rest ← blockUses tree scope enclosing .whileLoop body
    return usesAt .ordinary (denoted tree scope) condition.names ++ rest

/-- The uses in a block as it is checked. -/
def blockUses (tree : ScopeTree) (scope : ScopeId) (enclosing : Enclosing) (kind : ScopeKind) :
    Block → Except Fault (List Use)
  | .mk _ _ body => do
    let (opened, inner) ← tree.openScope scope kind none
    statementsUses inner opened enclosing body

/-- The uses in statements as they are checked, up to the first that always returns. -/
def statementsUses (tree : ScopeTree) (scope : ScopeId) (enclosing : Enclosing) :
    List Stmt → Except Fault (List Use)
  | [] => .ok []
  | first :: rest => do
    let here ← statementUses tree scope enclosing first
    if first.alwaysReturns then return here
    let checked ← statement tree scope enclosing first
    let others ← statementsUses checked.tree scope enclosing rest
    return here ++ others

end

variable {tree : ScopeTree} {scope : ScopeId} {context : Context}

theorem denoted_eq (tidy : tree.Tidy) (shows : tree.Shows scope context) :
    denoted tree scope = (context.find? ·) := by
  funext name
  rw [denoted, shows.declaring?_eq tidy, Option.map_map]
  exact Option.map_id'

theorem statementUses_of_simple {enclosing : Enclosing} {before after : Stmt} {names : List String}
    (tidy : tree.Tidy) (shows : tree.Shows scope context)
    (simple : before.simpleNames? = some names) (erased : after.erase = before.erase) :
    statementUses tree scope enclosing before = .ok (after.pruned.uses false context) := by
  rw [Stmt.uses_of_simple simple erased, ← denoted_eq tidy shows]
  fun_cases Stmt.simpleNames? before
  case case5 => simp_all [Stmt.simpleNames?]
  all_goals
    cases simple
    rw [statementUses]

end Typing

end PadLang
