/-
This file lists what the code generator finds for each use of a variable.

The list follows the generator: each name is resolved in the tree that the generator has when it
comes to that name, and the level of the place leads to the scope that declares the variable.
-/

import PadLang.Code.Stmt
import PadLang.Proofs.Uses

namespace PadLang

namespace Code

/-- The variable that a name is resolved to in a scope. -/
def denoted (tree : ScopeTree) (scope : ScopeId) (name : String) : Option Denoted := do
  let place ← tree.resolve? scope name
  let declaring ← (tree.visible scope)[place.slot.level]?
  return { scope := declaring, type := place.type }

mutual

/-- The uses in a statement as its code is generated. -/
def statementUses (tree : ScopeTree) (scope : ScopeId) : Stmt → Except Fault (List Use)
  | .assignment _ made => .ok (usesAt .ordinary (denoted tree scope) made.names)
  | .declaration _ made => .ok (usesAt .ordinary (denoted tree scope) made.value.names)
  | .action _ done => .ok (usesAt .ordinary (denoted tree scope) done.names)
  | .returnValue _ value => .ok (usesAt .ordinary (denoted tree scope) value.names)
  | .block _ body => blockUses tree body
  | .function _ header body => do
    let opened ← scopeOf header.scope
    let allocated ← allocateAll tree opened header.parameters
    blockUses allocated body
  | .conditional _ condition consequent none => do
    let first ← blockUses tree consequent
    return usesAt .ordinary (denoted tree scope) condition.names ++ first
  | .conditional _ condition consequent (some alternative) => do
    let first ← blockUses tree consequent
    let emitted ← block tree consequent
    let second ← blockUses emitted.tree alternative
    return usesAt .ordinary (denoted tree scope) condition.names ++ first ++ second
  | .whileLoop _ condition body => do
    let rest ← blockUses tree body
    return usesAt .ordinary (denoted tree scope) condition.names ++ rest
  | .forLoop _ init condition update (.mk _ opened body) => do
    let inner ← scopeOf opened
    let start ← loopInit tree inner init
    let rest ← statementsUses start.tree inner body
    let emitted ← statements start.tree inner body
    return usesAt .ordinary (denoted tree inner) (initNames init) ++
      usesAt .ordinary (denoted start.tree inner) condition.names ++
      usesAt (.update (declaredNames body)) (denoted emitted.tree inner) (updateNames update) ++
      rest

/-- The uses in a block as its code is generated. -/
def blockUses (tree : ScopeTree) : Block → Except Fault (List Use)
  | .mk _ opened body => do
    let inner ← scopeOf opened
    statementsUses tree inner body

/-- The uses in statements as their code is generated. -/
def statementsUses (tree : ScopeTree) (scope : ScopeId) : List Stmt → Except Fault (List Use)
  | [] => .ok []
  | first :: rest => do
    let here ← statementUses tree scope first
    let emitted ← statement tree scope first
    let others ← statementsUses emitted.tree scope rest
    return here ++ others

end

end Code

end PadLang
