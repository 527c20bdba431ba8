/-
This file says what the pass over the return paths finds.

A sequence of statements has a dead tail if some statement in front of it always returns. A
function lacks a return if its body does not always return. The pass removes the dead tail of every
sequence it comes to and warns about each of them once, and it complains about each function that
lacks a return and is not removed. In what it leaves it finds nothing more to remove. All of this
is known beforehand; only the removals need the tree of scopes, and whether the pass has a result
depends on nothing else.
-/

import PadLang.Proofs.Outcome
import PadLang.Proofs.Pruning
import PadLang.Proofs.Spots
import PadLang.ReturnPaths

namespace PadLang

/-! ### Dead tails -/

/-- The statements behind one that always returns, if there are any: the first of them and the
others. -/
def tailOf : List Stmt → List (Stmt × List Stmt)
  | [] => []
  | first :: rest => [(first, rest)]

mutual

/-- The dead tails in a statement that is not dead itself, in order. -/
def Stmt.deadTails : Stmt → List (Stmt × List Stmt)
  | .assignment _ _ | .declaration _ _ | .action _ _ | .returnValue _ _ => []
  | .block _ body => body.deadTails
  | .function _ _ body => body.deadTails
  | .conditional _ _ first none => first.deadTails
  | .conditional _ _ first (some second) => first.deadTails ++ second.deadTails
  | .forLoop _ _ _ _ body => body.deadTails
  | .whileLoop _ _ body => body.deadTails

/-- The dead tails in a block, in order. -/
def Block.deadTails : Block → List (Stmt × List Stmt)
  | .mk _ _ body => deadTailsOf body

/-- The dead tails in a sequence of statements, its own last. -/
def deadTailsOf : List Stmt → List (Stmt × List Stmt)
  | [] => []
  | first :: rest =>
    if first.alwaysReturns then first.deadTails ++ tailOf rest
    else first.deadTails ++ deadTailsOf rest

end

/-! ### Functions without a return -/

/-- The complaint about a function whose body can be completed normally. -/
def Header.missingReturn (header : Header) : Located Complaint :=
  { position := header.name.position, value := .missingReturn header.name.value }

mutual

/-- The functions in a statement that lack a return, each after those in its body, with their
spots in a sequence that begins with the statement. -/
def Stmt.missing : Stmt → List (Spot × Header)
  | .assignment _ _ | .declaration _ _ | .action _ _ | .returnValue _ _ => []
  | .function _ header body =>
    body.missing.map (Prod.map (.within 0 false) id) ++
      if body.alwaysReturns then [] else [(.here 0, header)]
  | .conditional _ _ first (some second) =>
    first.missing.map (Prod.map (.within 0 false) id) ++
      second.missing.map (Prod.map (.within 0 true) id)
  | .block _ body | .conditional _ _ body none | .forLoop _ _ _ _ body | .whileLoop _ _ body =>
    body.missing.map (Prod.map (.within 0 false) id)

/-- The functions in a block that lack a return. -/
def Block.missing : Block → List (Spot × Header)
  | .mk _ _ body => missingOf body

/-- The functions in a sequence of statements that lack a return. -/
def missingOf : List Stmt → List (Spot × Header)
  | [] => []
  | first :: rest =>
    if first.alwaysReturns then first.missing
    else first.missing ++ (missingOf rest).map (Prod.map Spot.next id)

end

/-- The complaints about functions that lack a return. -/
def complaintsAbout (entries : List (Spot × Header)) : Typing.Complaints :=
  entries.map fun entry => entry.2.missingReturn

@[simp] theorem complaintsAbout_map (entries : List (Spot × Header)) (shift : Spot → Spot) :
    complaintsAbout (entries.map (Prod.map shift id)) = complaintsAbout entries := by
  rw [complaintsAbout, List.map_map]
  rfl

@[simp] theorem complaintsAbout_append (entries others : List (Spot × Header)) :
    complaintsAbout (entries ++ others) = complaintsAbout entries ++ complaintsAbout others :=
  List.map_append

/-- The warnings about dead tails. -/
def warningsAbout (tails : List (Stmt × List Stmt)) : List (Located Unreachable) :=
  tails.map fun tail => ReturnPaths.warning tail.1 tail.2

@[simp] theorem warningsAbout_append (tails others : List (Stmt × List Stmt)) :
    warningsAbout (tails ++ others) = warningsAbout tails ++ warningsAbout others :=
  List.map_append

/-! ### Removals -/

/-- Statements that are removed, and the scope they stand in. -/
structure Removal where
  around : Option ScopeId
  gone : List Stmt

mutual

/-- What is removed in a statement, in order. There is one removal for each scope that is left,
though most of them remove nothing. -/
def Stmt.removals : Stmt → List Removal
  | .assignment _ _ | .declaration _ _ | .action _ _ | .returnValue _ _ => []
  | .function _ header body => body.removals ++ [⟨header.scope, []⟩]
  | .conditional _ _ first (some second) => first.removals ++ second.removals
  | .block _ body | .conditional _ _ body none | .forLoop _ _ _ _ body | .whileLoop _ _ body =>
    body.removals

/-- What is removed in a block, its own statements last. -/
def Block.removals : Block → List Removal
  | .mk _ scope body => removalsOf body ++ [⟨scope, droppedBy body⟩]

/-- What is removed inside of the statements that are left of a sequence. -/
def removalsOf : List Stmt → List Removal
  | [] => []
  | first :: rest => first.removals ++ if first.alwaysReturns then [] else removalsOf rest

end

/-! ### Running the pass -/

namespace ReturnPaths

variable {tree : ScopeTree} {around : Option ScopeId}

/-- Takes removed statements out of the scopes, in order. -/
def removeEach (tree : ScopeTree) (removals : List Removal) : Except Fault ScopeTree :=
  removals.foldlM (fun left removal => removeAll left removal.around removal.gone) tree

theorem removeEach_append (first second : List Removal) :
    removeEach tree (first ++ second) = removeEach tree first >>= (removeEach · second) :=
  List.foldlM_append

theorem removeEach_singleton (gone : List Stmt) :
    removeEach tree [⟨around, gone⟩] = removeAll tree around gone := bind_pure _

theorem cut_eq (statements : List Stmt) :
    cut tree around statements =
      removeAll tree around statements >>= fun left =>
        .ok (left, warningsAbout (tailOf statements)) := by
  cases statements <;> rfl

mutual

/-- What the pass makes of a statement is known but for the tree. -/
theorem statement_eq {tree : ScopeTree} (before : Stmt) :
    statement tree before = removeEach tree before.removals >>= fun left =>
      .ok ⟨before.pruned, before.alwaysReturns, left, complaintsAbout before.missing,
        warningsAbout before.deadTails⟩ := by
  match before with
  | .assignment _ _ | .declaration _ _ | .action _ _ | .returnValue _ _ => rfl
  | .block _ body | .conditional _ _ body none | .forLoop _ _ _ _ body | .whileLoop _ _ body =>
    rw [statement, block_eq body, Stmt.missing, complaintsAbout_map, bind_assoc]
    rfl
  | .function _ header body =>
    rw [statement, block_eq body, Stmt.missing, complaintsAbout_append, complaintsAbout_map,
      Stmt.removals, removeEach_append, bind_assoc, bind_assoc]
    cases body.alwaysReturns <;> rfl
  | .conditional _ _ first (some second) =>
    rw [statement, block_eq first, Stmt.missing, complaintsAbout_append, complaintsAbout_map,
      complaintsAbout_map, Stmt.deadTails, warningsAbout_append, Stmt.removals, removeEach_append,
      bind_assoc, bind_assoc]
    refine bind_congr fun left => ?_
    change block left second >>= _ = _
    rw [block_eq second, bind_assoc]
    rfl

theorem block_eq {tree : ScopeTree} (before : Block) :
    block tree before = removeEach tree before.removals >>= fun left =>
      .ok ⟨before.pruned, before.alwaysReturns, left, complaintsAbout before.missing,
        warningsAbout before.deadTails⟩ := by
  match before with
  | .mk _ scope body =>
    rw [block, sequence_eq scope body, bind_assoc]
    rfl

theorem sequence_eq {tree : ScopeTree} (around : Option ScopeId) (before : List Stmt) :
    sequence tree around before =
      removeEach tree (removalsOf before ++ [⟨around, droppedBy before⟩]) >>= fun left =>
        .ok ⟨prunedAll before, anyReturns before, left, complaintsAbout (missingOf before),
          warningsAbout (deadTailsOf before)⟩ := by
  match before with
  | [] => rfl
  | first :: rest =>
    rw [sequence, statement_eq first, removalsOf, droppedBy, anyReturns, prunedAll, missingOf,
      deadTailsOf, List.append_assoc, removeEach_append, bind_assoc, bind_assoc]
    refine bind_congr fun left => ?_
    cases first.alwaysReturns with
    | true =>
      change cut left around rest >>= _ = removeEach left [_] >>= _
      rw [cut_eq, removeEach_singleton, bind_assoc]
      simp only [if_true, warningsAbout_append]
      rfl
    | false =>
      change sequence left around rest >>= _ = _
      rw [sequence_eq around rest, bind_assoc]
      simp only [Bool.false_eq_true, if_false, complaintsAbout_append, complaintsAbout_map,
        warningsAbout_append]
      rfl

end

/-! ### Running the pass again -/

mutual

theorem statement_pruned {tree : ScopeTree} (before : Stmt) :
    statement tree before.pruned =
      .ok ⟨before.pruned, before.alwaysReturns, tree, complaintsAbout before.missing, []⟩ := by
  match before with
  | .assignment _ _ | .declaration _ _ | .action _ _ | .returnValue _ _ => rfl
  | .block _ body | .conditional _ _ body none | .forLoop _ _ _ _ body | .whileLoop _ _ body =>
    rw [Stmt.pruned, statement, block_pruned body, Stmt.missing, complaintsAbout_map]
    rfl
  | .conditional _ _ first (some second) =>
    rw [Stmt.pruned, statement, block_pruned first, Stmt.missing, complaintsAbout_append,
      complaintsAbout_map, complaintsAbout_map]
    simp only [bind, Except.bind, block_pruned second]
    rfl
  | .function _ header body =>
    rw [Stmt.pruned, statement, block_pruned body, Stmt.missing, complaintsAbout_append,
      complaintsAbout_map]
    simp only [bind, Except.bind]
    cases body.alwaysReturns <;> rfl

theorem block_pruned {tree : ScopeTree} (before : Block) :
    block tree before.pruned =
      .ok ⟨before.pruned, before.alwaysReturns, tree, complaintsAbout before.missing, []⟩ := by
  match before with
  | .mk _ scope body =>
    rw [Block.pruned, block, sequence_prunedAll scope body]
    rfl

/-- The pass finds nothing to remove in what it has left, and changes no scope. -/
theorem sequence_prunedAll {tree : ScopeTree} (around : Option ScopeId) (before : List Stmt) :
    sequence tree around (prunedAll before) =
      .ok ⟨prunedAll before, anyReturns before, tree, complaintsAbout (missingOf before), []⟩ := by
  match before with
  | [] => rfl
  | first :: rest =>
    rw [prunedAll, anyReturns, missingOf]
    cases returns : first.alwaysReturns with
    | true =>
      rw [if_pos rfl, if_pos rfl, sequence, statement_pruned first, Bool.true_or]
      simp only [bind, Except.bind, returns]
      rfl
    | false =>
      rw [if_neg Bool.false_ne_true, if_neg Bool.false_ne_true, sequence, statement_pruned first,
        Bool.false_or, complaintsAbout_append, complaintsAbout_map]
      simp only [bind, Except.bind, returns, sequence_prunedAll around rest]
      rfl

end

end ReturnPaths

/-- What pruning leaves of a block always returns if the block does. -/
theorem Block.alwaysReturns_pruned (block : Block) :
    block.pruned.alwaysReturns = block.alwaysReturns := by
  have again := (@ReturnPaths.block_pruned .initial block).symm.trans (ReturnPaths.block_eq _)
  obtain ⟨_, _, same⟩ := bind_eq_ok_iff.mp again.symm
  exact congrArg ReturnPaths.Pruned.returns (Except.ok.inj same)

theorem exists_prunedAll_eq (statements : List Stmt) :
    ∃ left, (⟨prunedAll (prunedAll statements), anyReturns (prunedAll statements), left,
      complaintsAbout (missingOf (prunedAll statements)),
      warningsAbout (deadTailsOf (prunedAll statements))⟩ : ReturnPaths.Pruned (List Stmt)) =
        ⟨prunedAll statements, anyReturns statements, .initial,
          complaintsAbout (missingOf statements), []⟩ := by
  have again := (@ReturnPaths.sequence_prunedAll .initial none statements).symm.trans
    (ReturnPaths.sequence_eq none _)
  obtain ⟨left, _, same⟩ := bind_eq_ok_iff.mp again.symm
  exact ⟨left, Except.ok.inj same⟩

/-- There is nothing to prune in what pruning leaves. -/
theorem prunedAll_prunedAll (statements : List Stmt) :
    prunedAll (prunedAll statements) = prunedAll statements := by
  obtain ⟨_, same⟩ := exists_prunedAll_eq statements
  exact congrArg ReturnPaths.Pruned.value same

/-- Pruning leaves no dead tails. -/
theorem deadTailsOf_prunedAll (statements : List Stmt) :
    deadTailsOf (prunedAll statements) = [] := by
  obtain ⟨_, same⟩ := exists_prunedAll_eq statements
  exact List.map_eq_nil_iff.mp (congrArg ReturnPaths.Pruned.warnings same)

end PadLang
