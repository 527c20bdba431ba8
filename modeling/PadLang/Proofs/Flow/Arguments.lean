/-
This file looks at what the calls in a compiled program pass on.

Functions are named in code only to be called. The arguments of a call are emitted right before it
from the last to the first, so the words of the first are on top. Every call in the code of a
program comes from a call in one of its expressions.
-/

import PadLang.Proofs.Code.Displacement
import PadLang.Proofs.Flow.Initialisation

namespace PadLang

/-! ### Calls in code -/

/-- Whether an instruction is only needed for calls. -/
def Instruction.isCalling : Instruction → Bool
  | .push (.label _) | .op .call => true
  | _ => false

namespace Flow

open Code (pushInt)
open Machine (Stands)

variable {fit : String → Nat → Code → Prop} {late : Vars} {counter : Nat}

/-- Functions are named in code only to be called, and every call stands behind the code of
arguments that are fit for it. -/
inductive Passes (fit : String → Nat → Code → Prop) : Code → Prop where
  | inert {code : Code} (none : code.any Instruction.isCalling = false) : Passes fit code
  | append {first second : Code} (earlier : Passes fit first) (later : Passes fit second) :
      Passes fit (first ++ second)
  | call {arguments : Code} {name : String} {cells : Nat} (inside : Passes fit arguments)
      (isFit : fit name cells arguments) :
      Passes fit (arguments ++ [pushInt cells, .push (.label name), .op .call])

/-- A call in code, with the arguments in front of it. The name of the function is pushed by the
instruction at this counter. -/
def CallsAt (fit : String → Nat → Code → Prop) (code : Code) (counter : Nat) : Prop :=
  ∃ (start : Nat) (name : String) (cells : Nat) (arguments : Code),
    counter = start + arguments.length + 1 ∧
    Stands code start (arguments ++ [pushInt cells, .push (.label name), .op .call]) ∧
    fit name cells arguments

theorem CallsAt.within {code part : Code} {base : Nat} (stands : Stands code base part)
    (calls : CallsAt fit part counter) : CallsAt fit code (base + counter) := by
  obtain ⟨start, name, cells, arguments, rfl, inside, isFit⟩ := calls
  exact ⟨base + start, name, cells, arguments, by omega, stands.within inside, isFit⟩

namespace Passes

variable {fit : String → Nat → Code → Prop} {code first second test : Code}

/-- Instructions that are only needed for calls stand in calls. -/
theorem callsAt (passes : Passes fit code) {instruction : Instruction}
    (found : code[counter]? = some instruction) (calling : instruction.isCalling = true) :
    ∃ named, CallsAt fit code named ∧ (counter = named ∨ counter = named + 1) := by
  induction passes generalizing counter with
  | inert none =>
    have isNot := List.any_eq_false.mp none _ (List.mem_of_getElem? found)
    exact absurd calling isNot
  | @append first second _ _ earlier later =>
    have wholeFirst : Stands (first ++ second) 0 first := ⟨[], second, rfl, rfl⟩
    have wholeSecond : Stands (first ++ second) first.length second :=
      ⟨first, [], (List.append_nil _).symm, rfl⟩
    by_cases inFirst : counter < first.length
    · rw [List.getElem?_append_left inFirst] at found
      obtain ⟨named, calls, isCounter⟩ := earlier found
      exact ⟨0 + named, calls.within wholeFirst, by omega⟩
    · rw [List.getElem?_append_right (Nat.le_of_not_lt inFirst)] at found
      obtain ⟨named, calls, isCounter⟩ := later found
      exact ⟨first.length + named, calls.within wholeSecond, by omega⟩
  | @call arguments name cells _ isFit inside =>
    have whole : Stands (arguments ++ [pushInt cells, .push (.label name), .op .call]) 0
        arguments := ⟨[], _, rfl, rfl⟩
    by_cases inArguments : counter < arguments.length
    · rw [List.getElem?_append_left inArguments] at found
      obtain ⟨named, calls, isCounter⟩ := inside found
      exact ⟨0 + named, calls.within whole, by omega⟩
    · rw [List.getElem?_append_right (Nat.le_of_not_lt inArguments)] at found
      have here : CallsAt fit (arguments ++ [pushInt cells, .push (.label name), .op .call])
          (arguments.length + 1) :=
        ⟨0, name, cells, arguments, by omega, ⟨[], [], (List.append_nil _).symm, rfl⟩, isFit⟩
      refine ⟨arguments.length + 1, here, ?_⟩
      match isOffset : counter - arguments.length with
      | 0 =>
        rw [isOffset] at found
        cases found
        cases calling
      | 1 | 2 => omega
      | offset + 3 =>
        rw [isOffset] at found
        cases found

theorem spreads : Code.Spreads (Passes fit) where
  append := append
  ordinary {code} ordinary := by
    refine inert (List.any_eq_false.mpr fun instruction member calling => ?_)
    have here := List.all_eq_true.mp ordinary instruction member
    revert here calling
    unfold Instruction.isOrdinary Instruction.isCalling
    split <;> simp_all

end Passes

/-! ### Arguments of calls -/

/-- The arguments of a call that stands in an expression, with the types of the parameters and
with their code. Unless a variable in it is displaced, an argument leaves as many words as its
parameter has cells. -/
structure Arguments (functions : Functions) (site : Site) (name : String) (cells : Nat)
    (parts : List Lowered) : Prop where
  node : ∃ note function, function.value = name ∧
    .call note function (parts.map Lowered.expr) ∈ site.expr.nodes
  parameters : ∃ signature, functions name = some signature ∧
    signature.parameters = parts.map Lowered.type ∧ signature.cells = cells
  emitted : ∃ context, ∀ part ∈ parts, part.code = Lexical.expression functions context part.expr
  raises : ∀ part ∈ parts, ¬part.expr.Displaced site.late → Raises functions part.code part.type

/-- Code is that of the arguments of a call in one of these expressions. -/
def PassedBy (functions : Functions) (sites : List Site) (name : String) (cells : Nat)
    (code : Code) : Prop :=
  ∃ site ∈ sites, ∃ parts, code = stacked parts ∧ Arguments functions site name cells parts

section Expressions

variable {functions : Functions} {sites : List Site} {context : Context}
  (callable : Callable functions) (written : context.Written) {expr : Expr} {type : Ty}

theorem readVariable_passes (place : ScopeTree.Resolved) :
    Passes fit (Lexical.readVariable place) := by
  obtain ⟨slot, type⟩ := place
  cases type <;> exact .inert rfl

theorem backwards_passes {items : List Expr}
    (each : ∀ item ∈ items, Passes fit (Lexical.expression functions context item)) :
    Passes fit (Lexical.backwards functions context items) := by
  induction items with
  | nil => exact .inert rfl
  | cons first rest inductionHypothesis =>
    rw [List.forall_mem_cons] at each
    exact (inductionHypothesis each.2).append each.1

include callable written

/-- All calls in the code of an expression are calls in the expression. -/
theorem node_passes {site : Site} (isSite : site ∈ sites)
    (writtenLate : ∀ entry ∈ site.late, entry.2.Written)
    (typed : HasType functions context expr type) (within : expr.nodes ⊆ site.expr.nodes) :
    Passes (PassedBy functions sites)
      (Lexical.expression functions (context.declare site.late) expr) := by
  induction typed with
  | @literal note value type noted => cases value <;> exact .inert rfl
  | array _ _ _ _ each =>
    refine backwards_passes fun item member => each item member ?_
    exact List.Subset.trans (subset_nodesOf member) (List.cons_subset.mp within).2
  | @side note which type noted => cases which <;> exact .inert rfl
  | read _ _ _ first second =>
    obtain ⟨inFirst, inSecond⟩ := List.append_subset.mp (List.cons_subset.mp within).2
    exact ((second inSecond).append (first inFirst)).append (.inert rfl)
  | randomInt _ _ limit => exact (limit (List.cons_subset.mp within).2).append (.inert rfl)
  | var denotes _ =>
    obtain ⟨place, placed, _⟩ := Context.exists_place_declare denotes site.late
    rw [Lexical.expression, Lexical.atPlace, placed]
    exact readVariable_passes place
  | index denotes _ _ _ offset =>
    obtain ⟨place, placed, _⟩ := Context.exists_place_declare denotes site.late
    rw [Lexical.expression, Lexical.atPlace, placed]
    exact (offset (List.cons_subset.mp within).2).append (.inert rfl)
  | @call note function items signature type names arity typedItems _ each =>
    obtain ⟨isNode, inItems⟩ := List.cons_subset.mp within
    have areItems := List.map_fst_zip (Nat.le_of_eq arity.symm)
    have areTypes := List.map_snd_zip (Nat.le_of_eq arity)
    have inside : Passes (PassedBy functions sites)
        (Lexical.backwards functions (context.declare site.late) items) := by
      refine backwards_passes fun item member => ?_
      have inNode := List.Subset.trans (subset_nodesOf member) inItems
      rw [← areItems] at member
      obtain ⟨pair, isPair, rfl⟩ := List.mem_map.mp member
      exact each pair isPair inNode
    have areParts : Lexical.backwards functions (context.declare site.late) items = stacked _ :=
      Lexical.backwards_eq_stacked_lowered areItems
    rw [Lexical.expression, Lexical.call, names]
    refine .call inside ⟨site, isSite, _, areParts, ⟨note, function, rfl, ?_⟩,
      ⟨signature, names, ?_, rfl⟩, ⟨context.declare site.late, ?_⟩, ?_⟩
    · rw [Lexical.map_expr_lowered, areItems]
      exact isNode
    · rw [Lexical.map_type_lowered, areTypes]
    · exact Lexical.forall_mem_lowered.mpr fun _ _ => rfl
    · refine Lexical.forall_mem_lowered.mpr fun pair member => ?_
      have sized := (frameTotal?_eq_ok (callable _ _ names)).1 _ (List.of_mem_zip member).2
      exact expression_raises callable written writtenLate (typedItems pair member) sized
  | group _ _ inside => exact inside (List.cons_subset.mp within).2
  | @binary note left operator right operand type takes typedLeft _ _ first second =>
    obtain ⟨inLeft, inRight⟩ := List.append_subset.mp (List.cons_subset.mp within).2
    rw [Lexical.expression, typedLeft.type?_eq]
    exact Passes.spreads.joins.combine (first inLeft) (second inRight) operator operand
  | @unary note operator operand found type _ _ _ inside =>
    have passes := inside (List.cons_subset.mp within).2
    cases operator <;> exact passes.append (.inert rfl)

theorem expression_passes (typed : HasType functions context expr type)
    (isSite : { expr, late := [] } ∈ sites) :
    Passes (PassedBy functions sites) (Lexical.expression functions context expr) := by
  have passes := node_passes callable written isSite (List.forall_mem_nil _) typed
    (List.Subset.refl _)
  rwa [Context.declare_nil] at passes

theorem assignment_passes (writtenLate : ∀ entry ∈ late, entry.2.Written) {made : Assignment}
    (inScope : made.Scoped functions context) (among : sitesAt late made.expressions ⊆ sites) :
    Passes (PassedBy functions sites)
      (Lexical.assignment functions (context.declare late) made) := by
  obtain ⟨target, index, value⟩ := made
  obtain ⟨found, denotes, typed⟩ := inScope
  obtain ⟨isValue, isIndex⟩ := List.cons_subset.mp among
  obtain ⟨place, placed, _⟩ := Context.exists_place_declare denotes late
  rw [Lexical.assignment, Lexical.atPlace, placed]
  cases index with
  | none =>
    exact (node_passes callable written isValue writtenLate typed (List.Subset.refl _)).append
      (Passes.spreads.store _ _)
  | some index =>
    obtain ⟨element, _, typedIndex, typedValue⟩ := typed
    have isIndex := isIndex List.mem_cons_self
    exact ((node_passes callable written isValue writtenLate typedValue
      (List.Subset.refl _)).append (node_passes callable written isIndex writtenLate typedIndex
        (List.Subset.refl _))).append (.inert rfl)

theorem action_passes {done : Action} (inScope : done.Scoped functions context)
    (among : sitesAt [] done.expressions ⊆ sites) :
    Passes (PassedBy functions sites) (Lexical.action functions context done) := by
  have each : ∀ expr ∈ done.expressions,
      Passes (PassedBy functions sites) (Lexical.expression functions context expr) := by
    intro expr member
    obtain ⟨type, typed⟩ := inScope.exists_hasType expr member
    exact expression_passes callable written typed (among (List.mem_map_of_mem member))
  cases done with
  | print value =>
    obtain ⟨type, typed⟩ := inScope
    rw [Lexical.action, typed.type?_eq]
    exact (each value List.mem_cons_self).append (.inert (by cases type <;> rfl))
  | delay value | clear value => exact (each value List.mem_cons_self).append (.inert rfl)
  | write _ _ _ | writeBox _ _ _ _ _ => exact (backwards_passes each).append (.inert rfl)

end Expressions

/-! ### Statements -/

section Statements

variable {functions : Functions} {sites : List Site} {outer : Context} {layer : Layer}

theorem declaration_passes (callable : Callable functions)
    (written : Context.Written (layer :: outer)) {made : Declaration}
    (inScope : made.Scoped functions (layer :: outer)) (among : sitesAt [] [made.value] ⊆ sites) :
    Passes (PassedBy functions sites) (Lexical.declaration functions layer outer made) :=
  (expression_passes callable written inScope (among List.mem_cons_self)).append
    (Passes.spreads.store _ _)

theorem loopInit_passes (callable : Callable functions) (written : Context.Written (layer :: outer))
    {init : Option Declaration} (inScope : ∀ made ∈ init, made.Scoped functions (layer :: outer))
    (among : sitesAt [] (init.toList.map Declaration.value) ⊆ sites) :
    Passes (PassedBy functions sites) (Lexical.loopInit functions layer outer init) := by
  cases init with
  | none => exact .inert rfl
  | some made => exact declaration_passes callable written (inScope made rfl) among

theorem loopUpdate_passes (callable : Callable functions) {context : Context}
    (written : context.Written) (writtenLate : ∀ entry ∈ late, entry.2.Written)
    {update : Option Assignment} (inScope : ∀ made ∈ update, made.Scoped functions context)
    (among : sitesAt late (update.toList.flatMap Assignment.expressions) ⊆ sites) :
    Passes (PassedBy functions sites)
      (Lexical.loopUpdate functions (context.declare late) update) := by
  cases update with
  | none => exact .inert rfl
  | some made =>
    rw [Option.toList_some, List.flatMap_singleton] at among
    exact assignment_passes callable written writtenLate (inScope made rfl) among

mutual

/-- All calls in the code of a statement are calls in its expressions. -/
theorem statement_passes (callable : Callable functions) {returns : Option Ty} {layer : Layer}
    {outer : Context} (written : Context.Written (layer :: outer)) {statement : Stmt}
    (inScope : statement.Scoped functions returns (layer :: outer))
    (types : statement.AllTypes Ty.Written) (among : statement.sites ⊆ sites) :
    Passes (PassedBy functions sites) (Lexical.statement functions layer outer statement) := by
  match statement with
  | .declaration _ made => exact declaration_passes callable written inScope among
  | .assignment _ made =>
    have passes := assignment_passes callable written (List.forall_mem_nil _) inScope among
    rwa [Context.declare_nil] at passes
  | .action _ done => exact action_passes callable written inScope among
  | .returnValue _ value =>
    obtain ⟨_, _, typed⟩ := inScope
    exact Passes.spreads.leave
      (expression_passes callable written typed (among List.mem_cons_self)) _
  | .block _ body => exact block_passes callable written inScope types among
  | .function _ header body =>
    obtain ⟨opened, isOpened, inside⟩ := inScope
    have enters : Context.Written
        [{ scope := opened, vars := parameterVars header.parameters }] := by
      refine List.forall_mem_singleton.mpr ?_
      rw [parameterVars, List.forall_mem_map]
      exact types.1
    rw [Lexical.statement, isOpened]
    have label : Passes (PassedBy functions sites) [.label header.name.value] := .inert rfl
    exact label.append (block_passes callable enters inside types.2 among)
  | .conditional _ condition first none =>
    obtain ⟨isCondition, inFirst⟩ := List.append_subset.mp among
    exact Passes.spreads.ifThen
      (expression_passes callable written inScope.1 (isCondition List.mem_cons_self))
      (block_passes callable written inScope.2 types inFirst)
  | .conditional _ condition first (some second) =>
    obtain ⟨inBoth, inSecond⟩ := List.append_subset.mp among
    obtain ⟨isCondition, inFirst⟩ := List.append_subset.mp inBoth
    exact Passes.spreads.ifThenElse
      (expression_passes callable written inScope.1 (isCondition List.mem_cons_self))
      (block_passes callable written inScope.2.1 types.1 inFirst)
      (block_passes callable written inScope.2.2 types.2 inSecond)
  | .whileLoop _ condition body =>
    obtain ⟨isCondition, inBody⟩ := List.append_subset.mp among
    exact Passes.spreads.repeatWhile
      (expression_passes callable written inScope.1 (isCondition List.mem_cons_self))
      (block_passes callable written inScope.2 types inBody)
  | .forLoop _ init condition update (.mk _ scope body) =>
    obtain ⟨opened, rfl, started, test, step, inside⟩ := inScope
    obtain ⟨inRest, inUpdate⟩ := List.append_subset.mp among
    obtain ⟨inRest, inBody⟩ := List.append_subset.mp inRest
    obtain ⟨inInit, isCondition⟩ := List.append_subset.mp inRest
    have writtenInit : ∀ entry ∈ initVars init, entry.2.Written := by
      cases init with
      | none => exact List.forall_mem_nil _
      | some made => exact List.forall_mem_singleton.mpr (types.1 made rfl)
    have enters := written.open opened [] (List.forall_mem_nil _)
    have loops := written.open opened (initVars init) writtenInit
    have rounds := (statements_passes callable loops inside types.2 inBody).append
      (loopUpdate_passes callable loops (written_of_allTypes types.2) step inUpdate)
    exact ((Passes.append (.inert rfl) (loopInit_passes callable enters started inInit)).append
      (Passes.spreads.repeatWhile
        (expression_passes callable loops test (isCondition List.mem_cons_self)) rounds)).append
      (.inert rfl)

theorem block_passes (callable : Callable functions) {returns : Option Ty} {context : Context}
    (written : context.Written) {block : Block} (inScope : block.Scoped functions returns context)
    (types : block.AllTypes Ty.Written) (among : block.sites ⊆ sites) :
    Passes (PassedBy functions sites) (Lexical.block functions context block) := by
  match block with
  | .mk _ scope body =>
    obtain ⟨opened, rfl, inside⟩ := inScope
    have enters := written.open opened [] (List.forall_mem_nil _)
    exact (Passes.append (.inert rfl)
      (statements_passes callable enters inside types among)).append (.inert rfl)

theorem statements_passes (callable : Callable functions) {returns : Option Ty} {layer : Layer}
    {outer : Context} (written : Context.Written (layer :: outer)) {statements : List Stmt}
    (inScope : allScoped functions returns (layer :: outer) statements)
    (types : allTypes Ty.Written statements) (among : sitesOf statements ⊆ sites) :
    Passes (PassedBy functions sites) (Lexical.statements functions layer outer statements) := by
  match statements with
  | [] => exact .inert rfl
  | first :: rest =>
    obtain ⟨inFirst, inRest⟩ := List.append_subset.mp among
    have declares : ∀ entry ∈ first.declares, entry.2.Written := by
      have all := written_of_allTypes types
      rw [declaredBy_cons, List.forall_mem_append] at all
      exact all.1
    exact (statement_passes callable written inScope.1 types.1 inFirst).append
      (statements_passes callable (written.declare declares) inScope.2 types.2 inRest)

end

end Statements

/-- All calls in the code of a program are calls in its expressions. -/
theorem program_passes {tree : ScopeTree} {statements : List Stmt}
    (ready : Ready tree statements) :
    Passes (PassedBy tree.lookupFunction? (sitesOf statements))
      (Lexical.program tree.lookupFunction? statements) := by
  have callable := ready.consistent.callable
  have inScope := ready.consistent.inScope
  have written : Context.Written [{ scope := ScopeTree.global, vars := [] }] :=
    List.forall_mem_singleton.mpr (List.forall_mem_nil _)
  have types (kept : Stmt → Bool) : allTypes Ty.Written (statements.filter kept) :=
    allTypes_iff.mpr fun statement member =>
      allTypes_iff.mp ready.types statement (List.mem_of_mem_filter member)
  have among (kept : Stmt → Bool) : sitesOf (statements.filter kept) ⊆ sitesOf statements :=
    sitesOf_subset fun _ member => List.mem_of_mem_filter member
  have called := statements_passes callable written inScope.filter_isFunction (types _) (among _)
  have entered := statements_passes callable written inScope.filter_not_isFunction (types _)
    (among _)
  exact (((called.append (.inert rfl)).append (.inert rfl)).append entered).append (.inert rfl)

end Flow

end PadLang
