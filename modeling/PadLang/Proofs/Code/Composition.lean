/-
This file follows properties of code through the generation of code.

Many properties are kept when code is put together and hold of the pieces that are written as they
stand. Such a property holds of the code of all expressions and simple statements as soon as it
holds of the few pieces that depend on what a name stands for. Where it also holds of jumps and of
code that closes frames, it goes through conditions and loops as well. In this way it is shown which
levels and which labels the code of a statement can have.
-/

import PadLang.Proofs.Code.Lexical
import PadLang.Proofs.Typing.Rules

namespace PadLang

variable {place : ScopeTree.Resolved} {name : String}

namespace Instruction

/-- Whether an instruction keeps the frames and needs nothing in front of it. -/
def isPlain : Instruction → Bool
  | .push (.target _) | .push (.label _) => false
  | .push _ => true
  | .op .st | .op .sta | .op .oframe | .op .cframe | .op .call | .op .ret | .op .cjmp | .op .jmp
  | .op .halt => false
  | .op _ => true
  | _ => false

/-- Whether an instruction opens no frame, calls nothing, is no label and reads no block. -/
def isOrdinary : Instruction → Bool
  | .label _ | .push (.label _) | .pushBlock _ | .op .oframe | .op .call => false
  | _ => true

theorem isOrdinary_of_isPlain {instruction : Instruction} (plain : instruction.isPlain = true) :
    instruction.isOrdinary = true := by
  revert plain
  unfold isPlain isOrdinary
  split <;> simp_all

end Instruction

/-! ### Code that is put together -/

namespace Code

/-- A property of code that is kept when code is put together and that plain code has. -/
structure Joins (holds : Code → Prop) : Prop where
  append : ∀ {first second : Code}, holds first → holds second → holds (first ++ second)
  plain : ∀ {code : Code}, code.all Instruction.isPlain = true → holds code

/-- A property of code that is kept when code is put together and that ordinary code has. -/
structure Spreads (holds : Code → Prop) : Prop where
  append : ∀ {first second : Code}, holds first → holds second → holds (first ++ second)
  ordinary : ∀ {code : Code}, code.all Instruction.isOrdinary = true → holds code

variable {holds : Code → Prop} {first second test : Code}

theorem Joins.combine (joins : Joins holds) (left : holds first) (right : holds second)
    (operator : BinaryOperator) (type : Ty) : holds (Code.combine operator type first second) := by
  unfold Code.combine
  split
  · exact joins.append (joins.append (joins.append (joins.plain rfl) right) left) (joins.plain rfl)
  · exact joins.append (joins.append (joins.append (joins.plain rfl) right) left) (joins.plain rfl)
  · have operands := joins.append (joins.append right right) left
    exact joins.append (joins.append (joins.append operands (joins.plain rfl)) left)
      (joins.plain rfl)
  · refine joins.append (joins.append right left) (joins.plain ?_)
    cases operator <;> rfl

namespace Spreads

variable (spreads : Spreads holds)

include spreads

theorem joins : Joins holds where
  append := spreads.append
  plain plain := spreads.ordinary (List.all_eq_true.mpr fun instruction member =>
    Instruction.isOrdinary_of_isPlain (List.all_eq_true.mp plain instruction member))

theorem store (type : Ty) (slot : Slot) : holds (Code.store type slot) := by
  cases type <;> exact spreads.ordinary rfl

theorem leave (inside : holds first) (count : Nat) :
    holds (first ++ List.replicate count (.op .cframe) ++ [.op .ret]) := by
  refine spreads.append (spreads.append inside (spreads.ordinary ?_)) (spreads.ordinary rfl)
  rw [List.all_replicate]
  exact ite_self _

theorem ifThen (tests : holds test) (taken : holds first) : holds (Code.ifThen test first) :=
  spreads.append (spreads.append tests (spreads.ordinary rfl)) taken

theorem ifThenElse (tests : holds test) (taken : holds first) (otherwise : holds second) :
    holds (Code.ifThenElse test first second) :=
  spreads.append (spreads.append (spreads.append tests (spreads.ordinary rfl))
    (spreads.append taken (spreads.ordinary rfl))) otherwise

theorem repeatWhile (tests : holds test) (body : holds first) :
    holds (Code.repeatWhile test first) :=
  spreads.append (spreads.append (spreads.append tests (spreads.ordinary rfl)) body)
    (spreads.ordinary rfl)

end Spreads

end Code

/-! ### Expressions and simple statements -/

namespace Lexical

open Code (pushInt)

/-- A property of code that the pieces have from which expressions and simple statements are
generated in a context. -/
structure Composes (functions : Functions) (context : Context) (holds : Code → Prop) : Prop
    extends Code.Joins holds where
  readVariable : ∀ {name place}, context.place? name = some place → holds (readVariable place)
  readElement : ∀ {name place}, context.place? name = some place →
    holds [.pushIndexed place.slot]
  call : ∀ function, holds (call functions function)
  store : ∀ {name place}, context.place? name = some place →
    holds (Code.store place.type place.slot)
  storeElement : ∀ {name place}, context.place? name = some place →
    holds [pushInt place.slot.index, .op .add, pushInt place.slot.level, .op .st]

variable {functions : Functions} {context : Context} {holds : Code → Prop}

theorem composes_of_spreads (spreads : Code.Spreads holds)
    (reads : ∀ {name place}, context.place? name = some place → holds (readVariable place))
    (calls : ∀ function, holds (call functions function)) : Composes functions context holds where
  toJoins := spreads.joins
  readVariable := reads
  readElement _ := spreads.ordinary rfl
  call := calls
  store _ := spreads.store _ _
  storeElement _ := spreads.ordinary rfl

namespace Composes

theorem atPlace (composes : Composes functions context holds) {code : ScopeTree.Resolved → Code}
    (each : ∀ place, context.place? name = some place → holds (code place)) :
    holds (Lexical.atPlace context name code) := by
  rw [Lexical.atPlace]
  cases found : context.place? name with
  | none => exact composes.plain rfl
  | some place => exact each place found

mutual

theorem expression (composes : Composes functions context holds) (expr : Expr) :
    holds (Lexical.expression functions context expr) := by
  match expr with
  | .literal _ value =>
    rw [Lexical.expression]
    cases value <;> exact composes.plain rfl
  | .array _ items =>
    rw [Lexical.expression]
    exact composes.backwards items
  | .side _ .width | .side _ .height =>
    rw [Lexical.expression]
    exact composes.plain rfl
  | .read _ x y =>
    rw [Lexical.expression]
    exact composes.append (composes.append (composes.expression y) (composes.expression x))
      (composes.plain rfl)
  | .randomInt _ limit =>
    rw [Lexical.expression]
    exact composes.append (composes.expression limit) (composes.plain rfl)
  | .var _ name =>
    rw [Lexical.expression]
    exact composes.atPlace fun _ => composes.readVariable
  | .index _ name offset =>
    have inside := composes.expression offset
    rw [Lexical.expression]
    exact composes.atPlace fun _ found => composes.append inside (composes.readElement found)
  | .call _ function items =>
    rw [Lexical.expression]
    exact composes.append (composes.backwards items) (composes.call function.value)
  | .group _ inner =>
    rw [Lexical.expression]
    exact composes.expression inner
  | .binary _ left operator right =>
    have first := composes.expression left
    have second := composes.expression right
    rw [Lexical.expression]
    cases left.type? with
    | none => exact composes.plain rfl
    | some type => exact composes.combine first second operator type
  | .unary _ .not operand | .unary _ .negate operand =>
    rw [Lexical.expression]
    exact composes.append (composes.expression operand) (composes.plain rfl)

theorem backwards (composes : Composes functions context holds) (items : List Expr) :
    holds (Lexical.backwards functions context items) := by
  match items with
  | [] => exact composes.plain rfl
  | first :: rest =>
    rw [Lexical.backwards]
    exact composes.append (composes.backwards rest) (composes.expression first)

end

section

variable (composes : Composes functions context holds)

include composes

theorem assignment (made : Assignment) : holds (Lexical.assignment functions context made) := by
  rw [Lexical.assignment]
  refine composes.atPlace fun place found => ?_
  have value := composes.expression made.value
  cases made.index with
  | none => exact composes.append value (composes.store found)
  | some index =>
    exact composes.append (composes.append value (composes.expression index))
      (composes.storeElement found)

theorem loopUpdate (update : Option Assignment) :
    holds (Lexical.loopUpdate functions context update) := by
  cases update with
  | none => exact composes.plain rfl
  | some made => exact composes.assignment made

theorem action (done : Action) : holds (Lexical.action functions context done) := by
  cases done with
  | print value =>
    refine composes.append (composes.expression value) ?_
    cases value.type? with
    | none => exact composes.plain rfl
    | some type => cases type <;> exact composes.plain rfl
  | delay milliseconds =>
    exact composes.append (composes.expression milliseconds) (composes.plain rfl)
  | write x y colour =>
    exact composes.append (composes.backwards [x, y, colour]) (composes.plain rfl)
  | writeBox x y width height colour =>
    exact composes.append (composes.backwards [x, y, width, height, colour]) (composes.plain rfl)
  | clear colour => exact composes.append (composes.expression colour) (composes.plain rfl)

end

/-- Where code may store what it likes, a loop may begin with a declaration. -/
theorem loopInit {layer : Layer} {outer : Context}
    (composes : Composes functions (layer :: outer) holds)
    (stores : ∀ type slot, holds (Code.store type slot)) (init : Option Declaration) :
    holds (Lexical.loopInit functions layer outer init) := by
  cases init with
  | none => exact composes.plain rfl
  | some made => exact composes.append (composes.expression made.value) (stores _ _)

end Composes

end Lexical

/-! ### Levels and labels -/

/-- Blocks are read from levels below a bound, and there are labels only where they are allowed. -/
def Instruction.Within (most : Nat) (labelled : Prop) : Instruction → Prop
  | .label _ => labelled
  | .pushBlock slot => slot.level < most
  | .push _ | .pushSlot _ | .pushIndexed _ | .op _ => True

/-- All instructions of some code are within the bounds. -/
def Code.Within (most : Nat) (labelled : Prop) (code : Code) : Prop :=
  ∀ instruction ∈ code, instruction.Within most labelled

theorem Context.level_lt_length {context : Context} (found : context.place? name = some place) :
    place.slot.level < context.length := by
  obtain ⟨layer, isLayer, _⟩ := exists_layer found
  exact (List.getElem?_eq_some_iff.mp isLayer).1

namespace Lexical

open Code (Within)

variable {functions : Functions} {context : Context} {most : Nat} {labelled : Prop}

theorem spreads_within : Code.Spreads (Within most labelled) where
  append first second := List.forall_mem_append.mpr ⟨first, second⟩
  ordinary {code} ordinary instruction member := by
    have here := List.all_eq_true.mp ordinary instruction member
    cases instruction with
    | label name | pushBlock slot => cases here
    | _ => trivial

theorem readVariable_within (near : place.slot.level + 1 < most) :
    Within most labelled (readVariable place) := by
  obtain ⟨slot, type⟩ := place
  cases type with
  | base scalar => exact spreads_within.ordinary rfl
  | array size element =>
    simp only [Within, readVariable, List.forall_mem_cons]
    exact ⟨trivial, trivial, trivial, near, trivial, trivial, trivial, trivial, trivial,
      Nat.zero_lt_of_lt near, trivial, List.forall_mem_nil _⟩

theorem composes_within (short : context.length < most) :
    Composes functions context (Within most labelled) := by
  refine composes_of_spreads spreads_within (fun found => readVariable_within ?_) fun function => ?_
  · exact Nat.lt_of_le_of_lt (Context.level_lt_length found) short
  · rw [call]
    cases functions function with
    | none => exact List.forall_mem_nil _
    | some signature =>
      simp only [Within, Option.map_some, Option.getD_some, List.forall_mem_cons]
      exact ⟨trivial, trivial, trivial, List.forall_mem_nil _⟩

mutual

/-- The levels in the code of a statement are bounded by how deep it stands and is nested, and only
functions have labels. -/
theorem statement_within {layer : Layer} {outer : Context} (before : Stmt)
    (short : (layer :: outer).length + before.depth < most) (plain : labelled ∨ before.Plain) :
    Within most labelled (statement functions layer outer before) := by
  have here : Composes functions (layer :: outer) (Within most labelled) :=
    composes_within (Nat.lt_of_le_of_lt (Nat.le_add_right _ _) short)
  match before with
  | .declaration _ made =>
    exact here.append (here.expression made.value) (spreads_within.store _ _)
  | .assignment _ made => exact here.assignment made
  | .action _ done => exact here.action done
  | .returnValue _ value => exact spreads_within.leave (here.expression value) _
  | .block _ body => exact block_within body short plain
  | .function _ header body =>
    rw [Stmt.depth, List.length_cons] at short
    rcases plain with isLabelled | ⟨⟨⟩⟩
    refine List.forall_mem_cons.mpr ⟨isLabelled, block_within body ?_ (.inl isLabelled)⟩
    rw [List.length_singleton]
    omega
  | .conditional _ condition first none =>
    exact spreads_within.ifThen (here.expression condition) (block_within first short plain)
  | .conditional _ condition first (some second) =>
    rw [Stmt.depth] at short
    exact spreads_within.ifThenElse (here.expression condition)
      (block_within first (by omega) (plain.imp_right And.left))
      (block_within second (by omega) (plain.imp_right And.right))
  | .whileLoop _ condition body =>
    exact spreads_within.repeatWhile (here.expression condition) (block_within body short plain)
  | .forLoop _ init condition update (.mk _ scope body) =>
    rw [Stmt.depth, Block.depth, Nat.add_comm (depthOf body), ← Nat.add_assoc] at short
    have inner (entered : Layer) :
        Composes functions (entered :: layer :: outer) (Within most labelled) :=
      composes_within (Nat.lt_of_le_of_lt (Nat.le_add_right _ _) short)
    refine spreads_within.append (spreads_within.append (spreads_within.append ?_
      ((inner _).loopInit spreads_within.store init)) ?_) (spreads_within.ordinary rfl)
    · exact List.forall_mem_cons.mpr ⟨trivial, List.forall_mem_singleton.mpr trivial⟩
    · exact spreads_within.repeatWhile ((inner _).expression condition)
        (spreads_within.append (statements_within body short plain) ((inner _).loopUpdate update))

theorem block_within (before : Block) {context : Context}
    (short : context.length + before.depth < most) (plain : labelled ∨ before.Plain) :
    Within most labelled (block functions context before) := by
  match before with
  | .mk _ scope body =>
    rw [Block.depth, Nat.add_comm (depthOf body), ← Nat.add_assoc] at short
    exact spreads_within.append (spreads_within.append
      (List.forall_mem_cons.mpr ⟨trivial, List.forall_mem_singleton.mpr trivial⟩)
      (statements_within body short plain)) (spreads_within.ordinary rfl)

theorem statements_within {layer : Layer} {outer : Context} (before : List Stmt)
    (short : (layer :: outer).length + depthOf before < most)
    (plain : labelled ∨ allPlain before) :
    Within most labelled (statements functions layer outer before) := by
  match before with
  | [] => exact List.forall_mem_nil _
  | first :: rest =>
    rw [depthOf, List.length_cons] at short
    refine spreads_within.append
      (statement_within first (by rw [List.length_cons]; omega) (plain.imp_right And.left))
      (statements_within rest ?_ (plain.imp_right And.right))
    rw [List.length_cons]
    omega

end

end Lexical

end PadLang
