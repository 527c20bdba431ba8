/-
This file says when the generator can count the levels that it writes.

An array is read through a frame of its own, from which its variable is one level further away.
This is the only level that the generator computes, and it faults if no counter can hold it. Code
that is nested less deep than a counter can count has only levels that can be counted.
-/

import PadLang.Proofs.Code.Composition
import PadLang.Proofs.Outcome

namespace PadLang

/-- A counter can hold the level that an instruction was given, where it had to be computed. -/
def Instruction.Addressable : Instruction → Prop
  | .pushBlock slot => slot.level < Counter.bound
  | .label _ | .push _ | .pushSlot _ | .pushIndexed _ | .op _ => True

namespace Code

variable {slot : Slot} {condition consequent : Code} {type : Ty} {opcode : Opcode}

/-- A counter can hold every level that was computed for some code. -/
def Addressable (code : Code) : Prop := ∀ instruction ∈ code, instruction.Addressable

@[simp] theorem addressable_nil : Addressable [] := List.forall_mem_nil _

@[simp] theorem addressable_cons {first : Instruction} {rest : Code} :
    Addressable (first :: rest) ↔ first.Addressable ∧ Addressable rest := List.forall_mem_cons

@[simp] theorem addressable_append {first second : Code} :
    Addressable (first ++ second) ↔ Addressable first ∧ Addressable second :=
  List.forall_mem_append

@[simp] theorem addressable_replicate {count : Nat} :
    Addressable (List.replicate count (.op opcode)) := by
  intro instruction member
  rw [List.eq_of_mem_replicate member]
  trivial

@[simp] theorem addressable_pushBlock :
    (Instruction.pushBlock slot).Addressable ↔ slot.level < Counter.bound := Iff.rfl

@[simp] theorem addressable_label {name : String} : (Instruction.label name).Addressable := trivial

@[simp] theorem addressable_push {operand : Operand} : (Instruction.push operand).Addressable :=
  trivial

@[simp] theorem addressable_pushInt {value : Int} : (pushInt value).Addressable := trivial

@[simp] theorem addressable_pushSlot : (Instruction.pushSlot slot).Addressable :=
  trivial

@[simp] theorem addressable_pushIndexed : (Instruction.pushIndexed slot).Addressable := trivial

@[simp] theorem addressable_op : (Instruction.op opcode).Addressable := trivial

@[simp] theorem addressable_combine {operator : BinaryOperator} {left right : Code} :
    Addressable (combine operator type left right) ↔ Addressable left ∧ Addressable right := by
  unfold combine
  split <;> simp <;> tauto

@[simp] theorem addressable_store : Addressable (store type slot) := by
  cases type <;> simp [store]

@[simp] theorem addressable_printed : Addressable (printed type) := by
  cases type <;> simp [printed]

@[simp] theorem addressable_ifThen :
    Addressable (ifThen condition consequent) ↔
      Addressable condition ∧ Addressable consequent := by
  simp [ifThen, branchUnless]

@[simp] theorem addressable_ifThenElse {alternative : Code} :
    Addressable (ifThenElse condition consequent alternative) ↔
      Addressable condition ∧ Addressable consequent ∧ Addressable alternative := by
  simp [ifThenElse, branchUnless, skipForward]

@[simp] theorem addressable_repeatWhile {body : Code} :
    Addressable (repeatWhile condition body) ↔ Addressable condition ∧ Addressable body := by
  simp [repeatWhile, branchUnless, jumpBack]

theorem Within.addressable {code : Code} (within : code.Within Counter.bound True) :
    Addressable code := by
  intro instruction member
  have here := within instruction member
  cases instruction with
  | pushBlock slot => exact here
  | _ => trivial

end Code

/-! ### Code of shallow programs -/

namespace Lexical

open Code (Addressable)

variable {functions : Functions}

/-- The levels in the code of a program can be counted if its blocks are not nested too deep. -/
theorem program_addressable {statements : List Stmt}
    (shallow : depthOf statements + 1 < Counter.bound) :
    Addressable (program functions statements) := by
  have inside (selected : Stmt → Bool) :
      Addressable (Lexical.statements functions { scope := ScopeTree.global, vars := [] } []
        (statements.filter selected)) := by
    refine (statements_within _ ?_ (.inl trivial)).addressable
    have less := depthOf_le_of_sublist (List.filter_sublist (l := statements) (p := selected))
    rw [List.length_singleton]
    omega
  simp [program, openFrame, inside]

end Lexical

end PadLang
