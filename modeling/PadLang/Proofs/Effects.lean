/-
This file describes what pieces of code do, wherever they stand.

A piece of code performs a change of the data if the machine, started at its first instruction,
comes to the instruction behind it with the data changed in that way. Pieces that follow one
another perform one change after the other. Jumps stay inside the pieces that the generator makes
them for, so conditionals and loops perform what the parts that are run perform.
-/

import PadLang.Proofs.Machine

namespace PadLang

variable {before after between : Data} {word : Int} {condition consequent : Code}

namespace Machine

variable {rest : Code}

/-! ### Pieces of code -/

/-- A piece of code stands in other code, its first instruction at a place. The instructions may
bear notes. -/
def Stands {α : Type} (code : List α) (counter : Nat) (piece : List α) : Prop :=
  ∃ ahead behind, code = ahead ++ piece ++ behind ∧ counter = ahead.length

namespace Stands

variable {α : Type} {code first second : List α} {counter : Nat}

theorem left (stands : Stands code counter (first ++ second)) : Stands code counter first := by
  obtain ⟨ahead, behind, rfl, rfl⟩ := stands
  exact ⟨ahead, second ++ behind, by simp only [List.append_assoc], rfl⟩

theorem right (stands : Stands code counter (first ++ second)) :
    Stands code (counter + first.length) second := by
  obtain ⟨ahead, behind, rfl, rfl⟩ := stands
  exact ⟨ahead ++ first, behind, by simp only [List.append_assoc], List.length_append.symm⟩

theorem head {instruction : α} {rest : List α}
    (stands : Stands code counter (instruction :: rest)) : code[counter]? = some instruction := by
  obtain ⟨ahead, behind, rfl, rfl⟩ := stands
  rw [List.append_assoc, List.getElem?_append_right (Nat.le_refl _), Nat.sub_self]
  rfl

theorem tail {instruction : α} {rest : List α}
    (stands : Stands code counter (instruction :: rest)) : Stands code (counter + 1) rest := by
  have parts : Stands code counter ([instruction] ++ rest) := stands
  exact parts.right

end Stands

variable {ops : WordOps} {pad : Pad}

/-- A piece of code changes the data in a way, wherever it stands. -/
def Performs (ops : WordOps) (pad : Pad) (piece : Code) (before after : Data) : Prop :=
  ∀ ⦃code : Code⦄ ⦃counter : Nat⦄, Stands code counter piece →
    Runs ops pad code { counter, data := before }
      { counter := counter + piece.length, data := after }

theorem runs_of_execute {instruction : Instruction} {code : Code} {counter : Nat} {data : Data}
    {after : State} (stands : Stands code counter (instruction :: rest))
    (executed : execute ops pad { counter, data } instruction = some after) :
    Runs ops pad code { counter, data } after := by
  refine Relation.ReflTransGen.single ?_
  rw [step, stands.head]
  exact executed

theorem execute_eq_of_act {instruction : Instruction} (counter : Nat)
    (acts : act ops pad before instruction = some after) :
    execute ops pad { counter, data := before } instruction =
      some { counter := counter + 1, data := after } := by
  unfold execute
  split
  · cases acts
  · cases acts
  · cases acts
  · rw [acts]
    rfl

namespace Performs

theorem nil (data : Data) : Performs ops pad [] data data :=
  fun _ _ _ => Relation.ReflTransGen.refl

theorem append {first second : Code} (performsFirst : Performs ops pad first before between)
    (performsSecond : Performs ops pad second between after) :
    Performs ops pad (first ++ second) before after := by
  intro code counter stands
  rw [List.length_append, ← Nat.add_assoc]
  exact (performsFirst stands.left).trans (performsSecond stands.right)

theorem cons {instruction : Instruction} (acts : act ops pad before instruction = some between)
    (performs : Performs ops pad rest between after) :
    Performs ops pad (instruction :: rest) before after := by
  have first : Performs ops pad [instruction] before between :=
    fun _ counter stands => runs_of_execute stands (execute_eq_of_act counter acts)
  exact first.append performs

theorem instruction {instruction : Instruction}
    (acts : act ops pad before instruction = some after) :
    Performs ops pad [instruction] before after :=
  cons acts (nil after)

end Performs

/-! ### Operations and frames -/

section Frames

variable {frames : List Frame} {level index : Nat} {before after : Frame} {words stack : List Int}
  {output : List Event} {data : Data}

theorem binary?_eq {operation : Int → Int → Option Int} {left right : Int}
    (applied : operation left right = some word) :
    Data.binary? operation ⟨left :: right :: stack, frames, output⟩ =
      some ⟨word :: stack, frames, output⟩ := by
  have popped : Data.binary? operation ⟨left :: right :: stack, frames, output⟩ =
      (operation left right).bind fun result =>
        some (Data.push [result] ⟨stack, frames, output⟩) := rfl
  rw [popped, applied]
  rfl

theorem pop?_append :
    Data.pop? words.length ⟨words ++ stack, frames, output⟩ =
      some (words, ⟨stack, frames, output⟩) := by
  have enough : words.length ≤ (words ++ stack).length := by
    rw [List.length_append]
    exact Nat.le_add_right _ _
  rw [Data.pop?, if_pos enough, List.take_left, List.drop_left]

theorem emit?_append (effect : Effect) :
    Data.emit? effect words.length ⟨words ++ stack, frames, output⟩ =
      some ⟨stack, frames, output ++ [⟨effect, words⟩]⟩ := by
  rw [Data.emit?, pop?_append]
  rfl

theorem load?_eq (isFrame : frames[level]? = some (before ++ words.map some ++ after)) :
    Data.load? level before.length words.length ⟨stack, frames, output⟩ =
      some ⟨words ++ stack, frames, output⟩ := by
  rw [Data.load?, isFrame, Option.bind_eq_bind, Option.bind_some, Frame.read?_append]
  rfl

theorem store?_eq {old : Frame} (isFrame : frames[level]? = some (before ++ old ++ after))
    (same : old.length = words.length) :
    Data.store? level before.length words ⟨stack, frames, output⟩ =
      some ⟨stack, frames.set level (before ++ words.map some ++ after), output⟩ := by
  rw [Data.store?, isFrame, Option.bind_eq_bind, Option.bind_some,
    Frame.write?_append before old after words same]
  rfl

namespace Performs

theorem openFrame (count : Nat) :
    Performs ops pad [Code.pushInt count, .op .oframe] ⟨stack, frames, output⟩
      ⟨stack, List.replicate count none :: frames, output⟩ :=
  cons rfl (instruction rfl)

theorem loadBlock {count : Nat}
    (loads : Data.load? level index count ⟨stack, frames, output⟩ = some data) :
    Performs ops pad [Code.pushInt count, .pushBlock { index, level }] ⟨stack, frames, output⟩
      data :=
  cons rfl (instruction loads)

theorem store (stores : Data.store? level index [word] ⟨stack, frames, output⟩ = some data) :
    Performs ops pad [Code.pushInt index, Code.pushInt level, .op .st]
      ⟨word :: stack, frames, output⟩ data :=
  cons rfl (cons rfl (instruction stores))

theorem storeBlock (stores : Data.store? level index words ⟨stack, frames, output⟩ = some data) :
    Performs ops pad
      [Code.pushInt words.length, Code.pushInt index, Code.pushInt level, .op .sta]
      ⟨words ++ stack, frames, output⟩ data := by
  refine cons rfl (cons rfl (cons rfl (instruction ?_)))
  have popped : actOpcode ops pad
      ⟨level :: index :: words.length :: (words ++ stack), frames, output⟩ .sta =
        (Data.pop? words.length ⟨words ++ stack, frames, output⟩).bind fun taken =>
          taken.2.store? level index taken.1 := rfl
  rw [pop?_append] at popped
  exact popped.trans stores

theorem loadIndexed {offset : Nat} (isOffset : word.toNat? = some offset)
    (loads : Data.load? level (index + offset) 1 ⟨stack, frames, output⟩ = some data) :
    Performs ops pad [.pushIndexed { index, level }] ⟨word :: stack, frames, output⟩ data := by
  rw [Int.mem_toNat?.mp isOffset]
  exact instruction loads

end Performs

end Frames

/-! ### Jumps -/

section Jumps

variable {code alternative body : Code} {counter target : Nat} {data : Data} {offset : Int}

theorem popNat?_push {number : Nat} (same : word = number) (data : Data) :
    (data.push [word]).popNat? = some (number, data) := by
  rw [same]
  rfl

/-- A jump leads to its target, which is relative to the instruction that pushes it. -/
theorem runs_jump (stands : Stands code counter [.push (.target offset), .op .jmp])
    (lands : counter + offset = target) :
    Runs ops pad code { counter, data } { counter := target, data } := by
  refine (runs_of_execute stands rfl).trans (runs_of_execute stands.tail ?_)
  rw [execute, popNat?_push lands]
  rfl

/-- A conditional jump leads to its target if the word under it is true, and to the next
instruction if it is not. -/
theorem runs_branch (stands : Stands code counter [.push (.target offset), .op .cjmp])
    (lands : counter + offset = target) : Runs ops pad code { counter, data := data.push [word] }
      { counter := if ops.holds word then target else counter + 2, data } := by
  refine (runs_of_execute stands rfl).trans (runs_of_execute stands.tail ?_)
  rw [execute, popNat?_push lands]
  rfl

/-- A test leads to the code behind it if the condition is true, and skips some of that code if
it is not. -/
theorem runs_branchUnless {skipped : Nat}
    (stands : Stands code counter (Code.branchUnless condition skipped))
    (tests : Performs ops pad condition data (data.push [word])) :
    Runs ops pad code { counter, data }
      { counter :=
          if ops.holds word then counter + (Code.branchUnless condition skipped).length
          else counter + (Code.branchUnless condition skipped).length + skipped
        data } := by
  have negates : Performs ops pad (condition ++ [.op .not]) data (data.push [ops.not word]) :=
    tests.append (.instruction rfl)
  have parts : Code.branchUnless condition skipped =
      (condition ++ [.op .not]) ++ [.push (.target (skipped + 2)), .op .cjmp] := by
    simp [Code.branchUnless]
  rw [parts] at stands ⊢
  let middle := counter + (condition ++ [Instruction.op .not]).length
  have lands : (middle + (skipped + 2) : Int) = (middle + 2 + skipped : Nat) := by
    push_cast
    omega
  have jumps : Runs ops pad code { counter := middle, data := data.push [ops.not word] } _ :=
    runs_branch stands.right lands
  rw [ops.holds_not] at jumps
  have runs := (negates stands.left).trans jumps
  rw [List.length_append, ← Nat.add_assoc]
  cases holds : ops.holds word with
  | true =>
    rw [holds] at runs
    exact runs
  | false =>
    rw [holds] at runs
    exact runs

variable (tests : Performs ops pad condition data (data.push [word]))

include tests

/-- Some code under a condition performs what the code performs if the condition is true. -/
theorem Performs.ifThen_taken (holds : ops.holds word = true)
    (performs : Performs ops pad consequent data after) :
    Performs ops pad (Code.ifThen condition consequent) data after := by
  intro code counter stands
  have enters := runs_branchUnless stands.left tests
  rw [if_pos holds] at enters
  rw [Code.ifThen, List.length_append, ← Nat.add_assoc]
  exact enters.trans (performs stands.right)

/-- Some code under a condition does nothing if the condition is false. -/
theorem Performs.ifThen_skipped (fails : ops.holds word = false) :
    Performs ops pad (Code.ifThen condition consequent) data data := by
  intro code counter stands
  have skips := runs_branchUnless stands.left tests
  rw [if_neg (Bool.eq_false_iff.mp fails)] at skips
  rw [Code.ifThen, List.length_append, ← Nat.add_assoc]
  exact skips

/-- One of two pieces of code, chosen by a condition, performs what the first performs if the
condition is true. -/
theorem Performs.ifThenElse_taken (holds : ops.holds word = true)
    (performs : Performs ops pad consequent data after) :
    Performs ops pad (Code.ifThenElse condition consequent alternative) data after := by
  intro code counter stands
  have enters := runs_branchUnless stands.left.left tests
  rw [if_pos holds] at enters
  have lands :
      (counter +
        (Code.branchUnless condition
          (consequent ++ Code.skipForward alternative.length).length).length +
        consequent.length : Nat) + (alternative.length + 2 : Int) =
      (counter + (Code.ifThenElse condition consequent alternative).length : Nat) := by
    simp only [Code.ifThenElse, Code.skipForward, List.length_append, List.length_cons,
      List.length_nil]
    push_cast
    omega
  have leaves : Runs ops pad code _ { counter := _, data := after } :=
    runs_jump stands.left.right.right lands
  exact (enters.trans (performs stands.left.right.left)).trans leaves

/-- One of two pieces of code, chosen by a condition, performs what the second performs if the
condition is false. -/
theorem Performs.ifThenElse_skipped (fails : ops.holds word = false)
    (performs : Performs ops pad alternative data after) :
    Performs ops pad (Code.ifThenElse condition consequent alternative) data after := by
  intro code counter stands
  have skips := runs_branchUnless stands.left.left tests
  rw [if_neg (Bool.eq_false_iff.mp fails), Nat.add_assoc, ← List.length_append] at skips
  rw [Code.ifThenElse, List.length_append, ← Nat.add_assoc]
  exact skips.trans (performs stands.right)

/-- A loop does nothing if its condition is false. -/
theorem Performs.repeatWhile_done (fails : ops.holds word = false) :
    Performs ops pad (Code.repeatWhile condition body) data data := by
  intro code counter stands
  have skips := runs_branchUnless stands.left.left tests
  rw [if_neg (Bool.eq_false_iff.mp fails), Nat.add_assoc] at skips
  rw [Code.repeatWhile, List.append_assoc, List.length_append, List.length_append]
  exact skips

/-- A loop whose condition is true performs what its body and then the loop again perform. -/
theorem Performs.repeatWhile_again (holds : ops.holds word = true)
    (once : Performs ops pad body data between)
    (again : Performs ops pad (Code.repeatWhile condition body) between after) :
    Performs ops pad (Code.repeatWhile condition body) data after := by
  intro code counter stands
  have enters := runs_branchUnless stands.left.left tests
  rw [if_pos holds] at enters
  have lands : (counter + (Code.branchUnless condition (body.length + 2) ++ body).length : Nat) +
      (-((Code.branchUnless condition (body.length + 2)).length + body.length : Nat) : Int) =
        counter := by
    rw [List.length_append]
    omega
  have returns : Runs ops pad code _ { counter, data := between } := runs_jump stands.right lands
  rw [List.length_append, ← Nat.add_assoc] at returns
  exact ((enters.trans (once stands.left.right)).trans returns).trans (again stands)

end Jumps

end Machine

end PadLang
