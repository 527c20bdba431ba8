/-
This file runs code on the stack machine.

The machine has a stack of words, a list of open frames with the innermost first, and a counter
of instructions. An operation takes its left operand from the top of the stack. The first element
of an array is on top of the others, and instructions that move whole arrays take the number of
elements from the stack. A cell holds nothing before it is written, and a machine that has no way
to go on is stuck: it reads a cell that holds nothing, or one that does not exist, or divides by
zero. Functions and the instructions that ask the outside for something are left out.

Code does not depend on where it stands, so its effect is described by the data before and after
it, whatever surrounds it. The rules about jumps are rules about the three shapes of code that
have jumps in them.
-/

import Mathlib.Logic.Relation
import PadLang.Code.Stmt
import PadLang.Proofs.Words

namespace PadLang

namespace Machine

/-! ### Frames -/

/-- The cells of a frame; those that were not written yet hold nothing. -/
abbrev Frame := List (Option Int)

/-- The words in cells that follow one another. -/
def Frame.read? (frame : Frame) (index count : Nat) : Option (List Int) :=
  if index + count ≤ frame.length then ((frame.drop index).take count).mapM id else none

/-- Writes words into cells that follow one another. -/
def Frame.write? (frame : Frame) (index : Nat) (words : List Int) : Option Frame :=
  if index + words.length ≤ frame.length then
    some (frame.take index ++ words.map some ++ frame.drop (index + words.length))
  else none

theorem mapM_id_map_some (words : List Int) : (words.map some).mapM id = some words := by
  induction words with
  | nil => rfl
  | cons word rest inductionHypothesis =>
    simp [List.mapM_cons, inductionHypothesis]

theorem Frame.read?_append (before after : Frame) (words : List Int) :
    Frame.read? (before ++ words.map some ++ after) before.length words.length = some words := by
  have fits : before.length + words.length ≤ (before ++ words.map some ++ after).length := by
    simp only [List.length_append, List.length_map]
    omega
  rw [read?, if_pos fits, List.append_assoc, List.drop_left,
    List.take_left' (List.length_map some), mapM_id_map_some]

theorem Frame.write?_append (before old after : Frame) (words : List Int)
    (same : old.length = words.length) :
    Frame.write? (before ++ old ++ after) before.length words =
      some (before ++ words.map some ++ after) := by
  have fits : before.length + words.length ≤ (before ++ old ++ after).length := by
    simp only [List.length_append]
    omega
  rw [write?, if_pos fits, ← same, ← List.length_append, List.drop_left, List.append_assoc before,
    List.take_left]

/-! ### Data -/

/-- All that instructions work on but the counter. -/
structure Data where
  stack : List Int
  frames : List Frame
  output : List Event

namespace Data

/-- Puts words on the stack, the first of them on top. -/
def push (words : List Int) (data : Data) : Data :=
  { data with stack := words ++ data.stack }

/-- Takes so many words from the stack. -/
def pop? (count : Nat) (data : Data) : Option (List Int × Data) :=
  if count ≤ data.stack.length then
    some (data.stack.take count, { data with stack := data.stack.drop count })
  else none

/-- Takes a word from the stack. -/
def popWord? (data : Data) : Option (Int × Data) :=
  match data.stack with
  | [] => none
  | word :: stack => some (word, { data with stack })

/-- Takes a number of instructions, cells, frames or words from the stack. -/
def popNat? (data : Data) : Option (Nat × Data) := do
  let (word, data) ← data.popWord?
  return (← word.toNat?, data)

/-- Replaces two operands by a result. -/
def binary? (operation : Int → Int → Option Int) (data : Data) : Option Data := do
  let (left, data) ← data.popWord?
  let (right, data) ← data.popWord?
  return data.push [← operation left right]

/-- Puts the words in cells of a frame on the stack. -/
def load? (level index count : Nat) (data : Data) : Option Data := do
  let frame ← data.frames[level]?
  return data.push (← frame.read? index count)

/-- Writes words into cells of a frame. -/
def store? (level index : Nat) (words : List Int) (data : Data) : Option Data := do
  let frame ← data.frames[level]?
  return { data with frames := data.frames.set level (← frame.write? index words) }

/-- Does something with so many words from the stack. -/
def emit? (effect : Effect) (count : Nat) (data : Data) : Option Data := do
  let (words, data) ← data.pop? count
  return { data with output := data.output ++ [⟨effect, words⟩] }

end Data

/-! ### Instructions -/

section Running

variable (ops : WordOps) (pad : Pad)

/-- What an instruction without an operand does to the data, unless it is a jump. -/
def actOpcode (data : Data) : Opcode → Option Data
  | .add => data.binary? fun left right => some (left + right)
  | .sub => data.binary? fun left right => some (left - right)
  | .mul => data.binary? fun left right => some (left * right)
  | .div => data.binary? fun left right => if right = 0 then none else some (ops.divide left right)
  | .mod => data.binary? fun left right => if right = 0 then none else some (left.tmod right)
  | .and => data.binary? fun left right => some (ops.relate .and left right)
  | .or => data.binary? fun left right => some (ops.relate .or left right)
  | .eq => data.binary? fun left right => some (ops.relate .equal left right)
  | .neq => data.binary? fun left right => some (ops.relate .notEqual left right)
  | .lt => data.binary? fun left right => some (ops.relate .less left right)
  | .le => data.binary? fun left right => some (ops.relate .lessOrEqual left right)
  | .gt => data.binary? fun left right => some (ops.relate .greater left right)
  | .ge => data.binary? fun left right => some (ops.relate .greaterOrEqual left right)
  | .not => do
    let (word, data) ← data.popWord?
    return data.push [ops.not word]
  | .st => do
    let (level, data) ← data.popNat?
    let (index, data) ← data.popNat?
    let (words, data) ← data.pop? 1
    data.store? level index words
  | .sta => do
    let (level, data) ← data.popNat?
    let (index, data) ← data.popNat?
    let (count, data) ← data.popNat?
    let (words, data) ← data.pop? count
    data.store? level index words
  | .oframe => do
    let (count, data) ← data.popNat?
    return { data with frames := List.replicate count none :: data.frames }
  | .cframe =>
    match data.frames with
    | [] => none
    | _ :: frames => some { data with frames }
  | .width => some (data.push [pad.width])
  | .height => some (data.push [pad.height])
  | .print => data.emit? .print 1
  | .printa => do
    let (count, data) ← data.popNat?
    data.emit? .printArray count
  | .delay => data.emit? .delay 1
  | .write => data.emit? .write 3
  | .writebox => data.emit? .writeBox 5
  | .clear => data.emit? .clear 1
  | .call | .ret | .cjmp | .jmp | .read | .irnd | .halt => none

/-- What an instruction does to the data, unless it depends on the counter. -/
def act (data : Data) : Instruction → Option Data
  | .label _ => some data
  | .push (.int value) => some (data.push [value])
  | .push (.colour value) => some (data.push [value.word])
  | .push (.float _) | .push (.target _) | .push (.label _) => none
  | .pushSlot slot => data.load? slot.level slot.index 1
  | .pushBlock slot => do
    let (count, data) ← data.popNat?
    data.load? slot.level slot.index count
  | .pushIndexed slot => do
    let (offset, data) ← data.popNat?
    data.load? slot.level (slot.index + offset) 1
  | .op opcode => actOpcode ops pad data opcode

/-- The state of the machine. -/
structure State where
  counter : Nat
  data : Data

/-- The state after an instruction. -/
def execute (state : State) : Instruction → Option State
  | .push (.target offset) =>
    some { counter := state.counter + 1, data := state.data.push [state.counter + offset] }
  | .op .jmp => do
    let (target, data) ← state.data.popNat?
    return { counter := target, data }
  | .op .cjmp => do
    let (target, data) ← state.data.popNat?
    let (word, data) ← data.popWord?
    return { counter := if ops.holds word then target else state.counter + 1, data }
  | instruction => do
    return { counter := state.counter + 1, data := ← act ops pad state.data instruction }

/-- The next state, unless the machine has stopped. -/
def step (code : Code) (state : State) : Option State := do
  execute ops pad state (← code[state.counter]?)

/-- One state leads to another. -/
def Runs (code : Code) : State → State → Prop :=
  Relation.ReflTransGen fun before after => step ops pad code before = some after

/-- The state in which a program is started: at its entry, with nothing on the stack, no open
frame and nothing shown. -/
def start (code : Code) : State :=
  { counter := code.idxOf (.label "main"), data := { stack := [], frames := [], output := [] } }

/-- The machine, started at the entry of a program, comes to the instruction that stops it. It has
shown these events, its stack is empty, and no frame is open. -/
def Finishes (code : Code) (events : List Event) : Prop :=
  ∃ counter, code[counter]? = some (.op .halt) ∧
    Runs ops pad code (start code)
      { counter, data := { stack := [], frames := [], output := events } }

end Running

end Machine

end PadLang
