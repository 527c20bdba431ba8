/-
This file holds the instructions of the stack machine and their text: one line for each
instruction, so that the relative targets of jumps count lines.
-/

import PadLang.Slot
import PadLang.Colour
import PadLang.Binary64.Shortest

namespace PadLang

/-- What is pushed as it stands. -/
inductive Operand where
  | int (value : Int)
  | float (value : Binary64)
  | colour (value : Colour)
  /-- A place in the code, relative to the instruction that pushes it. -/
  | target (offset : Int)
  /-- The entry of a function. -/
  | label (name : String)
deriving DecidableEq, Repr

/-- The text of an operand. -/
def Operand.render : Operand → String
  | .int value => toString value
  | .float value => value.render
  | .colour value => value.render
  | .target offset => (if offset < 0 then "#PC" else "#PC+") ++ toString offset
  | .label name => "." ++ name

/-- The instructions without an operand. -/
inductive Opcode where
  | add
  | sub
  | mul
  | div
  | mod
  | and
  | or
  | not
  | eq
  | neq
  | lt
  | le
  | gt
  | ge
  | st
  | sta
  | oframe
  | cframe
  | call
  | ret
  | cjmp
  | jmp
  | width
  | height
  | read
  | irnd
  | print
  | printa
  | delay
  | write
  | writebox
  | clear
  | halt
deriving DecidableEq, Repr

/-- The text of an opcode. -/
def Opcode.render : Opcode → String
  | .add => "add"
  | .sub => "sub"
  | .mul => "mul"
  | .div => "div"
  | .mod => "mod"
  | .and => "and"
  | .or => "or"
  | .not => "not"
  | .eq => "eq"
  | .neq => "neq"
  | .lt => "lt"
  | .le => "le"
  | .gt => "gt"
  | .ge => "ge"
  | .st => "st"
  | .sta => "sta"
  | .oframe => "oframe"
  | .cframe => "cframe"
  | .call => "call"
  | .ret => "ret"
  | .cjmp => "cjmp"
  | .jmp => "jmp"
  | .width => "width"
  | .height => "height"
  | .read => "read"
  | .irnd => "irnd"
  | .print => "print"
  | .printa => "printa"
  | .delay => "delay"
  | .write => "write"
  | .writebox => "writebox"
  | .clear => "clear"
  | .halt => "halt"

/-- An instruction. -/
inductive Instruction where
  /-- The entry of a function or of the program. -/
  | label (name : String)
  /-- Pushes an operand. -/
  | push (operand : Operand)
  /-- Pushes the value of a cell. -/
  | pushSlot (slot : Slot)
  /-- Pushes a run of cells, whose number is on the stack. -/
  | pushBlock (slot : Slot)
  /-- Pushes one of a run of cells, whose index is on the stack. -/
  | pushIndexed (slot : Slot)
  /-- Anything else. -/
  | op (opcode : Opcode)
deriving DecidableEq, Repr

/-- The text of an instruction. -/
def Instruction.render : Instruction → String
  | .label name => "." ++ name
  | .push operand => "push " ++ operand.render
  | .pushSlot slot => "push " ++ slot.render
  | .pushBlock slot => "push +" ++ slot.render
  | .pushIndexed slot => "pusha " ++ slot.render
  | .op opcode => opcode.render

/-- Instructions in order. -/
abbrev Code := List Instruction

namespace Code

/-- The lines of a program for the machine. -/
def lines (code : Code) : List String :=
  code.map Instruction.render

/-- The text of a program for the machine. -/
def render (code : Code) : String :=
  String.join (code.lines.map (· ++ "\n"))

end Code

end PadLang
