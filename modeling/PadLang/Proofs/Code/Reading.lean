/-
This file shows that the text of a program for the machine determines the program.

A reader takes the lines of the text apart again. What comes first in a line tells the instructions
apart: labels begin with a point, and a push is followed by a bracket, a plus, a hash sign, a point
or a number. Integers have nothing but digits behind their sign, while floating-point numbers have a
point, an exponent or letters. Each instruction is read back from its line, and no line has a line
feed in it, so the lines of a text are those of its instructions.
-/

import PadLang.Code.Basic
import PadLang.Proofs.Lexing.Spacing

namespace PadLang

/-! ### Numbers -/

namespace Text

/-- The number that digits stand for, with an optional sign in front. -/
def integerValue (text : List Char) : Int :=
  let (negative, digits) := splitSign text
  if negative then -digitsValue digits else digitsValue digits

/-- The characters that integers are written with. -/
def isIntegral (character : Char) : Bool := isDigit character || character == '-'

theorem digitsValue_toDigits (number : Nat) : digitsValue (Nat.toDigits 10 number) = number :=
  Nat.ofDigitChars_toDigits (by decide) (by decide)

theorem isDigit_toDigits (number : Nat) : ∀ digit ∈ Nat.toDigits 10 number, isDigit digit := by
  intro digit member
  have decimal := Nat.isDigit_of_mem_toDigits (by decide) (by decide) member
  rw [Char.isDigit, ← Bool.decide_and] at decimal
  exact decimal

theorem integerValue_toDigits (number : Nat) : integerValue (Nat.toDigits 10 number) = number := by
  rw [integerValue, splitSign_of_digits (isDigit_toDigits number)]
  exact congrArg Nat.cast (digitsValue_toDigits number)

/-- An integer is written with digits, behind a minus sign if it is negative. -/
theorem toList_toString_cases (value : Int) :
    (∃ number : Nat, value = number ∧ (toString value).toList = Nat.toDigits 10 number) ∨
      ∃ number : Nat, value = .negSucc number ∧
        (toString value).toList = '-' :: Nat.toDigits 10 (number + 1) := by
  cases value with
  | ofNat number => exact .inl ⟨number, rfl, Nat.toList_repr⟩
  | negSucc number =>
    refine .inr ⟨number, rfl, ?_⟩
    change ("-" ++ (number + 1).repr).toList = _
    rw [String.toList_append, Nat.toList_repr]
    rfl

theorem isIntegral_toString (value : Int) :
    ∀ character ∈ (toString value).toList, isIntegral character := by
  have digits (number : Nat) : ∀ digit ∈ Nat.toDigits 10 number, isIntegral digit := by
    intro digit member
    rw [isIntegral, isDigit_toDigits number digit member, Bool.true_or]
  rcases toList_toString_cases value with ⟨number, -, text⟩ | ⟨number, -, text⟩
  · rw [text]
    exact digits number
  · rw [text]
    exact List.forall_mem_cons.mpr ⟨rfl, digits _⟩

/-- No operand but a number begins like an integer. -/
theorem notMem_of_isIntegral {character : Char} (integral : isIntegral character) :
    character ∉ ['.', '#', '+', '['] := by
  have differs (other : Char) (fails : isIntegral other = false) :=
    Lexicon.ne_of_passes integral fails
  simp [differs '.' rfl, differs '#' rfl, differs '+' rfl, differs '[' rfl]

theorem starts_toString (value : Int) :
    ∃ first rest, (toString value).toList = first :: rest ∧ first ∉ ['.', '#', '+', '['] := by
  have nonempty : (toString value).toList ≠ [] := by
    rcases toList_toString_cases value with ⟨number, -, text⟩ | ⟨number, -, text⟩ <;> rw [text]
    · exact Nat.toDigits_ne_nil
    · exact List.cons_ne_nil _ _
  have integral := isIntegral_toString value
  obtain ⟨first, rest, text⟩ := List.exists_cons_of_ne_nil nonempty
  rw [text] at integral
  exact ⟨first, rest, text, notMem_of_isIntegral (integral _ List.mem_cons_self)⟩

theorem integerValue_toString (value : Int) : integerValue (toString value).toList = value := by
  rcases toList_toString_cases value with ⟨number, rfl, text⟩ | ⟨number, rfl, text⟩
  · rw [text, integerValue_toDigits]
  · rw [text]
    exact congrArg (fun size : Nat => -(size : Int)) (digitsValue_toDigits (number + 1))

end Text

/-! ### Addresses and colours -/

/-- Reads an address. -/
def Slot.read (text : List Char) : Slot where
  index := Text.digitsValue (text.tail.takeWhile Text.isDigit)
  level := Text.digitsValue ((text.tail.dropWhile Text.isDigit).tail.takeWhile Text.isDigit)

theorem Slot.toList_render (slot : Slot) : slot.render.toList =
    '[' :: (Nat.toDigits 10 slot.index ++ ':' :: (Nat.toDigits 10 slot.level ++ [']'])) := by
  simp [render, Nat.toList_repr]

theorem Slot.read_render (slot : Slot) : read slot.render.toList = slot := by
  have index := Text.isDigit_toDigits slot.index
  have level := Text.isDigit_toDigits slot.level
  rw [toList_render, read, List.tail_cons, List.takeWhile_append_of_pos index,
    List.dropWhile_append_of_pos index]
  change mk (Text.digitsValue (_ ++ [])) (Text.digitsValue ((_ ++ [']']).takeWhile _)) = _
  rw [List.takeWhile_append_of_pos level, List.append_nil, Text.digitsValue_toDigits]
  change mk _ (Text.digitsValue (_ ++ [])) = _
  rw [List.append_nil, Text.digitsValue_toDigits]

theorem Colour.channel?_channelChars (channel : UInt8) :
    channel? (hexDigit (channel.toNat / 16)) (hexDigit (channel.toNat % 16)) = some channel := by
  have digits : ∀ value < 16, hexValue? (hexDigit value) = some value := by decide
  rw [channel?, digits _ (by have := channel.toNat_lt; omega), digits _ (by omega)]
  change some (UInt8.ofNat _) = _
  rw [Nat.div_add_mod]
  exact congrArg some UInt8.ofNat_toNat

theorem Colour.mem_channelChars (channel : UInt8) :
    ∀ digit ∈ channelChars channel, digit ≠ 'P' ∧ digit ≠ '\n' := by
  have digits : ∀ value < 16, hexDigit value ≠ 'P' ∧ hexDigit value ≠ '\n' := by decide
  have small := channel.toNat_lt
  exact List.forall_mem_cons.mpr
    ⟨digits _ (by omega), List.forall_mem_singleton.mpr (digits _ (by omega))⟩

theorem Colour.ofChars?_render (colour : Colour) : ofChars? colour.render.toList = some colour := by
  rw [render, String.toList_ofList]
  change (do
    let red ← channel? _ _
    let green ← channel? _ _
    let blue ← channel? _ _
    return { red, green, blue : Colour }) = _
  rw [channel?_channelChars, channel?_channelChars, channel?_channelChars]
  rfl

/-! ### Floating-point numbers -/

namespace Binary64

/-- A text of one line that begins like no operand but a number and is not that of an integer. -/
structure Apart (text : List Char) : Prop where
  oneLine : '\n' ∉ text
  starts : ∃ first rest, text = first :: rest ∧ first ∉ ['.', '#', '+', '[']
  fractional : ¬ ∀ character ∈ text, Text.isIntegral character

theorem Apart.minus {text : List Char} (apart : Apart text) : Apart ('-' :: text) where
  oneLine := List.not_mem_cons_of_ne_of_not_mem (by decide) apart.oneLine
  starts := ⟨'-', text, rfl, by decide⟩
  fractional all := apart.fractional (List.forall_mem_cons.mp all).2

/-- A number has a point or an exponent behind its first digit. -/
theorem apart_of_mark {first mark : Char} {before after : List Char} (starts : Text.isDigit first)
    (isMark : mark = '.' ∨ mark = 'e')
    (others : ∀ character ∈ before ++ after,
      Text.isDigit character ∨ character = '.' ∨ character = '-') :
    Apart (first :: (before ++ mark :: after)) := by
  refine ⟨fun feed => ?_, ⟨_, _, rfl, Text.notMem_of_isIntegral ?_⟩, fun all => ?_⟩
  · have known : Text.isDigit '\n' ∨ '\n' = '.' ∨ '\n' = '-' ∨ '\n' = 'e' := by grind
    exact absurd known (by decide)
  · rw [Text.isIntegral, starts, Bool.true_or]
  · have integral := all _ (List.mem_cons_of_mem _ (List.mem_append_right _ List.mem_cons_self))
    rcases isMark with rfl | rfl <;> cases integral

namespace Decimal

variable {first : Char} {digits : List Char} {lead : Int} (starts : Text.isDigit first)
  (decimal : ∀ digit ∈ digits, Text.isDigit digit)

include starts decimal

theorem apart_positional : Apart (positional (first :: digits) lead) := by
  have zero (count : Nat) : ∀ digit ∈ zeros count, Text.isDigit digit := by
    intro digit member
    rw [List.eq_of_mem_replicate member]
    rfl
  unfold positional
  split
  · have back := List.forall_mem_append.mpr
      ⟨zero (-lead - 1).toNat, List.forall_mem_cons.mpr ⟨starts, decimal⟩⟩
    change Apart ('0' :: ([] ++ '.' :: (zeros _ ++ first :: digits)))
    exact apart_of_mark rfl (.inl rfl) fun digit member => .inl (back digit member)
  · dsimp only
    split
    · have front := List.forall_mem_append.mpr ⟨List.forall_mem_append.mpr
        ⟨decimal, zero (lead.toNat + 1 - (first :: digits).length)⟩,
          List.forall_mem_singleton.mpr (rfl : Text.isDigit '0' = true)⟩
      exact apart_of_mark starts (.inl rfl) fun digit member => .inl (front digit member)
    · rw [List.take_succ_cons, List.drop_succ_cons, List.append_assoc]
      refine apart_of_mark starts (.inl rfl) fun digit member => .inl (decimal digit ?_)
      rw [← List.take_append_drop lead.toNat digits]
      exact member

theorem apart_scientific : Apart (scientific (first :: digits) lead) := by
  have pointed : ∃ before, Decimal.pointed (first :: digits) = first :: before ∧
      ∀ character ∈ before, Text.isDigit character ∨ character = '.' ∨ character = '-' := by
    cases digits with
    | nil => exact ⟨[], rfl, List.forall_mem_nil _⟩
    | cons second digits =>
      exact ⟨'.' :: second :: digits, rfl, List.forall_mem_cons.mpr
        ⟨.inr (.inl rfl), fun digit member => .inl (decimal digit member)⟩⟩
  obtain ⟨before, isPointed, front⟩ := pointed
  rw [scientific, isPointed, List.append_assoc, List.append_assoc]
  have back : ∀ character ∈ (if lead < 0 then ['-'] else []) ++ Nat.toDigits 10 lead.natAbs,
      Text.isDigit character ∨ character = '.' ∨ character = '-' := by
    refine List.forall_mem_append.mpr
      ⟨?_, fun digit member => .inl (Text.isDigit_toDigits _ digit member)⟩
    split
    · exact List.forall_mem_singleton.mpr (.inr (.inr rfl))
    · exact List.forall_mem_nil _
  exact apart_of_mark starts (.inr rfl) (List.forall_mem_append.mpr ⟨front, back⟩)

end Decimal

theorem Decimal.apart_render (decimal : Decimal) : Apart decimal.render := by
  have decimals := Text.isDigit_toDigits (decimal.trim 20).digits
  obtain ⟨first, digits, isDigits⟩ := List.exists_cons_of_ne_nil
    (Nat.toDigits_ne_nil : Nat.toDigits 10 (decimal.trim 20).digits ≠ [])
  rw [isDigits, List.forall_mem_cons] at decimals
  rw [render, isDigits]
  split
  · exact apart_positional decimals.1 decimals.2
  · exact apart_scientific decimals.1 decimals.2

theorem apart_render (number : Binary64) : Apart number.render.toList := by
  have signed {text : List Char} (apart : Apart text) :
      Apart ((if number.isNegative then ['-'] else []) ++ text) := by
    split
    · exact apart.minus
    · exact apart
  rw [render, String.toList_ofList]
  cases number.magnitude with
  | zero =>
    exact signed ⟨by decide, ⟨'0', _, rfl, by decide⟩, mt List.all_eq_true.mpr (by decide)⟩
  | finite value => exact signed value.shortest.apart_render
  | infinite =>
    exact signed ⟨by decide, ⟨'i', _, rfl, by decide⟩, mt List.all_eq_true.mpr (by decide)⟩
  | notANumber =>
    change Apart ['N', 'a', 'N']
    exact ⟨by decide, ⟨'N', _, rfl, by decide⟩, mt List.all_eq_true.mpr (by decide)⟩

end Binary64

/-! ### Instructions -/

/-- Reads an operand, with a reader for floating-point numbers. -/
def Operand.read? (number? : List Char → Option Binary64) : List Char → Option Operand
  | '.' :: name => some (.label (String.ofList name))
  | '#' :: 'P' :: 'C' :: offset => some (.target (Text.integerValue offset))
  | '#' :: digits => (Colour.ofChars? ('#' :: digits)).map .colour
  | text =>
    if text.all Text.isIntegral then some (.int (Text.integerValue text))
    else (number? text).map .float

/-- Every opcode. -/
def Opcode.all : List Opcode :=
  [.add, .sub, .mul, .div, .mod, .and, .or, .not, .eq, .neq, .lt, .le, .gt, .ge, .st, .sta, .oframe,
   .cframe, .call, .ret, .cjmp, .jmp, .width, .height, .read, .irnd, .print, .printa, .delay,
   .write, .writebox, .clear, .halt]

/-- Reads an instruction, with a reader for floating-point numbers. -/
def Instruction.read? (number? : List Char → Option Binary64) : List Char → Option Instruction
  | '.' :: name => some (.label (String.ofList name))
  | 'p' :: 'u' :: 's' :: 'h' :: ' ' :: '+' :: slot => some (.pushBlock (Slot.read slot))
  | 'p' :: 'u' :: 's' :: 'h' :: ' ' :: '[' :: slot => some (.pushSlot (Slot.read ('[' :: slot)))
  | 'p' :: 'u' :: 's' :: 'h' :: ' ' :: operand => (Operand.read? number? operand).map .push
  | 'p' :: 'u' :: 's' :: 'h' :: 'a' :: ' ' :: slot => some (.pushIndexed (Slot.read slot))
  | text => (Opcode.all.find? fun opcode => opcode.render.toList == text).map .op

variable {number? : List Char → Option Binary64}

/-- The floating-point number that an operand is. -/
def Operand.float? : Operand → Option Binary64
  | .float number => some number
  | _ => none

/-- The name that an operand is. -/
def Operand.name? : Operand → Option String
  | .label name => some name
  | _ => none

namespace Operand

theorem toList_render_label (name : String) : ("." ++ name).toList = '.' :: name.toList := by
  rw [String.toList_append]
  rfl

theorem toList_render_target (offset : Int) :
    (Operand.target offset).render.toList = '#' :: 'P' :: 'C' ::
      ((if offset < 0 then [] else ['+']) ++ (toString offset).toList) := by
  rw [render, String.toList_append]
  split <;> rfl

/-- An operand begins unlike the address of a slot. A number begins like no other operand. -/
theorem starts_render (operand : Operand) :
    ∃ first rest, operand.render.toList = first :: rest ∧ first ∉ ['+', '['] := by
  have number {text : List Char}
      (starts : ∃ first rest, text = first :: rest ∧ first ∉ ['.', '#', '+', '[']) :
      ∃ first rest, text = first :: rest ∧ first ∉ ['+', '['] := by
    obtain ⟨first, rest, text, other⟩ := starts
    exact ⟨first, rest, text, fun member =>
      other (List.mem_cons_of_mem _ (List.mem_cons_of_mem _ member))⟩
  cases operand with
  | int value => exact number (Text.starts_toString value)
  | float value => exact number value.apart_render.starts
  | colour value => exact ⟨'#', _, String.toList_ofList, by decide⟩
  | target offset => exact ⟨'#', _, toList_render_target offset, by decide⟩
  | label name => exact ⟨'.', _, toList_render_label name, by decide⟩

/-- A text that begins like no operand but a number is taken for one. -/
theorem read?_number {text : List Char}
    (starts : ∃ first rest, text = first :: rest ∧ first ∉ ['.', '#', '+', '[']) :
    read? number? text =
      if text.all Text.isIntegral then some (.int (Text.integerValue text))
      else (number? text).map .float := by
  obtain ⟨first, rest, rfl, other⟩ := starts
  unfold read?
  split <;> first | rfl | simp_all

theorem read?_colour (colour : Colour) :
    read? number? colour.render.toList = some (.colour colour) := by
  have chars : colour.render.toList = '#' :: _ := String.toList_ofList
  have whole := colour.ofChars?_render
  rw [chars] at whole ⊢
  rw [read?, whole]
  · rfl
  · intro offset same
    exact (Colour.mem_channelChars colour.red _ List.mem_cons_self).1 (List.cons.inj same).1

theorem read?_target (offset : Int) :
    read? number? (Operand.target offset).render.toList = some (.target offset) := by
  rw [toList_render_target, read?]
  split
  · rw [List.nil_append, Text.integerValue_toString]
  · rename_i notNegative
    rcases Text.toList_toString_cases offset with ⟨number, rfl, text⟩ | ⟨number, rfl, text⟩
    · rw [text]
      exact congrArg (fun size : Nat => some (target size)) (Text.digitsValue_toDigits number)
    · exact absurd (Int.negSucc_lt_zero number) notNegative

theorem read?_render (operand : Operand)
    (reads : ∀ number ∈ operand.float?, number? number.render.toList = some number) :
    read? number? operand.render.toList = some operand := by
  cases operand with
  | int value =>
    rw [render, read?_number (Text.starts_toString value),
      if_pos (List.all_eq_true.mpr (Text.isIntegral_toString value)), Text.integerValue_toString]
  | float number =>
    have apart := number.apart_render
    rw [render, read?_number apart.starts,
      if_neg fun all => apart.fractional (List.all_eq_true.mp all), reads number rfl]
    rfl
  | colour value => exact read?_colour value
  | target offset => exact read?_target offset
  | label name =>
    rw [render, toList_render_label, read?, String.ofList_toList]

/-- The text of an operand has one line, if its name has. -/
theorem oneLine (operand : Operand) (named : ∀ name ∈ operand.name?, '\n' ∉ name.toList) :
    '\n' ∉ operand.render.toList := by
  have integer (value : Int) : '\n' ∉ (toString value).toList := fun feed => by
    cases Text.isIntegral_toString value _ feed
  cases operand with
  | int value => exact integer value
  | float number => exact number.apart_render.oneLine
  | colour value =>
    have chars : value.render.toList = '#' :: _ := String.toList_ofList
    have digits (channel : UInt8) : '\n' ∉ Colour.channelChars channel := fun feed =>
      (Colour.mem_channelChars channel _ feed).2 rfl
    rw [render, chars]
    simp [digits]
  | target offset =>
    have line := integer offset
    rw [toList_render_target]
    generalize (toString offset).toList = digits at line ⊢
    split <;> simp [line]
  | label name =>
    rw [render, toList_render_label]
    simp [named name rfl]

end Operand

/-- The floating-point number that an instruction pushes. -/
def Instruction.float? : Instruction → Option Binary64
  | .push operand => operand.float?
  | _ => none

/-- The name that an instruction sets or pushes. -/
def Instruction.name? : Instruction → Option String
  | .label name => some name
  | .push operand => operand.name?
  | _ => none

theorem Instruction.read?_render (instruction : Instruction)
    (reads : ∀ number ∈ instruction.float?, number? number.render.toList = some number) :
    read? number? instruction.render.toList = some instruction := by
  cases instruction with
  | label name => rw [render, Operand.toList_render_label, read?, String.ofList_toList]
  | push operand =>
    rw [render, String.toList_append]
    obtain ⟨first, rest, text, other⟩ := operand.starts_render
    have pushed := operand.read?_render reads
    rw [text] at pushed ⊢
    change read? number? ('p' :: 'u' :: 's' :: 'h' :: ' ' :: first :: rest) = _
    rw [read?, pushed]
    · rfl
    · rintro slot ⟨⟩
      exact other (by decide)
    · rintro slot ⟨⟩
      exact other (by decide)
  | pushSlot slot =>
    have slotRead := slot.read_render
    rw [Slot.toList_render] at slotRead
    rw [render, String.toList_append, Slot.toList_render]
    exact congrArg (fun slot => some (pushSlot slot)) slotRead
  | pushBlock slot =>
    rw [render, String.toList_append]
    exact congrArg (fun slot => some (pushBlock slot)) slot.read_render
  | pushIndexed slot =>
    rw [render, String.toList_append]
    exact congrArg (fun slot => some (pushIndexed slot)) slot.read_render
  | op opcode => cases opcode <;> rfl

theorem Instruction.oneLine (instruction : Instruction)
    (named : ∀ name ∈ instruction.name?, '\n' ∉ name.toList) :
    '\n' ∉ instruction.render.toList := by
  have number (value : Nat) : '\n' ∉ Nat.toDigits 10 value := fun feed => by
    cases Text.isDigit_toDigits value _ feed
  have slots (slot : Slot) : '\n' ∉ slot.render.toList := by
    rw [Slot.toList_render]
    simp [number]
  cases instruction with
  | label name =>
    rw [render, Operand.toList_render_label]
    simp [named name rfl]
  | push operand => simp [render, operand.oneLine named]
  | pushSlot slot => simp [render, slots]
  | pushBlock slot => simp [render, slots]
  | pushIndexed slot => simp [render, slots]
  | op opcode => cases opcode <;> decide

/-! ### Programs -/

namespace Code

variable {code : Code}

/-- The lines of a text are those of its instructions, and nothing follows the last. -/
theorem splitOn_render (oneLine : ∀ instruction ∈ code, '\n' ∉ instruction.render.toList) :
    code.render.toList.splitOn '\n' = code.lines.map String.toList ++ [[]] := by
  induction code with
  | nil => rfl
  | cons instruction rest inductionHypothesis =>
    obtain ⟨first, others⟩ := List.forall_mem_cons.mp oneLine
    have text : (render (instruction :: rest)).toList =
        instruction.render.toList ++ '\n' :: (render rest).toList := by
      simp [render, lines]
    have passes : ∀ character ∈ instruction.render.toList, (character == '\n') = false :=
      fun character member => beq_false_of_ne fun same => first (same ▸ member)
    rw [text, List.splitOn, List.splitOnP_append_cons_of_forall_mem passes '\n' rfl]
    exact congrArg (instruction.render.toList :: ·) (inductionHypothesis others)

/-- The floating-point numbers that a program pushes. -/
def floats (code : Code) : List Binary64 := code.filterMap Instruction.float?

/-- Instructions are read back if a number can be looked up by its text among those pushed. -/
theorem exists_reader
    (apart : ∀ one ∈ code.floats, ∀ other ∈ code.floats, one.render = other.render → one = other) :
    ∃ number?, ∀ instruction ∈ code,
      Instruction.read? number? instruction.render.toList = some instruction := by
  refine ⟨fun text => code.floats.find? (·.render.toList == text), fun instruction member => ?_⟩
  refine instruction.read?_render fun number isFloat => ?_
  have listed : number ∈ code.floats := List.mem_filterMap.mpr ⟨instruction, member, isFloat⟩
  cases found : code.floats.find? (·.render.toList == number.render.toList) with
  | none => exact absurd (beq_self_eq_true _) (List.find?_eq_none.mp found number listed)
  | some other =>
    have same := List.find?_some found
    exact congrArg some (apart other (List.mem_of_find?_eq_some found) number listed
      (String.toList_inj.mp (eq_of_beq same)))

/-- The text of a program determines the program, if its names are words and its floating-point
numbers have different texts, which asks nothing of a program without any. Each instruction has one
line, so that a distance in the program is one in its text. -/
theorem text_determines_code (first second : Code)
    (named : ∀ instruction ∈ first ++ second, ∀ name ∈ instruction.name?,
      ∀ character ∈ name.toList, Lexicon.isWordCharacter character)
    (apart : ∀ one ∈ floats (first ++ second), ∀ other ∈ floats (first ++ second),
      one.render = other.render → one = other) :
    (first.render = second.render ↔ first = second) ∧
      first.render.toList.splitOn '\n' = first.lines.map String.toList ++ [[]] := by
  have oneLine : ∀ instruction ∈ first ++ second, '\n' ∉ instruction.render.toList := by
    intro instruction member
    refine instruction.oneLine fun name isName feed => ?_
    cases named instruction member name isName _ feed
  obtain ⟨number?, reads⟩ := exists_reader apart
  obtain ⟨oneLineFirst, oneLineSecond⟩ := List.forall_mem_append.mp oneLine
  obtain ⟨readsFirst, readsSecond⟩ := List.forall_mem_append.mp reads
  refine ⟨⟨fun same => ?_, congrArg render⟩, splitOn_render oneLineFirst⟩
  have readBack {code : Code} (reads : ∀ instruction ∈ code,
      Instruction.read? number? instruction.render.toList = some instruction) :
      (code.lines.map String.toList).map (Instruction.read? number?) = code.map some := by
    rw [lines, List.map_map, List.map_map]
    exact List.map_congr_left reads
  have sameLines := splitOn_render oneLineFirst
  rw [same, splitOn_render oneLineSecond] at sameLines
  have sameCode := congrArg (List.map (Instruction.read? number?))
    (List.append_cancel_right sameLines)
  rw [readBack readsFirst, readBack readsSecond] at sameCode
  exact ((List.map_inj_right fun _ _ => Option.some.inj).mp sameCode).symm

/-- Two programs that differ in the place of a jump, with a label and two numbers in front. -/
theorem text_determines_code_example :
    let program (offset : Int) : Code :=
      [.label "main", .push (.float ⟨0⟩), .push (.int 0), .push (.target offset), .op .jmp]
    (program 2).render ≠ (program (-2)).render ∧
      (program 2).render.toList.splitOn '\n' = ((program 2).lines.map String.toList) ++ [[]] := by
  intro program
  have named : ∀ instruction ∈ program 2 ++ program (-2), ∀ name ∈ instruction.name?,
      name.toList.all Lexicon.isWordCharacter := by decide
  have apart : ∀ one ∈ floats (program 2 ++ program (-2)),
      ∀ other ∈ floats (program 2 ++ program (-2)), one.render = other.render → one = other := by
    decide
  obtain ⟨determines, lines⟩ := text_determines_code (program 2) (program (-2))
    (fun _ member _ isName => List.all_eq_true.mp (named _ member _ isName)) apart
  exact ⟨fun same => absurd (determines.mp same) (by decide), lines⟩

end Code

end PadLang
