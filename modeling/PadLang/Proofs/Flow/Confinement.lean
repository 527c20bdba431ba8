/-
This file shows that control stays in the part of the code in which it starts.

A segment of code begins with a label and ends in front of the next one. All jumps of a segment
land inside it, behind its label. Control that starts at the label of a function never comes to
the end of its segment: wherever it cannot go on, the function returns. Control that starts at the
entry point, whose segment is the last one, never comes to a return, and where it cannot go on it
is at the last instruction, which halts.
-/

import PadLang.Proofs.Flow.Balance

namespace PadLang

namespace Flow

/-! ### Segments -/

/-- The code from a label on, up to the next label or to the end. -/
structure Segment (code : Code) (name : String) (start stop : Nat) : Prop where
  label : code[start]? = some (.label name)
  inside : ∀ counter other, start < counter → counter < stop →
    code[counter]? ≠ some (.label other)
  behind : stop = code.length ∨ ∃ other, code[stop]? = some (.label other)
  nonempty : start < stop

/-- Control cannot go on. -/
def Ends (code : Code) (counter : Nat) : Prop := ∀ next, ¬Leads code counter next

/-- Jumps land inside a segment, and control that starts at its label does not leave it. Each
target is pushed for the jump behind it. -/
structure Confined (code : Code) (start stop : Nat) : Prop where
  jumps : ∀ counter offset, start ≤ counter → counter < stop →
    code[counter]? = some (.push (.target offset)) →
    offset ≠ 0 ∧
      (code[counter + 1]? = some (.op .cjmp) ∨ code[counter + 1]? = some (.op .jmp)) ∧
      ∃ target : Nat, counter + offset = target ∧ start < target ∧ target < stop
  stays : ∀ counter, Reaches code start counter → start ≤ counter ∧ counter < stop

section Segments

variable {functions : Functions} {vars : ScopeId → Vars} {parts : List Section} {part : Section}
  {start counter stop : Nat} {line : Line} {code : Code} {name : String}

theorem Section.lines_pos (part : Section) : 0 < part.lines.length := by
  rw [Section.length_lines_eq]
  omega

theorem Occupies.stop_le (occupies : Occupies parts part start) :
    start + part.lines.length ≤ (linesOf parts).length := by
  obtain ⟨ahead, behind, same, rfl⟩ := occupies.stands
  rw [same, List.length_append, List.length_append]
  exact Nat.le_add_right _ _

/-- The segments of the code are the sections it was put together from. -/
theorem Arranged.segment (arranged : Arranged functions vars parts)
    (occupies : Occupies parts part start) :
    Segment (codeOf (linesOf parts)) part.name start (start + part.lines.length) where
  label := instruction_of_line occupies.stands.left.left.head
  inside counter other least most isLabel := by
    obtain ⟨line, found, isInstruction⟩ := exists_line isLabel
    have atStart := (arranged.label_iff occupies (Nat.le_of_lt least) most found).mp
      (Instruction.isLabel_iff.mpr ⟨other, isInstruction⟩)
    exact Nat.ne_of_gt least atStart
  behind := by
    rw [length_codeOf]
    rcases Nat.eq_or_lt_of_le occupies.stop_le with atEnd | before
    · exact .inl atEnd
    · have found := List.getElem?_eq_getElem before
      obtain ⟨other, isOther⟩ := Instruction.isLabel_iff.mp (occupies.behind _ found)
      exact .inr ⟨other, (instruction_of_line found).trans (congrArg some isOther)⟩
  nonempty := Nat.lt_add_of_pos_right part.lines_pos

theorem Segment.stop_eq {other : String} {finish : Nat} (segment : Segment code name start stop)
    (same : Segment code other start finish) : stop = finish := by
  -- neither can end inside the other: there is no label inside, and no end of the code
  have notBefore {name other : String} {stop finish : Nat}
      (segment : Segment code name start stop) (same : Segment code other start finish) :
      finish ≤ stop := by
    by_contra beyond
    rw [Nat.not_le] at beyond
    rcases segment.behind with atEnd | ⟨third, isLabel⟩
    · rcases same.behind with rfl | ⟨third, isLabel⟩
      · exact Nat.ne_of_lt beyond atEnd
      · obtain ⟨inside, _⟩ := List.getElem?_eq_some_iff.mp isLabel
        omega
    · exact same.inside stop third segment.nonempty beyond isLabel
  exact Nat.le_antisymm (notBefore same segment) (notBefore segment same)

theorem Arranged.exists_occupies_of_segment (arranged : Arranged functions vars parts)
    (segment : Segment (codeOf (linesOf parts)) name start stop) :
    ∃ part, Occupies parts part start ∧ part.name = name ∧ stop = start + part.lines.length := by
  obtain ⟨part, occupies, named⟩ := arranged.exists_occupies_of_label segment.label
  exact ⟨part, occupies, named, segment.stop_eq (arranged.segment occupies)⟩

/-! ### Staying inside -/

theorem Arranged.confined (arranged : Arranged functions vars parts)
    (occupies : Occupies parts part start) :
    Confined (codeOf (linesOf parts)) start (start + part.lines.length) where
  jumps counter offset least most pushed := by
    obtain ⟨line, found, isPush⟩ := exists_line pushed
    obtain ⟨nonzero, opcode, target, behind, isJump, lands, low, high, _⟩ :=
      (arranged.flow occupies counter line least most found).jump offset isPush
    refine ⟨nonzero, ?_, target, lands, low, ?_⟩
    · rw [instruction_of_line behind]
      exact isJump.imp (fun same => by rw [same]) (fun same => by rw [same])
    · have nonempty := part.lines_pos
      omega
  stays counter reaches := by
    obtain ⟨_, _, _, inside⟩ := arranged.reaches occupies reaches
    exact inside

/-- What stands right before an instruction is the instruction before it. -/
theorem exists_getElem?_of_suffix {instruction before : Instruction}
    (found : code[counter]? = some instruction) (precedes : [before] <:+ code.take counter) :
    ∃ previous, counter = previous + 1 ∧ code[previous]? = some before := by
  obtain ⟨inside, _⟩ := List.getElem?_eq_some_iff.mp found
  obtain ⟨ahead, same⟩ := precedes
  have length : ahead.length + 1 = counter := by
    have lengths := congrArg List.length same
    rw [List.length_append, List.length_singleton, List.length_take] at lengths
    omega
  refine ⟨ahead.length, length.symm, ?_⟩
  have last : (code.take counter)[ahead.length]? = some before := by
    rw [← same, List.getElem?_append_right (Nat.le_refl _), Nat.sub_self]
    rfl
  rwa [List.getElem?_take_of_lt (by omega)] at last

/-- Where control cannot go on, a function returns or the program halts. -/
theorem Arranged.ret_or_halt_of_ends (arranged : Arranged functions vars parts)
    (found : (linesOf parts)[counter]? = some line)
    (ends : Ends (codeOf (linesOf parts)) counter) :
    line.instruction = .op .ret ∨ line.instruction = .op .halt := by
  have isInstruction := instruction_of_line found
  have stops : line.instruction.fallsThrough = false :=
    Bool.eq_false_iff.mpr fun goesOn => ends _ (.next isInstruction goesOn)
  unfold Instruction.fallsThrough at stops
  split at stops
  · rename_i isJump
    -- a jump has its target in front of it, so that control can go on there
    rw [isJump] at isInstruction
    obtain ⟨place, _, licensed⟩ := arranged.licensed isInstruction rfl nofun
    obtain ⟨offset, pushed⟩ := licensed.transfers
    obtain ⟨previous, rfl, isPush⟩ := exists_getElem?_of_suffix isInstruction pushed
    obtain ⟨before, isBefore, isTarget⟩ := exists_line isPush
    obtain ⟨low, high, flows⟩ := arranged.flows previous before isBefore
    obtain ⟨_, _, target, _, _, lands, _⟩ := flows.jump offset isTarget
    exact absurd (.jump isPush isInstruction (.inr rfl) lands) (ends target)
  · rename_i isReturn
    exact .inl isReturn
  · rename_i isHalt
    exact .inr isHalt
  · cases stops

/-- What control comes to from the label of a section is no halt if the section is a function, and
no return if it is not. -/
theorem Arranged.reached_cases (arranged : Arranged functions vars parts)
    (occupies : Occupies parts part start)
    (reaches : Reaches (codeOf (linesOf parts)) start counter) :
    ∃ line, (linesOf parts)[counter]? = some line ∧
      (codeOf (linesOf parts))[counter]? = some line.instruction ∧
      (line.instruction = .op .halt →
        part.caller = none ∧ counter + 1 = start + part.lines.length) ∧
      (line.instruction = .op .ret → part.caller ≠ none) := by
  obtain ⟨line, found, _, least, most⟩ := arranged.reaches occupies reaches
  refine ⟨line, found, instruction_of_line found, ?_⟩
  obtain ⟨scopes, laidOut⟩ := arranged part occupies.member
  rcases laidOut.line_cases occupies.stands counter line least most found with
    ⟨_, rfl⟩ | ⟨around, licensed⟩ | ⟨noCaller, atEnd, rfl⟩
  · exact ⟨nofun, nofun⟩
  · have transfers := licensed.transfers
    constructor
    · intro isHalt
      rw [isHalt] at transfers
      exact transfers.elim
    · intro isReturn noCaller
      rw [isReturn] at transfers
      rw [noCaller] at around
      exact transfers around
  · exact ⟨fun _ => ⟨noCaller, atEnd⟩, nofun⟩

end Segments

/-- Sections of functions are those that are not last, and that are not named as the entry
point. -/
theorem Assembled.section_cases {tree : ScopeTree} {statements : List Stmt}
    {parts : List Section} {main part : Section} {start : Nat} (ready : Ready tree statements)
    (assembled : Assembled tree statements parts main)
    (occupies : Occupies (parts ++ [main]) part start) :
    (part.name = "main" ∧ part.caller = none ∧
      start + part.lines.length = (linesOf (parts ++ [main])).length) ∨
    (part.name ≠ "main" ∧ part.caller ≠ none ∧
      start + part.lines.length < (linesOf (parts ++ [main])).length) := by
  rcases occupies.append_singleton with ⟨member, before⟩ | ⟨rfl, atEnd⟩
  · obtain ⟨statement, isStatement, header, _, _, _, isHeader, _, implements⟩ :=
      assembled.exists_function member
    refine .inr ⟨fun isMain => ready.unreserved ?_, ?_, before⟩
    · rw [← isMain, implements.name]
      exact List.mem_map_of_mem (List.mem_filterMap.mpr ⟨statement, isStatement, isHeader⟩)
    · rw [implements.caller]
      exact Option.some_ne_none _
  · exact .inl ⟨assembled.name, assembled.caller, atEnd⟩

end Flow

open PadLang.Flow

/-- In compiled code control is confined to segments. Every instruction belongs to one, and the
entry point has the last one. From the label of a function control can only end in a return, and
from the entry point only in the halt at the end of the code, without coming to any return. -/
theorem control_confined {tokens : List Token} {program : Program} {product : Product}
    (read : Build.parse tokens = .ok program) (lowered : Build.lower program = .ok product) :
    (∃ start, Segment product.code "main" start product.code.length) ∧
    (∀ counter < product.code.length, ∃ name start stop,
      Segment product.code name start stop ∧ start ≤ counter ∧ counter < stop) ∧
    ∀ name start stop, Segment product.code name start stop →
      Confined product.code start stop ∧
      (name = "main" → stop = product.code.length ∧
        ∀ counter, Reaches product.code start counter →
          product.code[counter]? ≠ some (.op .ret) ∧
          (Ends product.code counter → counter + 1 = product.code.length ∧
            product.code[counter]? = some (.op .halt))) ∧
      (name ≠ "main" → stop < product.code.length ∧
        ∀ counter, Reaches product.code start counter → Ends product.code counter →
          product.code[counter]? = some (.op .ret)) := by
  obtain ⟨analysis, parts, main, _, _, ready, assembled, code⟩ :=
    Build.exists_assembled read lowered
  have arranged := assembled.arranged
  rw [code, length_codeOf]
  refine ⟨?_, ?_, ?_⟩
  · have occupies : Occupies (parts ++ [main]) main (linesOf parts).length := ⟨parts, [], rfl, rfl⟩
    have segment := arranged.segment occupies
    rw [assembled.name] at segment
    rcases assembled.section_cases ready occupies with ⟨_, _, atEnd⟩ | ⟨notMain, _⟩
    · exact ⟨_, atEnd ▸ segment⟩
    · exact absurd assembled.name notMain
  · intro counter inside
    obtain ⟨part, start, occupies, least, most⟩ :=
      exists_occupies (List.getElem?_eq_getElem inside)
    exact ⟨_, start, _, arranged.segment occupies, least, most⟩
  · intro name start stop segment
    obtain ⟨part, occupies, rfl, rfl⟩ := arranged.exists_occupies_of_segment segment
    refine ⟨arranged.confined occupies, ?_, ?_⟩
    · intro isMain
      rcases assembled.section_cases ready occupies with ⟨_, noCaller, atEnd⟩ | ⟨notMain, _⟩
      · refine ⟨atEnd, fun counter reaches => ?_⟩
        obtain ⟨line, found, isInstruction, halts, returns⟩ :=
          arranged.reached_cases occupies reaches
        rw [isInstruction, Ne, Option.some.injEq, Option.some.injEq]
        refine ⟨fun isReturn => returns isReturn noCaller, fun ends => ?_⟩
        rcases arranged.ret_or_halt_of_ends found ends with isReturn | isHalt
        · exact absurd noCaller (returns isReturn)
        · exact ⟨atEnd ▸ (halts isHalt).2, isHalt⟩
      · exact absurd isMain notMain
    · intro notMain
      rcases assembled.section_cases ready occupies with ⟨isMain, _⟩ | ⟨_, hasCaller, before⟩
      · exact absurd isMain notMain
      · refine ⟨before, fun counter reaches ends => ?_⟩
        obtain ⟨line, found, isInstruction, halts, _⟩ :=
          arranged.reached_cases occupies reaches
        rcases arranged.ret_or_halt_of_ends found ends with isReturn | isHalt
        · rw [isInstruction, isReturn]
        · exact absurd (halts isHalt).1 hasCaller

theorem control_confined_searching :
    ∃ program product, Build.parse searchingTokens = .ok program ∧
      Build.lower program = .ok product ∧
      (∃ start, Segment product.code "main" start product.code.length) ∧
      ∃ stop, Segment product.code "f" 0 stop ∧ Confined product.code 0 stop ∧
        stop < product.code.length ∧
        ∀ counter, Reaches product.code 0 counter → Ends product.code counter →
          product.code[counter]? = some (.op .ret) := by
  have seen : (Build.parse searchingTokens >>= Build.lower).toOption.map (·.code[0]?) =
      some (some (.label "f")) := by decide +kernel
  obtain ⟨program, product, read, lowered, label⟩ := Build.exists_of_view seen
  obtain ⟨main, covered, segments⟩ := control_confined read lowered
  obtain ⟨inside, _⟩ := List.getElem?_eq_some_iff.mp label
  obtain ⟨name, start, stop, segment, least, _⟩ := covered 0 inside
  obtain rfl : start = 0 := Nat.le_zero.mp least
  cases segment.label.symm.trans label
  obtain ⟨confined, _, function⟩ := segments "f" 0 stop segment
  obtain ⟨before, returns⟩ := function (by decide)
  exact ⟨program, product, read, lowered, main, stop, segment, confined, before, returns⟩

end PadLang
