/-
This file follows the open frames through the code of a whole program.

The lines of a program say which frames are open at each instruction, also at those to which
control never comes. The frames change as the instructions tell, along every way that control can
take and from each instruction to the one behind it. Behind a return they are those that were open
before the return closed any, and at the end of a segment those that were open at its label. Every
frame of a scope has the cells of the variables of that scope, and each scope has its frame.
-/

import PadLang.Proofs.Flow.Confinement

namespace PadLang

namespace Flow

open Code (pushInt)
open Machine (Stands)

variable {instruction : Instruction} {opened : List OpenFrame} {line : Line}

/-! ### Frames of scopes -/

/-- A frame that holds the variables of a scope is that of one of these scopes, and it has the
cells of all its variables. -/
def OpenFrame.Belongs (vars : ScopeId → Vars) (scopes : List ScopeId) (frame : OpenFrame) : Prop :=
  ∀ scope ∈ frame.scope, scope ∈ scopes ∧ frame.cells = (vars scope).cells

section Laid

variable {functions : Functions} {vars : ScopeId → Vars} {place : Place} {lines piece : List Line}
  {leaves : Bool} {scopes all : List ScopeId} {base : Nat}

theorem place_of_mem_lines {code : Code} (member : line ∈ place.lines code) :
    line.place = place := by
  obtain ⟨_, _, rfl⟩ := List.mem_map.mp member
  rfl

theorem frames_of_mem_leaving :
    ∀ line ∈ place.leaving opened, line.place.frames ⊆ opened ++ place.around := by
  induction opened with
  | nil => exact List.forall_mem_singleton.mpr (List.Subset.refl _)
  | cons frame rest inductionHypothesis =>
    refine List.forall_mem_cons.mpr ⟨List.Subset.refl _, fun line member => ?_⟩
    exact List.subset_cons_of_subset frame (inductionHypothesis line member)

/-- All frames that are open in laid-out code are those around it and those of its scopes. -/
theorem Laid.belongs (laid : Laid functions vars place piece leaves scopes)
    (around : ∀ frame ∈ place.frames, frame.Belongs vars all) (among : scopes ⊆ all) :
    ∀ line ∈ piece, ∀ frame ∈ line.place.frames, frame.Belongs vars all := by
  have atPlace {place : Place} {code : Code}
      (around : ∀ frame ∈ place.frames, frame.Belongs vars all) :
      ∀ line ∈ place.lines code, ∀ frame ∈ line.place.frames, frame.Belongs vars all := by
    intro line member
    rw [place_of_mem_lines member]
    exact around
  induction laid with
  | straight _ _ => exact atPlace around
  | append _ _ first second =>
    obtain ⟨amongFirst, amongSecond⟩ := List.append_subset.mp among
    exact List.forall_mem_append.mpr ⟨first around amongFirst, second around amongSecond⟩
  | @framed place body leaves scopes frame sized _ inside =>
    obtain ⟨amongFrame, amongInside⟩ := List.append_subset.mp among
    have entered : ∀ other ∈ (place.enter frame).frames, other.Belongs vars all := by
      refine List.forall_mem_cons.mpr ⟨fun scope isScope => ?_, around⟩
      exact ⟨amongFrame (Option.mem_toList.mpr isScope), sized scope isScope⟩
    simp only [List.forall_mem_append]
    exact ⟨⟨atPlace around, inside entered amongInside⟩, atPlace entered⟩
  | leave _ =>
    intro line member frame isFrame
    exact around frame (frames_of_mem_leaving line member isFrame)
  | ifThen _ _ tests inside =>
    simp only [List.forall_mem_append]
    exact ⟨⟨tests around (List.nil_subset _), atPlace around⟩, inside around among⟩
  | ifThenElse _ _ _ tests inside otherwise =>
    obtain ⟨amongFirst, amongSecond⟩ := List.append_subset.mp among
    simp only [List.forall_mem_append]
    exact ⟨⟨⟨⟨tests around (List.nil_subset _), atPlace around⟩, inside around amongFirst⟩,
      atPlace around⟩, otherwise around amongSecond⟩
  | repeatWhile _ _ tests inside =>
    simp only [List.forall_mem_append]
    exact ⟨⟨⟨tests around (List.nil_subset _), atPlace around⟩, inside around among⟩,
      atPlace around⟩

/-- The number of cells is pushed and the frame is opened. -/
def OpensAt (lines : List Line) (frame : OpenFrame) (counter : Nat) : Prop :=
  ∃ place inner, lines[counter]? = some { instruction := pushInt frame.cells, place } ∧
    lines[counter + 1]? = some { instruction := .op .oframe, place } ∧
    lines[counter + 2]? = some inner ∧ inner.place.frames = frame :: place.frames

/-- Laid-out code opens a frame for each of its scopes. -/
theorem Laid.opens (laid : Laid functions vars place piece leaves scopes)
    (stands : Stands lines base piece) :
    ∀ scope ∈ scopes, ∃ counter,
      OpensAt lines { scope := some scope, cells := (vars scope).cells } counter := by
  induction laid generalizing base with
  | straight _ _ | leave _ => exact List.forall_mem_nil _
  | append _ _ first second =>
    exact List.forall_mem_append.mpr ⟨first stands.left, second stands.right⟩
  | @framed place body leaves scopes frame sized inside opens =>
    refine List.forall_mem_append.mpr ⟨fun scope isScope => ?_, opens stands.left.right⟩
    have owned : frame = { scope := some scope, cells := (vars scope).cells } := by
      obtain ⟨owner, cells⟩ := frame
      obtain rfl : owner = some scope := Option.mem_toList.mp isScope
      exact congrArg (OpenFrame.mk (some scope)) (sized scope rfl)
    subst owned
    have opening := stands.left.left
    rcases inside.entry with ⟨rfl, rfl⟩ | ⟨instruction, rest, rfl, _⟩
    · exact ⟨base, place, _, opening.head, opening.tail.head, stands.right.head, rfl⟩
    · exact ⟨base, place, _, opening.head, opening.tail.head, stands.left.right.head, rfl⟩
  | ifThen _ _ _ inside => exact inside stands.right
  | ifThenElse _ _ _ _ inside otherwise =>
    exact List.forall_mem_append.mpr ⟨inside stands.left.left.right, otherwise stands.right⟩
  | repeatWhile _ _ _ inside => exact inside stands.left.right

end Laid

/-! ### Following the frames -/

/-- The frames that are open at each line. -/
def framesAt (lines : List Line) (counter : Nat) : List OpenFrame :=
  (lines[counter]?).elim [] fun line => line.place.frames

/-- Frames are given to all instructions of code in accordance with what the instructions do.
Code behind a jump is entered with the frames of the jump, and code behind a return with those
that were open before the return began to close them. -/
structure Framing (code : Code) (frames : Nat → List OpenFrame) : Prop where
  follows : ∀ counter next instruction following, code[counter]? = some instruction →
    code[next]? = some following → following.isLabel = false →
    Leads code counter next ∨ instruction = .op .jmp ∧ next = counter + 1 →
    Moves (code.take counter) (frames counter) (frames next) instruction
  resumes : ∀ counter following, code[counter]? = some (.op .ret) →
    code[counter + 1]? = some following → following.isLabel = false →
    ∃ count, List.replicate count (.op .cframe) <:+ code.take counter ∧
      frames (counter + 1) = frames (counter - count)
  closes : ∀ name start last instruction, Segment code name start (last + 1) →
    code[last]? = some instruction →
    Moves (code.take last) (frames last) (frames start) instruction
  outermost : ∀ counter, code[counter]? = some (.label "main") → frames counter = []

theorem framesAt_eq {lines : List Line} {counter : Nat} (found : lines[counter]? = some line) :
    framesAt lines counter = line.place.frames := by
  rw [framesAt, found]
  rfl

/-- What an instruction does to the frames opened since the label it does to all frames. -/
theorem Moves.append {before : Code} {next : List OpenFrame}
    (moves : Moves before opened next instruction) (around : List OpenFrame) :
    Moves before (opened ++ around) (next ++ around) instruction := by
  revert moves
  unfold Moves
  split
  · rintro ⟨frame, rfl, pushed⟩
    exact ⟨frame, rfl, pushed⟩
  · rintro ⟨frame, rfl⟩
    exact ⟨frame, rfl⟩
  · exact congrArg (· ++ around)

section Following

variable {functions : Functions} {vars : ScopeId → Vars} {parts : List Section} {part : Section}
  {start counter next : Nat} {following : Instruction}

theorem Arranged.follows (arranged : Arranged functions vars parts)
    (found : (codeOf (linesOf parts))[counter]? = some instruction)
    (isNext : (codeOf (linesOf parts))[next]? = some following)
    (notLabel : following.isLabel = false) (goes : Leads (codeOf (linesOf parts)) counter next ∨
      instruction = .op .jmp ∧ next = counter + 1) :
    Moves ((codeOf (linesOf parts)).take counter) (framesAt (linesOf parts) counter)
      (framesAt (linesOf parts) next) instruction := by
  obtain ⟨line, isLine, rfl⟩ := exists_line found
  obtain ⟨after, isAfter, rfl⟩ := exists_line isNext
  have joins : ∃ opened,
      Moves ((codeOf (linesOf parts)).take counter) line.place.opened opened line.instruction ∧
        Joins (linesOf parts) next { line.place with opened } := by
    rcases goes with leads | ⟨isJump, rfl⟩
    · exact leads.joins arranged.flows isLine
    · obtain ⟨low, high, flow⟩ := arranged.flows counter line isLine
      exact flow.next (by rw [isJump]; nofun) (by rw [isJump]; nofun)
  obtain ⟨opened, moves, joins⟩ := joins
  obtain ⟨sameOpened, sameAround⟩ := joins.same after isAfter notLabel
  rw [framesAt_eq isLine, framesAt_eq isAfter, Place.frames, Place.frames, sameOpened, sameAround]
  exact moves.append line.place.around

theorem Arranged.resumes (arranged : Arranged functions vars parts)
    (found : (codeOf (linesOf parts))[counter]? = some (.op .ret))
    (isNext : (codeOf (linesOf parts))[counter + 1]? = some following)
    (notLabel : following.isLabel = false) :
    ∃ count, List.replicate count (.op .cframe) <:+ (codeOf (linesOf parts)).take counter ∧
      framesAt (linesOf parts) (counter + 1) = framesAt (linesOf parts) (counter - count) := by
  obtain ⟨line, isLine, isReturn⟩ := exists_line found
  obtain ⟨after, isAfter, rfl⟩ := exists_line isNext
  obtain ⟨low, high, flow⟩ := arranged.flows counter line isLine
  obtain ⟨_, count, first, closing, isFirst, joins⟩ := flow.leave isReturn
  obtain ⟨sameOpened, sameAround⟩ := joins.same after isAfter notLabel
  refine ⟨count, closing, ?_⟩
  rw [framesAt_eq isAfter, framesAt_eq isFirst, Place.frames, Place.frames, sameOpened, sameAround]
  rfl

theorem Occupies.framesAt_eq (occupies : Occupies parts part start) :
    framesAt (linesOf parts) start = part.caller.toList := by
  rw [Flow.framesAt_eq occupies.stands.left.left.head]
  rfl

/-- The last instruction of a section leaves the frames open that were open at its label. -/
theorem Occupies.closes (occupies : Occupies parts part start) {last : Nat}
    (atEnd : last + 1 = start + part.lines.length)
    (found : (codeOf (linesOf parts))[last]? = some instruction) :
    Moves ((codeOf (linesOf parts)).take last) (framesAt (linesOf parts) last)
      (framesAt (linesOf parts) start) instruction := by
  obtain ⟨line, isLine, rfl⟩ := exists_line found
  have stands := occupies.stands
  rw [occupies.framesAt_eq, Flow.framesAt_eq isLine]
  rw [Section.length_lines_eq] at atEnd
  cases isCaller : part.caller with
  | none =>
    rw [isCaller, Option.isSome_none, if_neg Bool.false_ne_true] at atEnd
    have position : start + (part.entry.lines [.label part.name] ++ part.framed).length = last := by
      rw [List.length_append, length_lines, Section.length_framed, List.length_singleton]
      omega
    have halts := stands.right
    rw [position, isCaller] at halts
    cases isLine.symm.trans halts.head
    show _ = part.caller.toList
    rw [isCaller]
  | some frame =>
    rw [isCaller, Option.isSome_some, if_pos rfl] at atEnd
    have position : start + (part.entry.lines [.label part.name]).length +
        (part.entry.lines [pushInt part.frame.cells, .op .oframe] ++ part.body).length = last := by
      simp only [List.length_append, length_lines, List.length_cons, List.length_nil]
      omega
    have closing := stands.left.right.right
    rw [position] at closing
    cases isLine.symm.trans closing.head
    refine ⟨part.frame, ?_⟩
    rw [← isCaller]
    rfl

end Following

/-- In a program that is ready the frames are as the lines tell. -/
theorem Assembled.framing {tree : ScopeTree} {statements : List Stmt} {parts : List Section}
    {main : Section} (ready : Ready tree statements)
    (assembled : Assembled tree statements parts main) :
    Framing (codeOf (linesOf (parts ++ [main]))) (framesAt (linesOf (parts ++ [main]))) where
  follows _ _ _ _ := assembled.arranged.follows
  resumes _ _ := assembled.arranged.resumes
  closes name start last instruction segment found := by
    obtain ⟨part, occupies, _, atEnd⟩ := assembled.arranged.exists_occupies_of_segment segment
    exact occupies.closes atEnd found
  outermost counter isLabel := by
    obtain ⟨part, occupies, isMain⟩ := assembled.arranged.exists_occupies_of_label isLabel
    rcases assembled.section_cases ready occupies with ⟨_, noCaller, _⟩ | ⟨notMain, _⟩
    · rw [occupies.framesAt_eq, noCaller]
      rfl
    · exact absurd isMain notMain

end Flow

end PadLang
