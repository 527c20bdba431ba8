/-
This file describes code together with the frames that are open at each of its instructions.

A line is an instruction at a place: the frames that were opened since the label before it, the
frames that were open at the label, and whether control can come there. Code is laid out in
lines by the way it was put together. Straight code keeps the frames, a frame is closed where the
code inside it ends, a return closes all frames that its function opened, and jumps only go
around the parts of conditionals and loops. The lines behind a return stand in the frames in
which the return began, but control never comes there.

What an instruction needs is looked for in front of it: the size of a frame that is opened, the
target of a jump, the address in a store.
-/

import PadLang.Proofs.Effects
import PadLang.Proofs.Context

namespace PadLang

open Code (pushInt)

variable {instruction : Instruction}

/-! ### Instructions -/

namespace Instruction

/-- Whether an instruction is a label. -/
def isLabel : Instruction → Bool
  | .label _ => true
  | _ => false

/-- Whether an instruction keeps the open frames and is always followed by the next one. -/
def isSteady : Instruction → Bool
  | .label _ | .push (.target _) => false
  | .op .oframe | .op .cframe | .op .ret | .op .cjmp | .op .jmp | .op .halt => false
  | _ => true

theorem isLabel_iff : instruction.isLabel = true ↔ ∃ name, instruction = .label name := by
  cases instruction <;> simp [isLabel]

theorem isLabel_of_isSteady (steady : instruction.isSteady = true) :
    instruction.isLabel = false := by
  cases instruction with
  | label name => cases steady
  | _ => rfl

end Instruction

namespace Flow

variable {counter : Nat}

/-! ### Places and lines -/

/-- A frame that is open: the scope whose variables it holds, unless it holds the copy of an
array, and the number of its cells. -/
structure OpenFrame where
  scope : Option ScopeId
  cells : Nat
deriving DecidableEq, Repr

/-- What is known about a place in the code: the frames opened since the label before it, the
innermost first, the frames that were open at the label, and whether control can come there. -/
structure Place where
  opened : List OpenFrame
  around : List OpenFrame
  live : Bool
deriving DecidableEq, Repr

namespace Place

/-- All frames that are open at a place, the innermost first. -/
def frames (place : Place) : List OpenFrame := place.opened ++ place.around

/-- The place inside a frame that is opened. -/
def enter (place : Place) (frame : OpenFrame) : Place :=
  { place with opened := frame :: place.opened }

/-- The place behind code that never comes to its end if it `leaves`. -/
def after (place : Place) (leaves : Bool) : Place :=
  { place with live := place.live && !leaves }

@[simp] theorem after_false (place : Place) : place.after false = place := by
  simp [after]

@[simp] theorem after_after (place : Place) (first second : Bool) :
    (place.after first).after second = place.after (first || second) := by
  simp [after, Bool.and_assoc]

@[simp] theorem frames_enter (place : Place) (frame : OpenFrame) :
    (place.enter frame).frames = frame :: place.frames := rfl

end Place

/-- An instruction and its place. -/
structure Line where
  instruction : Instruction
  place : Place
deriving DecidableEq, Repr

/-- Code that stands at one place. -/
def Place.lines (place : Place) (code : Code) : List Line :=
  code.map fun instruction => { instruction, place }

/-- The code of lines. -/
def codeOf (lines : List Line) : Code := lines.map Line.instruction

@[simp] theorem codeOf_nil : codeOf [] = [] := rfl

@[simp] theorem codeOf_cons (line : Line) (rest : List Line) :
    codeOf (line :: rest) = line.instruction :: codeOf rest := rfl

@[simp] theorem codeOf_append (first second : List Line) :
    codeOf (first ++ second) = codeOf first ++ codeOf second := List.map_append

@[simp] theorem codeOf_lines (place : Place) (code : Code) : codeOf (place.lines code) = code := by
  rw [codeOf, Place.lines, List.map_map]
  exact List.map_id code

@[simp] theorem length_codeOf (lines : List Line) : (codeOf lines).length = lines.length :=
  List.length_map _

@[simp] theorem length_lines (place : Place) (code : Code) :
    (place.lines code).length = code.length := List.length_map _

theorem getElem?_codeOf (lines : List Line) (counter : Nat) :
    (codeOf lines)[counter]? = (lines[counter]?).map Line.instruction := List.getElem?_map ..

variable {lines : List Line} {line : Line}

theorem instruction_of_line (found : lines[counter]? = some line) :
    (codeOf lines)[counter]? = some line.instruction := by
  rw [getElem?_codeOf, found]
  rfl

theorem exists_line (found : (codeOf lines)[counter]? = some instruction) :
    ∃ line, lines[counter]? = some line ∧ line.instruction = instruction := by
  rwa [getElem?_codeOf, Option.map_eq_some_iff] at found

/-! ### What instructions need -/

/-- So many cells from an address on are cells of an open frame. -/
def Holds (frames : List OpenFrame) (slot : Slot) (count : Nat) : Prop :=
  ∃ frame, frames[slot.level]? = some frame ∧ slot.index + count ≤ frame.cells

/-- An address is that of a variable, which lies in an open frame of its scope as a whole. It is
told from elsewhere which variables begin where, and how many cells they have. -/
def HoldsVariable (located : ScopeId → Nat → Nat → Prop) (frames : List OpenFrame) (slot : Slot) :
    Prop :=
  ∃ scope cells width, frames[slot.level]? = some { scope := some scope, cells } ∧
    located scope slot.index width ∧ slot.index + width ≤ cells

/-- A reference to memory stays in the open frames. The number of cells and the address of a
store are pushed right before it; an element of an array is anywhere in its variable. -/
def InBounds (located : ScopeId → Nat → Nat → Prop) (frames : List OpenFrame) (before : Code) :
    Instruction → Prop
  | .pushSlot slot => Holds frames slot 1
  | .pushBlock slot => ∃ count : Nat, [pushInt count] <:+ before ∧ Holds frames slot count
  | .pushIndexed slot => HoldsVariable located frames slot
  | .op .st =>
    (∃ index level : Nat, [pushInt index, pushInt level] <:+ before ∧
      Holds frames { index, level } 1) ∨
    ∃ index level : Nat, [pushInt index, .op .add, pushInt level] <:+ before ∧
      HoldsVariable located frames { index, level }
  | .op .sta =>
    ∃ count index level : Nat, [pushInt count, pushInt index, pushInt level] <:+ before ∧
      Holds frames { index, level } count
  | _ => True

/-- Control can be transferred: a jump has its target in front of it, a call the name and the
number of cells of its arguments, and a return is inside a call. Inside a function there are no
labels, and nothing halts. -/
def Transfers (functions : Functions) (place : Place) (before : Code) : Instruction → Prop
  | .label _ | .op .halt => False
  | .op .ret => place.around ≠ []
  | .op .jmp | .op .cjmp => ∃ offset, [.push (.target offset)] <:+ before
  | .op .call =>
    ∃ function signature, functions function = some signature ∧
      [pushInt signature.cells, .push (.label function)] <:+ before
  | _ => True

/-- A variable begins at a cell and has so many cells, where the variables of a scope follow one
another. -/
def locatedIn (vars : ScopeId → Vars) (scope : ScopeId) (index width : Nat) : Prop :=
  ∃ name type, (vars scope).place? name 0 = some (index, type) ∧ width = type.size

/-- An instruction finds what it needs. -/
structure Licensed (functions : Functions) (vars : ScopeId → Vars) (before : Code) (line : Line) :
    Prop where
  inBounds : InBounds (locatedIn vars) line.place.frames before line.instruction
  transfers : Transfers functions line.place before line.instruction

/-- All instructions of lines that stand behind other code find what they need. -/
def allLicensed (functions : Functions) (vars : ScopeId → Vars) (before : Code) :
    List Line → Prop
  | [] => True
  | line :: rest =>
    Licensed functions vars before line ∧
      allLicensed functions vars (before ++ [line.instruction]) rest

section Licences

variable {functions : Functions} {vars : ScopeId → Vars} {before : Code}

theorem InBounds.prepend {located : ScopeId → Nat → Nat → Prop} {frames : List OpenFrame}
    (inBounds : InBounds located frames before instruction) (ahead : Code) :
    InBounds located frames (ahead ++ before) instruction := by
  have longer {part : Code} (part_before : part <:+ before) : part <:+ ahead ++ before :=
    part_before.trans (List.suffix_append ahead before)
  unfold InBounds at inBounds ⊢
  split
  · exact inBounds
  · obtain ⟨count, pushed, holds⟩ := inBounds
    exact ⟨count, longer pushed, holds⟩
  · exact inBounds
  · rcases inBounds with ⟨index, level, pushed, holds⟩ | ⟨index, level, pushed, holds⟩
    · exact .inl ⟨index, level, longer pushed, holds⟩
    · exact .inr ⟨index, level, longer pushed, holds⟩
  · obtain ⟨count, index, level, pushed, holds⟩ := inBounds
    exact ⟨count, index, level, longer pushed, holds⟩
  · trivial

theorem Transfers.prepend {place : Place} (transfers : Transfers functions place before instruction)
    (ahead : Code) : Transfers functions place (ahead ++ before) instruction := by
  have longer {part : Code} (part_before : part <:+ before) : part <:+ ahead ++ before :=
    part_before.trans (List.suffix_append ahead before)
  unfold Transfers at transfers ⊢
  split
  · exact transfers
  · exact transfers
  · exact transfers
  · exact transfers.imp fun _ => longer
  · exact transfers.imp fun _ => longer
  · obtain ⟨function, signature, named, pushed⟩ := transfers
    exact ⟨function, signature, named, longer pushed⟩
  · trivial

variable {second first : List Line}

theorem allLicensed_append :
    allLicensed functions vars before (first ++ second) ↔
      allLicensed functions vars before first ∧
        allLicensed functions vars (before ++ codeOf first) second := by
  induction first generalizing before with
  | nil => simp [allLicensed]
  | cons line rest inductionHypothesis =>
    rw [List.cons_append, allLicensed, allLicensed, inductionHypothesis, codeOf_cons, and_assoc,
      List.append_assoc, List.singleton_append]

theorem allLicensed.prepend (licensed : allLicensed functions vars before lines) (ahead : Code) :
    allLicensed functions vars (ahead ++ before) lines := by
  induction lines generalizing before with
  | nil => trivial
  | cons line rest inductionHypothesis =>
    refine ⟨⟨licensed.1.inBounds.prepend ahead, licensed.1.transfers.prepend ahead⟩, ?_⟩
    rw [List.append_assoc]
    exact inductionHypothesis licensed.2

/-- What is licensed on its own is licensed behind any code. -/
theorem allLicensed.behind {lines : List Line} (licensed : allLicensed functions vars [] lines)
    (ahead : Code) : allLicensed functions vars ahead lines := by
  have behind := licensed.prepend ahead
  rwa [List.append_nil] at behind

theorem allLicensed.append (earlier : allLicensed functions vars [] first)
    (later : allLicensed functions vars [] second) :
    allLicensed functions vars [] (first ++ second) :=
  allLicensed_append.mpr ⟨earlier, later.behind _⟩

theorem allLicensed.getElem? (licensed : allLicensed functions vars before lines)
    (found : lines[counter]? = some line) :
    Licensed functions vars (before ++ codeOf (lines.take counter)) line := by
  induction lines generalizing before counter with
  | nil => cases found
  | cons first rest inductionHypothesis =>
    cases counter with
    | zero =>
      cases found
      simpa using licensed.1
    | succ counter =>
      rw [List.getElem?_cons_succ] at found
      have later := inductionHypothesis licensed.2 found
      rwa [List.append_assoc, List.singleton_append] at later

end Licences

/-! ### Code in lines -/

/-- The lines of a return: frames are closed from the innermost on, and control goes back to the
caller. -/
def Place.leaving (place : Place) : List OpenFrame → List Line
  | [] => [{ instruction := .op .ret, place := { place with opened := [] } }]
  | frame :: rest =>
    { instruction := .op .cframe, place := { place with opened := frame :: rest } } ::
      place.leaving rest

@[simp] theorem codeOf_leaving (place : Place) (opened : List OpenFrame) :
    codeOf (place.leaving opened) = List.replicate opened.length (.op .cframe) ++ [.op .ret] := by
  induction opened with
  | nil => rfl
  | cons frame rest inductionHypothesis =>
    rw [Place.leaving, codeOf_cons, inductionHypothesis]
    rfl

/-- Code is laid out in lines from a place on. It may leave its function, so that control never
comes to its end, and it opens a frame for each of these scopes, in this order. -/
inductive Laid (functions : Functions) (vars : ScopeId → Vars) :
    Place → List Line → Bool → List ScopeId → Prop where
  | straight {place code} (steady : ∀ instruction ∈ code, instruction.isSteady = true)
      (licensed : allLicensed functions vars [] (place.lines code)) :
      Laid functions vars place (place.lines code) false []
  | append {place first second leaves leavesLater scopes others}
      (earlier : Laid functions vars place first leaves scopes)
      (later : Laid functions vars (place.after leaves) second leavesLater others) :
      Laid functions vars place (first ++ second) (leaves || leavesLater) (scopes ++ others)
  | framed {place body leaves scopes} {frame : OpenFrame}
      (sized : ∀ scope ∈ frame.scope, frame.cells = (vars scope).cells)
      (inside : Laid functions vars (place.enter frame) body leaves scopes) :
      Laid functions vars place
        (place.lines [pushInt frame.cells, .op .oframe] ++ body ++
          ((place.enter frame).after leaves).lines [.op .cframe])
        leaves (frame.scope.toList ++ scopes)
  | leave {place : Place} (called : place.around ≠ []) :
      Laid functions vars place (place.leaving place.opened) true []
  | ifThen {place test body leaves scopes} (tests : Laid functions vars place test false [])
      (inside : Laid functions vars place body leaves scopes) :
      Laid functions vars place (test ++ place.lines (Code.branchUnless [] body.length) ++ body)
        false scopes
  | ifThenElse {place test first second leaves leavesOther scopes others}
      (tests : Laid functions vars place test false [])
      (inside : Laid functions vars place first leaves scopes)
      (otherwise : Laid functions vars place second leavesOther others) :
      Laid functions vars place
        (test ++ place.lines (Code.branchUnless [] (first.length + 2)) ++ first ++
          (place.after leaves).lines (Code.skipForward second.length) ++ second)
        (leaves && leavesOther) (scopes ++ others)
  | repeatWhile {place test body leaves scopes} (tests : Laid functions vars place test false [])
      (inside : Laid functions vars place body leaves scopes) :
      Laid functions vars place
        (test ++ place.lines (Code.branchUnless [] (body.length + 2)) ++ body ++
          (place.after leaves).lines (Code.jumpBack (test.length + 3 + body.length)))
        false scopes

section Laid

variable {functions : Functions} {vars : ScopeId → Vars} {place : Place} {lines : List Line}
  {leaves : Bool} {scopes : List ScopeId}

variable {opened : List OpenFrame}

theorem allLicensed_leaving (called : place.around ≠ []) (before : Code) :
    allLicensed functions vars before (place.leaving opened) := by
  induction opened generalizing before with
  | nil => exact ⟨⟨trivial, called⟩, trivial⟩
  | cons frame rest inductionHypothesis => exact ⟨⟨trivial, trivial⟩, inductionHypothesis _⟩

theorem allLicensed_branchUnless (place : Place) (skipped : Nat) :
    allLicensed functions vars [] (place.lines (Code.branchUnless [] skipped)) := by
  refine ⟨⟨trivial, trivial⟩, ⟨trivial, trivial⟩, ⟨trivial, skipped + 2, ?_⟩, trivial⟩
  exact List.suffix_append [Instruction.op .not] _

theorem allLicensed_jump (place : Place) (offset : Int) :
    allLicensed functions vars [] (place.lines [.push (.target offset), .op .jmp]) :=
  ⟨⟨trivial, trivial⟩, ⟨trivial, offset, List.suffix_rfl⟩, trivial⟩

/-- Every instruction of code in lines finds what it needs. -/
theorem Laid.licensed (laid : Laid functions vars place lines leaves scopes) :
    allLicensed functions vars [] lines := by
  induction laid with
  | straight _ licensed => exact licensed
  | append _ _ first second => exact first.append second
  | framed _ _ inside =>
    have opens {place : Place} {cells : Nat} :
        allLicensed functions vars [] (place.lines [pushInt cells, .op .oframe]) :=
      ⟨⟨trivial, trivial⟩, ⟨trivial, trivial⟩, trivial⟩
    exact (opens.append inside).append ⟨⟨trivial, trivial⟩, trivial⟩
  | leave called => exact allLicensed_leaving called []
  | ifThen _ _ tests inside => exact (tests.append (allLicensed_branchUnless _ _)).append inside
  | ifThenElse _ _ _ tests inside otherwise =>
    exact (((tests.append (allLicensed_branchUnless _ _)).append inside).append
      (allLicensed_jump _ _)).append otherwise
  | repeatWhile _ _ tests inside =>
    exact ((tests.append (allLicensed_branchUnless _ _)).append inside).append
      (allLicensed_jump _ _)

/-- Code in lines is empty or begins at the place where it is laid out. -/
theorem Laid.entry (laid : Laid functions vars place lines leaves scopes) :
    (lines = [] ∧ leaves = false) ∨ ∃ instruction rest,
      lines = { instruction, place } :: rest ∧ instruction.isLabel = false := by
  induction laid with
  | @straight place code steady _ =>
    cases code with
    | nil => exact .inl ⟨rfl, rfl⟩
    | cons instruction rest =>
      exact .inr ⟨instruction, place.lines rest, rfl,
        Instruction.isLabel_of_isSteady (steady instruction List.mem_cons_self)⟩
  | append _ _ first second =>
    rcases first with ⟨rfl, rfl⟩ | ⟨instruction, rest, rfl, notLabel⟩
    · rw [Place.after_false] at second
      exact second
    · exact .inr ⟨instruction, rest ++ _, rfl, notLabel⟩
  | framed _ _ _ => exact .inr ⟨_, _, rfl, rfl⟩
  | @leave place _ =>
    obtain ⟨opened, around, live⟩ := place
    cases opened with
    | nil => exact .inr ⟨_, _, rfl, rfl⟩
    | cons frame rest => exact .inr ⟨_, _, rfl, rfl⟩
  | ifThen _ _ tests _ | ifThenElse _ _ _ tests _ _ | repeatWhile _ _ tests _ =>
    rcases tests with ⟨rfl, _⟩ | ⟨instruction, rest, rfl, notLabel⟩
    · exact .inr ⟨_, _, rfl, rfl⟩
    · exact .inr ⟨instruction, _, rfl, notLabel⟩

theorem around_of_mem_leaving :
    ∀ line ∈ place.leaving opened, line.place.around = place.around := by
  induction opened with
  | nil => exact List.forall_mem_singleton.mpr rfl
  | cons frame rest inductionHypothesis => exact List.forall_mem_cons.mpr ⟨rfl, inductionHypothesis⟩

theorem around_of_mem_lines {code : Code} :
    ∀ line ∈ place.lines code, line.place.around = place.around :=
  List.forall_mem_map.mpr fun _ _ => rfl

/-- The frames around a piece of code stay open in all of it. -/
theorem Laid.around_eq (laid : Laid functions vars place lines leaves scopes) :
    ∀ line ∈ lines, line.place.around = place.around := by
  induction laid with
  | straight _ _ => exact around_of_mem_lines
  | append _ _ first second => exact List.forall_mem_append.mpr ⟨first, second⟩
  | framed _ _ inside =>
    simp only [List.forall_mem_append]
    exact ⟨⟨around_of_mem_lines, inside⟩, around_of_mem_lines⟩
  | leave _ => exact around_of_mem_leaving
  | ifThen _ _ tests inside =>
    simp only [List.forall_mem_append]
    exact ⟨⟨tests, around_of_mem_lines⟩, inside⟩
  | ifThenElse _ _ _ tests inside otherwise =>
    simp only [List.forall_mem_append]
    exact ⟨⟨⟨⟨tests, around_of_mem_lines⟩, inside⟩, around_of_mem_lines⟩, otherwise⟩
  | repeatWhile _ _ tests inside =>
    simp only [List.forall_mem_append]
    exact ⟨⟨⟨tests, around_of_mem_lines⟩, inside⟩, around_of_mem_lines⟩

end Laid

end Flow

end PadLang
