/-
This file divides code at its labels and follows control through the parts.

A section is what stands from one label to the next: a function, or the statements of the program
itself. It opens one frame behind its label and closes it at its end. A function never comes to
its end, since it always returns before; the program itself halts there. Control that starts at
the label of a section stays in the section, and every line it comes to is one that control can
come to, with the frames that the lines before have left open.
-/

import PadLang.Proofs.Flow.Paths

namespace PadLang

/-- Whether control may go on at the instruction behind. -/
def Instruction.fallsThrough : Instruction → Bool
  | .op .jmp | .op .ret | .op .halt => false
  | _ => true

namespace Flow

open Code (pushInt)
open Machine (Stands)

/-! ### Successors -/

/-- Control can go from one instruction to another: to the next one, or to the target of a jump,
which is relative to the instruction in front of the jump that pushes it. A conditional jump can do
both, and a call goes on behind when the function has returned. -/
inductive Leads (code : Code) : Nat → Nat → Prop where
  | next {counter instruction} (found : code[counter]? = some instruction)
      (goesOn : instruction.fallsThrough = true) : Leads code counter (counter + 1)
  | jump {counter target : Nat} {offset : Int} {opcode}
      (pushed : code[counter]? = some (.push (.target offset)))
      (jumps : code[counter + 1]? = some (.op opcode)) (isJump : opcode = .cjmp ∨ opcode = .jmp)
      (lands : counter + offset = target) : Leads code (counter + 1) target

/-- Control can come from one instruction to another. -/
abbrev Reaches (code : Code) : Nat → Nat → Prop := Relation.ReflTransGen (Leads code)

section Steps

variable {lines : List Line} {counter next : Nat} {line : Line}

variable
  (flows : ∀ counter line, lines[counter]? = some line →
    ∃ low high, Flows lines low high counter line)

include flows

/-- Where control goes from a line it finds the frames that the instruction leaves open. -/
theorem Leads.joins (leads : Leads (codeOf lines) counter next)
    (found : lines[counter]? = some line) :
    ∃ opened, Moves ((codeOf lines).take counter) line.place.opened opened line.instruction ∧
      Joins lines next { line.place with opened } := by
  cases leads with
  | next isInstruction goesOn =>
    cases isInstruction.symm.trans (instruction_of_line found)
    obtain ⟨low, high, flow⟩ := flows counter line found
    exact flow.next (by rintro same; rw [same] at goesOn; cases goesOn)
      (by rintro same; rw [same] at goesOn; cases goesOn)
  | @jump before _ offset opcode pushed jumps isJump lands =>
    obtain ⟨first, isFirst, isPush⟩ := exists_line pushed
    obtain ⟨low, high, flow⟩ := flows before first isFirst
    obtain ⟨_, other, target, isLine, _, landsThere, _, _, joins⟩ := flow.jump offset isPush
    cases found.symm.trans isLine
    obtain rfl : next = target := by
      rw [lands] at landsThere
      exact Int.ofNat.inj landsThere
    refine ⟨first.place.opened, ?_, joins⟩
    cases jumps.symm.trans (instruction_of_line isLine)
    rcases isJump with rfl | rfl <;> rfl

/-- A line to which control can come leads to such lines only. -/
theorem Leads.step (leads : Leads (codeOf lines) counter next) (found : lines[counter]? = some line)
    (live : line.place.live = true) :
    ∃ after, lines[next]? = some after ∧ after.instruction.isLabel = false ∧
      after.place.live = true ∧
      Moves ((codeOf lines).take counter) line.place.opened after.place.opened
        line.instruction := by
  obtain ⟨opened, moves, joins⟩ := leads.joins flows found
  obtain ⟨after, isAfter, notLabel, isLive⟩ := joins.live live
  obtain ⟨sameOpened, _⟩ := joins.same after isAfter notLabel
  exact ⟨after, isAfter, notLabel, isLive, sameOpened ▸ moves⟩

end Steps

/-! ### Sections -/

/-- A part of the code between two labels: its name, the frame of the arguments if it is a
function, the frame that it opens itself, and the lines inside that frame. -/
structure Section where
  name : String
  caller : Option OpenFrame
  frame : OpenFrame
  body : List Line

namespace Section

/-- The place at the label of a section. -/
def entry (part : Section) : Place :=
  { opened := [], around := part.caller.toList, live := true }

/-- The lines of a section in its own frame. -/
def framed (part : Section) : List Line :=
  part.entry.lines [pushInt part.frame.cells, .op .oframe] ++ part.body ++
    ((part.entry.enter part.frame).after part.caller.isSome).lines [.op .cframe]

/-- The lines of a section: functions always return, and the program halts at its end. -/
def lines (part : Section) : List Line :=
  part.entry.lines [.label part.name] ++ part.framed ++
    part.entry.lines (if part.caller.isSome then [] else [.op .halt])

/-- A section is laid out in its own frame. -/
structure LaidOut (functions : Functions) (vars : ScopeId → Vars) (scopes : List ScopeId)
    (part : Section) : Prop where
  sized : ∀ scope ∈ part.frame.scope, part.frame.cells = (vars scope).cells
  inside : Laid functions vars (part.entry.enter part.frame) part.body part.caller.isSome scopes

variable {functions : Functions} {vars : ScopeId → Vars} {scopes : List ScopeId} {part : Section}
  {lines : List Line} {start : Nat}

theorem length_framed (part : Section) : part.framed.length = part.body.length + 3 := by
  simp only [framed, List.length_append, length_lines, List.length_cons, List.length_nil]
  omega

/-- The number of lines of a section is that of its body, its label, the frame, and the end of the
program. -/
theorem length_lines_eq (part : Section) :
    part.lines.length = part.body.length + 4 + if part.caller.isSome then 0 else 1 := by
  simp only [Section.lines, List.length_append, length_lines, length_framed, List.length_cons,
    List.length_nil]
  split
  · rw [List.length_nil]
    omega
  · rw [List.length_cons, List.length_nil]
    omega

variable (laidOut : part.LaidOut functions vars scopes)

include laidOut

/-- Control flows through a section that stands in front of a label or at the end, and jumps land
strictly inside it. -/
theorem LaidOut.flow (stands : Stands lines start part.lines)
    (behind : ∀ line, lines[start + part.lines.length]? = some line →
      line.instruction.isLabel = true) :
    AllFlow lines (start + 1) (start + part.lines.length - 1) start part.lines := by
  have standsFrame : Stands lines (start + 1) part.framed := stands.left.right
  have exits : Joins lines (start + 1 + part.body.length + 3)
      (part.entry.after part.caller.isSome) := by
    have finish : start + (part.entry.lines [.label part.name] ++ part.framed).length =
        start + 1 + part.body.length + 3 := by
      rw [List.length_append, length_lines, length_framed, List.length_singleton]
      omega
    cases isCaller : part.caller with
    | none =>
      have standsHalt := stands.right
      rw [finish, isCaller] at standsHalt
      rw [Option.isSome_none, Place.after_false]
      exact .of_line standsHalt.head rfl
    | some frame =>
      have length : start + part.lines.length = start + 1 + part.body.length + 3 := by
        rw [length_lines_eq, isCaller, Option.isSome_some, if_pos rfl]
        omega
      rw [length] at behind
      refine ⟨fun line found notLabel => ?_, nofun⟩
      rw [behind line found] at notLabel
      cases notLabel
  have flow := laidOut.inside.framed_flow standsFrame exits
    (laidOut.inside.flow standsFrame.left.right)
  have inside : start + 1 + 2 + part.body.length ≤ start + part.lines.length - 1 := by
    rw [length_lines_eq]
    omega
  refine .append (.append (.cons stands.left.left ⟨fun _ _ => ⟨[], rfl, ?_⟩, nofun, nofun⟩ .nil)
    (flow.mono (by omega) inside)) ?_
  · exact .of_line standsFrame.left.left.head rfl
  · have standsEnd := stands.right
    cases isCaller : part.caller with
    | none =>
      rw [isCaller] at standsEnd
      exact .cons standsEnd ⟨fun _ notHalt => absurd rfl notHalt, nofun, nofun⟩ .nil
    | some frame => exact .nil

theorem LaidOut.laid :
    Laid functions vars part.entry part.framed part.caller.isSome
      (part.frame.scope.toList ++ scopes) :=
  .framed laidOut.sized laidOut.inside

/-- A line of a section is its label, the end of the program, or it stands inside, with the frames
of the caller around it, and finds what it needs. -/
theorem LaidOut.line_cases (stands : Stands lines start part.lines) :
    ∀ counter line, start ≤ counter → counter < start + part.lines.length →
      lines[counter]? = some line →
      (counter = start ∧ line = { instruction := .label part.name, place := part.entry }) ∨
      (line.place.around = part.caller.toList ∧
        Licensed functions vars ((codeOf lines).take counter) line) ∨
      (part.caller = none ∧ counter + 1 = start + part.lines.length ∧
        line = { instruction := .op .halt, place := part.entry }) := by
  refine forall_lines_append (forall_lines_append ?_ ?_) ?_
  · intro counter line least most found
    rw [length_lines, List.length_singleton] at most
    obtain rfl : counter = start := by omega
    exact .inl ⟨rfl, Option.some.inj (found.symm.trans stands.left.left.head)⟩
  · intro counter line least most found
    obtain ⟨member, licensed⟩ := laidOut.laid.licensed.of_stands stands.left.right least most found
    exact .inr (.inl ⟨laidOut.laid.around_eq line member, licensed⟩)
  · intro counter line least most found
    have standsEnd := stands.right
    have whole : part.lines.length = (part.entry.lines [.label part.name] ++ part.framed).length +
        (if part.caller.isSome then [] else [Instruction.op .halt]).length := by
      rw [Section.lines, List.length_append, length_lines _ (ite _ _ _)]
    rw [length_lines] at most
    cases isCaller : part.caller with
    | none =>
      rw [isCaller, Option.isSome_none] at most standsEnd whole
      simp only [Bool.false_eq_true, if_false, List.length_singleton] at most whole
      obtain rfl : counter = start +
          (part.entry.lines [.label part.name] ++ part.framed).length := by omega
      refine .inr (.inr ⟨rfl, by omega, Option.some.inj (found.symm.trans standsEnd.head)⟩)
    | some frame =>
      rw [isCaller, Option.isSome_some, if_pos rfl, List.length_nil] at most
      omega

end Section

/-! ### Whole programs -/

/-- The lines of sections one after the other. -/
def linesOf (parts : List Section) : List Line := parts.flatMap Section.lines

/-- A section has its place among the lines of all sections, behind those of the sections before
it. -/
def Occupies (parts : List Section) (part : Section) (start : Nat) : Prop :=
  ∃ before after, parts = before ++ part :: after ∧ start = (linesOf before).length

namespace Occupies

variable {parts : List Section} {part last : Section} {start : Nat}

theorem member (occupies : Occupies parts part start) : part ∈ parts := by
  obtain ⟨before, after, rfl, _⟩ := occupies
  exact List.mem_append_right _ List.mem_cons_self

theorem linesOf_split (before : List Section) (part : Section) (after : List Section) :
    linesOf (before ++ part :: after) = linesOf before ++ part.lines ++ linesOf after := by
  simp only [linesOf, List.flatMap_append, List.flatMap_cons, List.append_assoc]

theorem stands (occupies : Occupies parts part start) :
    Stands (linesOf parts) start part.lines := by
  obtain ⟨before, after, rfl, rfl⟩ := occupies
  exact ⟨_, _, linesOf_split before part after, rfl⟩

/-- Behind a section there is a label, or the code ends. -/
theorem behind (occupies : Occupies parts part start) (line : Line)
    (found : (linesOf parts)[start + part.lines.length]? = some line) :
    line.instruction.isLabel = true := by
  obtain ⟨before, after, rfl, rfl⟩ := occupies
  rw [linesOf_split, ← List.length_append, List.getElem?_append_right (Nat.le_refl _),
    Nat.sub_self] at found
  cases after with
  | nil => cases found
  | cons next rest =>
    cases found
    rfl

/-- The last section goes to the end of the code, and the other sections do not. -/
theorem append_singleton (occupies : Occupies (parts ++ [last]) part start) :
    (part ∈ parts ∧ start + part.lines.length < (linesOf (parts ++ [last])).length) ∨
      part = last ∧ start + part.lines.length = (linesOf (parts ++ [last])).length := by
  obtain ⟨before, after, same, rfl⟩ := occupies
  rw [same, linesOf_split, List.length_append, List.length_append]
  rcases List.eq_nil_or_concat after with rfl | ⟨others, final, rfl⟩
  · obtain ⟨_, isLast⟩ := List.append_inj' same rfl
    exact .inr ⟨(List.singleton_inj.mp isLast).symm, rfl⟩
  · rw [List.concat_eq_append, ← List.cons_append, ← List.append_assoc] at same
    obtain ⟨rfl, _⟩ := List.append_inj' same rfl
    refine .inl ⟨List.mem_append_right _ List.mem_cons_self, Nat.lt_add_of_pos_right ?_⟩
    rw [List.concat_eq_append, linesOf_split, List.length_append, List.length_append,
      Section.length_lines_eq]
    omega

end Occupies

variable {parts : List Section}

theorem exists_occupies_of_mem {part : Section} (member : part ∈ parts) :
    ∃ start, Occupies parts part start := by
  obtain ⟨before, after, split⟩ := List.append_of_mem member
  exact ⟨_, before, after, split, rfl⟩

theorem exists_occupies {counter : Nat} {line : Line}
    (found : (linesOf parts)[counter]? = some line) :
    ∃ part start, Occupies parts part start ∧ start ≤ counter ∧
      counter < start + part.lines.length := by
  induction parts generalizing counter with
  | nil => cases found
  | cons first rest inductionHypothesis =>
    by_cases inFirst : counter < first.lines.length
    · exact ⟨first, 0, ⟨[], rest, rfl, rfl⟩, Nat.zero_le _, (Nat.zero_add _).symm ▸ inFirst⟩
    · rw [linesOf, List.flatMap_cons, List.getElem?_append_right (Nat.le_of_not_lt inFirst)]
        at found
      obtain ⟨part, _, ⟨before, after, rfl, rfl⟩, least, most⟩ := inductionHypothesis found
      refine ⟨part, _, ⟨first :: before, after, rfl, rfl⟩, ?_⟩
      have length : (linesOf (first :: before)).length =
          first.lines.length + (linesOf before).length := by
        rw [linesOf, List.flatMap_cons, List.length_append]
        rfl
      omega

section Programs

variable {functions : Functions} {vars : ScopeId → Vars} {parts : List Section} {part : Section}
  {start counter next : Nat} {line : Line}

/-- Every section is laid out. -/
def Arranged (functions : Functions) (vars : ScopeId → Vars) (parts : List Section) : Prop :=
  ∀ part ∈ parts, ∃ scopes, part.LaidOut functions vars scopes

variable (arranged : Arranged functions vars parts)

include arranged

theorem Arranged.flow (occupies : Occupies parts part start) :
    AllFlow (linesOf parts) (start + 1) (start + part.lines.length - 1) start part.lines := by
  obtain ⟨scopes, laidOut⟩ := arranged part occupies.member
  exact laidOut.flow occupies.stands occupies.behind

theorem Arranged.flows :
    ∀ counter line, (linesOf parts)[counter]? = some line →
      ∃ low high, Flows (linesOf parts) low high counter line := by
  intro counter line found
  obtain ⟨part, start, occupies, least, most⟩ := exists_occupies found
  exact ⟨_, _, arranged.flow occupies counter line least most found⟩

/-- Every instruction that is neither a label nor the end of the program finds what it needs. -/
theorem Arranged.licensed {instruction : Instruction}
    (found : (codeOf (linesOf parts))[counter]? = some instruction)
    (notLabel : instruction.isLabel = false) (notHalt : instruction ≠ .op .halt) :
    ∃ place, (linesOf parts)[counter]? = some { instruction, place } ∧
      Licensed functions vars ((codeOf (linesOf parts)).take counter) { instruction, place } := by
  obtain ⟨⟨_, place⟩, isLine, rfl⟩ := exists_line found
  refine ⟨place, isLine, ?_⟩
  obtain ⟨part, start, occupies, least, most⟩ := exists_occupies isLine
  obtain ⟨scopes, laidOut⟩ := arranged part occupies.member
  rcases laidOut.line_cases occupies.stands counter _ least most isLine with
    ⟨_, isLabel⟩ | ⟨_, licensed⟩ | ⟨_, _, isHalt⟩
  · cases isLabel
    cases notLabel
  · exact licensed
  · cases isHalt
    exact absurd rfl notHalt

/-- Labels only stand at the beginning of sections. -/
theorem Arranged.label_iff (occupies : Occupies parts part start) (least : start ≤ counter)
    (most : counter < start + part.lines.length) (found : (linesOf parts)[counter]? = some line) :
    line.instruction.isLabel = true ↔ counter = start := by
  obtain ⟨scopes, laidOut⟩ := arranged part occupies.member
  have head : (linesOf parts)[start]? =
      some { instruction := .label part.name, place := part.entry } :=
    occupies.stands.left.left.head
  constructor
  · intro isLabel
    rcases laidOut.line_cases occupies.stands counter line least most found with
      ⟨same, _⟩ | ⟨_, licensed⟩ | ⟨_, _, rfl⟩
    · exact same
    · have transfers := licensed.transfers
      obtain ⟨name, isName⟩ := Instruction.isLabel_iff.mp isLabel
      rw [isName] at transfers
      exact transfers.elim
    · cases isLabel
  · rintro rfl
    cases head.symm.trans found
    rfl

/-- Every label is the beginning of a section. -/
theorem Arranged.exists_occupies_of_label {name : String}
    (isLabel : (codeOf (linesOf parts))[counter]? = some (.label name)) :
    ∃ part, Occupies parts part counter ∧ part.name = name := by
  obtain ⟨line, found, isInstruction⟩ := exists_line isLabel
  obtain ⟨part, start, occupies, least, most⟩ := exists_occupies found
  obtain rfl : counter = start := (arranged.label_iff occupies least most found).mp
    (Instruction.isLabel_iff.mpr ⟨name, isInstruction⟩)
  refine ⟨part, occupies, ?_⟩
  cases found.symm.trans occupies.stands.left.left.head
  cases isInstruction
  rfl

/-- Control that starts at the label of a section stays in the section. -/
theorem Arranged.reaches (occupies : Occupies parts part start)
    (reaches : Reaches (codeOf (linesOf parts)) start counter) :
    ∃ line, (linesOf parts)[counter]? = some line ∧ line.place.live = true ∧
      start ≤ counter ∧ counter < start + part.lines.length := by
  induction reaches with
  | refl =>
    refine ⟨_, occupies.stands.left.left.head, rfl, Nat.le_refl _, ?_⟩
    rw [Section.length_lines_eq]
    omega
  | @tail counter next _ leads inductionHypothesis =>
    obtain ⟨line, found, live, least, most⟩ := inductionHypothesis
    obtain ⟨after, isAfter, notLabel, isLive, _⟩ := leads.step arranged.flows found live
    refine ⟨after, isAfter, isLive, ?_⟩
    cases leads with
    | next _ _ =>
      refine ⟨by omega, Nat.lt_of_le_of_ne most fun atEnd => ?_⟩
      rw [atEnd] at isAfter
      rw [occupies.behind after isAfter] at notLabel
      cases notLabel
    | @jump before _ offset opcode pushed jumps isJump lands =>
      rw [instruction_of_line found] at jumps
      have notStart : before + 1 ≠ start := by
        intro atStart
        have isLabel := (arranged.label_iff occupies least most found).mpr atStart
        rw [Option.some.inj jumps] at isLabel
        cases isLabel
      obtain ⟨first, isFirst, isPush⟩ := exists_line pushed
      have flow := arranged.flow occupies before first (by omega) (by omega) isFirst
      obtain ⟨_, _, target, _, _, landsThere, low, high, _⟩ := flow.jump offset isPush
      obtain rfl : next = target := by
        rw [lands] at landsThere
        exact Int.ofNat.inj landsThere
      omega

end Programs

end Flow

end PadLang
