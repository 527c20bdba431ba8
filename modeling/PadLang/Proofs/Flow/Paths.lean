/-
This file shows that control keeps to the lines that code is laid out in.

Control goes on at the next instruction, or at the target of a jump, which is relative to the
instruction that pushes it. Wherever laid-out code stands among other lines, control goes from a
line to one at which just the frames are open that the instruction leaves open, and from a line
it can come to, to a line it can come to. The jumps of a piece lead to lines of that piece or to
the line behind it.
-/

import PadLang.Proofs.Flow.Lines

namespace PadLang

namespace Flow

open Code (pushInt)
open Machine (Stands)

variable {line : Line} {base higher : Nat} {second lines first : List Line}

/-! ### From line to line -/

/-- Control that goes on at a line finds the open frames of a place there. It can come to the line
if it can come to the place. No label is in the way. -/
structure Joins (lines : List Line) (counter : Nat) (place : Place) : Prop where
  same : ∀ line, lines[counter]? = some line → line.instruction.isLabel = false →
    line.place.opened = place.opened ∧ line.place.around = place.around
  live : place.live = true → ∃ line, lines[counter]? = some line ∧
    line.instruction.isLabel = false ∧ line.place.live = true

/-- What an instruction does to the frames opened since the label: a frame has the size that is
pushed in front of the instruction that opens it. -/
def Moves (before : Code) (opened next : List OpenFrame) : Instruction → Prop
  | .op .oframe => ∃ frame, next = frame :: opened ∧ [pushInt frame.cells] <:+ before
  | .op .cframe => ∃ frame, opened = frame :: next
  | _ => next = opened

/-- Control goes on from a line to lines that fit, and jumps land between two of them. Behind a
return the frames are open that were open before it closed any. -/
structure Flows (lines : List Line) (low high counter : Nat) (line : Line) : Prop where
  next : line.instruction ≠ .op .ret → line.instruction ≠ .op .halt → ∃ opened,
    Moves ((codeOf lines).take counter) line.place.opened opened line.instruction ∧
      Joins lines (counter + 1) { line.place with opened }
  jump : ∀ offset, line.instruction = .push (.target offset) → offset ≠ 0 ∧ ∃ opcode target,
    lines[counter + 1]? = some { line with instruction := .op opcode } ∧
      (opcode = .cjmp ∨ opcode = .jmp) ∧ (counter : Int) + offset = (target : Nat) ∧
      low ≤ target ∧ target ≤ high ∧ Joins lines target line.place
  leave : line.instruction = .op .ret → line.place.opened = [] ∧ ∃ count start,
    List.replicate count (.op .cframe) <:+ (codeOf lines).take counter ∧
      lines[counter - count]? = some start ∧ Joins lines (counter + 1) (start.place.after true)

section Joining

variable {lines : List Line} {counter : Nat} {place : Place}

theorem Joins.of_line {instruction : Instruction}
    (found : lines[counter]? = some { instruction, place })
    (notLabel : instruction.isLabel = false) : Joins lines counter place where
  same line isLine _ := by
    cases found.symm.trans isLine
    exact ⟨rfl, rfl⟩
  live isLive := ⟨_, found, notLabel, isLive⟩

/-- A line to which control can come may be joined from one to which it cannot. -/
theorem Joins.after {leaves : Bool} (joins : Joins lines counter place) :
    Joins lines counter (place.after leaves) where
  same := joins.same
  live isLive := joins.live (Bool.and_elim_left isLive)

theorem Joins.of_after_and {first second : Bool}
    (joins : Joins lines counter (place.after (first && second))) :
    Joins lines counter (place.after first) ∧ Joins lines counter (place.after second) := by
  refine ⟨⟨joins.same, fun isLive => joins.live ?_⟩, ⟨joins.same, fun isLive => joins.live ?_⟩⟩
  all_goals
    simp only [Place.after, Bool.and_eq_true, Bool.not_eq_true', Bool.and_eq_false_iff] at isLive ⊢
    simp [isLive.1, isLive.2]

theorem Flows.mono {low high lower : Nat} (flows : Flows lines low high counter line)
    (below : lower ≤ low) (above : high ≤ higher) : Flows lines lower higher counter line where
  next := flows.next
  leave := flows.leave
  jump offset isPush := by
    obtain ⟨nonzero, opcode, target, found, isJump, lands, least, most, joins⟩ :=
      flows.jump offset isPush
    exact ⟨nonzero, opcode, target, found, isJump, lands, Nat.le_trans below least,
      Nat.le_trans most above, joins⟩

/-- Control goes on from an instruction that keeps the frames. -/
theorem Flows.of_steady {low high : Nat} (steady : line.instruction.isSteady = true)
    (joins : Joins lines (counter + 1) line.place) : Flows lines low high counter line := by
  obtain ⟨instruction, place⟩ := line
  dsimp only at steady
  refine ⟨fun _ _ => ⟨place.opened, ?_, joins⟩, ?_, ?_⟩
  · unfold Moves
    dsimp only
    split
    · cases steady
    · cases steady
    · rfl
  · rintro offset rfl
    cases steady
  · rintro rfl
    cases steady

end Joining

/-! ### Standing pieces -/

/-- The lines of a piece of code that stands among other lines have a property if they have it
one by one. -/
theorem forall_lines_append {property : Nat → Line → Prop}
    (earlier : ∀ counter line, base ≤ counter → counter < base + first.length →
      lines[counter]? = some line → property counter line)
    (later : ∀ counter line, base + first.length ≤ counter →
      counter < base + first.length + second.length → lines[counter]? = some line →
      property counter line) :
    ∀ counter line, base ≤ counter → counter < base + (first ++ second).length →
      lines[counter]? = some line → property counter line := by
  intro counter line least most found
  rw [List.length_append, ← Nat.add_assoc] at most
  by_cases inFirst : counter < base + first.length
  · exact earlier counter line least inFirst found
  · exact later counter line (Nat.le_of_not_lt inFirst) most found

/-- The lines of a piece find what they need wherever the piece stands. -/
theorem allLicensed.of_stands {functions : Functions} {vars : ScopeId → Vars} {piece : List Line}
    {counter : Nat} (licensed : allLicensed functions vars [] piece)
    (stands : Stands lines base piece) (least : base ≤ counter)
    (most : counter < base + piece.length) (found : lines[counter]? = some line) :
    line ∈ piece ∧ Licensed functions vars ((codeOf lines).take counter) line := by
  obtain ⟨ahead, behind, rfl, rfl⟩ := stands
  obtain ⟨index, rfl⟩ := Nat.exists_eq_add_of_le least
  have inside : index < piece.length := by omega
  rw [List.append_assoc, List.getElem?_append_right (Nat.le_add_right _ _), Nat.add_sub_cancel_left,
    List.getElem?_append_left inside] at found
  refine ⟨List.mem_of_getElem? found, ?_⟩
  have before : (codeOf (ahead ++ piece ++ behind)).take (ahead.length + index) =
      codeOf ahead ++ codeOf (piece.take index) := by
    rw [codeOf, ← List.map_take, List.append_assoc, List.take_length_add_append,
      List.take_append_of_le_length (Nat.le_of_lt inside), List.map_append]
    rfl
  rw [before]
  exact (licensed.behind (codeOf ahead)).getElem? found

section Pieces

variable {functions : Functions} {vars : ScopeId → Vars} {place : Place} {lines piece : List Line}
  {leaves : Bool} {scopes : List ScopeId} {base low high skipped : Nat}

/-- Control flows from every line of a piece that stands at a place among other lines. -/
def AllFlow (lines : List Line) (low high base : Nat) (piece : List Line) : Prop :=
  ∀ counter line, base ≤ counter → counter < base + piece.length → lines[counter]? = some line →
    Flows lines low high counter line

theorem AllFlow.mono {lower : Nat} (flow : AllFlow lines low high base piece) (below : lower ≤ low)
    (above : high ≤ higher) : AllFlow lines lower higher base piece :=
  fun counter line least most found => (flow counter line least most found).mono below above

theorem AllFlow.append (earlier : AllFlow lines low high base first)
    (later : AllFlow lines low high (base + first.length) second) :
    AllFlow lines low high base (first ++ second) :=
  forall_lines_append earlier later

theorem AllFlow.nil : AllFlow lines low high base [] :=
  fun _ _ least most => absurd most (Nat.not_lt_of_le least)

theorem AllFlow.cons {first : Line} {rest : List Line} (stands : Stands lines base (first :: rest))
    (flows : Flows lines low high base first)
    (later : AllFlow lines low high (base + 1) rest) :
    AllFlow lines low high base (first :: rest) := by
  intro counter line least most found
  rcases Nat.eq_or_lt_of_le least with rfl | beyond
  · cases stands.head.symm.trans found
    exact flows
  · refine later counter line beyond ?_ found
    rw [List.length_cons] at most
    omega

theorem allFlow_steady {code : Code} (stands : Stands lines base (place.lines code))
    (exits : Joins lines (base + code.length) place)
    (steady : ∀ instruction ∈ code, instruction.isSteady = true) :
    AllFlow lines low high base (place.lines code) := by
  induction code generalizing base with
  | nil => exact .nil
  | cons instruction rest inductionHypothesis =>
    obtain ⟨steadyFirst, steadyRest⟩ := List.forall_mem_cons.mp steady
    rw [List.length_cons, Nat.add_comm rest.length, ← Nat.add_assoc] at exits
    refine .cons stands (.of_steady steadyFirst ?_)
      (inductionHypothesis stands.tail exits steadyRest)
    cases rest with
    | nil => exact exits
    | cons second rest =>
      exact .of_line stands.tail.head
        (Instruction.isLabel_of_isSteady (steadyRest second List.mem_cons_self))

/-- A jump and the instruction that pushes its target. -/
theorem allFlow_jump {opcode : Opcode} {offset : Int} {target : Nat}
    (stands : Stands lines base (place.lines [.push (.target offset), .op opcode]))
    (isJump : opcode = .cjmp ∨ opcode = .jmp) (nonzero : offset ≠ 0)
    (lands : (base : Int) + offset = target) (least : low ≤ target) (most : target ≤ high)
    (exits : Joins lines (base + 2) place) (joins : Joins lines target place) :
    AllFlow lines low high base (place.lines [.push (.target offset), .op opcode]) := by
  have jumps : lines[base + 1]? = some { instruction := .op opcode, place } := stands.tail.head
  have notLabel : (Instruction.op opcode).isLabel = false := rfl
  refine .cons stands ⟨fun _ _ => ⟨place.opened, rfl, .of_line jumps notLabel⟩, ?_, nofun⟩
    (.cons stands.tail ⟨fun _ _ => ⟨place.opened, ?_, exits⟩, nofun, ?_⟩ .nil)
  · rintro _ ⟨⟩
    exact ⟨nonzero, opcode, target, jumps, isJump, lands, least, most, joins⟩
  · rcases isJump with rfl | rfl <;> rfl
  · rcases isJump with rfl | rfl <;> nofun

/-- A test that skips some of the code behind it. -/
theorem allFlow_branchUnless
    (stands : Stands lines base (place.lines (Code.branchUnless [] skipped))) (least : low ≤ base)
    (most : base + 3 + skipped ≤ high) (enters : Joins lines (base + 3) place)
    (skips : Joins lines (base + 3 + skipped) place) :
    AllFlow lines low high base (place.lines (Code.branchUnless [] skipped)) := by
  have lands : ((base + 1 : Nat) : Int) + (skipped + 2) = (base + 3 + skipped : Nat) := by
    push_cast
    omega
  refine .cons stands (.of_steady rfl (.of_line stands.tail.head rfl)) ?_
  exact allFlow_jump stands.tail (.inl rfl) (by omega) lands (by omega) most enters skips

/-- A return closes the frames one by one. -/
theorem allFlow_leaving {opened : List OpenFrame} {count : Nat} {start : Line}
    (stands : Stands lines base (place.leaving opened))
    (closed : List.replicate count (.op .cframe) <:+ (codeOf lines).take base)
    (found : lines[base - count]? = some start)
    (exits : Joins lines (base + opened.length + 1) (start.place.after true)) :
    AllFlow lines low high base (place.leaving opened) := by
  induction opened generalizing base count with
  | nil =>
    exact .cons stands ⟨nofun, nofun, fun _ => ⟨rfl, count, start, closed, found, exits⟩⟩ .nil
  | cons frame rest inductionHypothesis =>
    have head : lines[base]? =
        some { instruction := .op .cframe, place := { place with opened := frame :: rest } } :=
      stands.head
    have follows : Joins lines (base + 1) { place with opened := rest } := by
      cases rest with
      | nil => exact .of_line stands.tail.head rfl
      | cons second rest => exact .of_line stands.tail.head rfl
    refine .cons stands ⟨fun _ _ => ⟨rest, ⟨frame, rfl⟩, follows⟩, nofun, nofun⟩ ?_
    have fewer : count ≤ base := by
      have short := closed.length_le
      rw [List.length_replicate, List.length_take] at short
      omega
    refine @inductionHypothesis (base + 1) (count + 1) stands.tail ?_ ?_ ?_
    · rw [List.take_add_one, getElem?_codeOf, head, List.replicate_succ']
      obtain ⟨ahead, same⟩ := closed
      exact ⟨ahead, by rw [← same, List.append_assoc]; rfl⟩
    · rw [Nat.add_sub_add_right]
      exact found
    · rw [List.length_cons] at exits
      rw [Nat.add_right_comm base, Nat.add_assoc base]
      exact exits

/-- Control that comes to a piece of code finds its place there. -/
theorem Laid.joins (laid : Laid functions vars place piece leaves scopes)
    (stands : Stands lines base piece)
    (exits : Joins lines (base + piece.length) (place.after leaves)) : Joins lines base place := by
  rcases laid.entry with ⟨rfl, rfl⟩ | ⟨instruction, rest, rfl, notLabel⟩
  · rw [Place.after_false] at exits
    exact exits
  · exact .of_line stands.head notLabel

/-- Control flows through a frame if it flows through the code inside it. The jumps of that code
stay inside the frame. -/
theorem Laid.framed_flow {body : List Line} {frame : OpenFrame}
    (inside : Laid functions vars (place.enter frame) body leaves scopes)
    (stands : Stands lines base (place.lines [pushInt frame.cells, .op .oframe] ++ body ++
      ((place.enter frame).after leaves).lines [.op .cframe]))
    (exits : Joins lines (base + body.length + 3) (place.after leaves))
    (flow : Joins lines (base + 2 + body.length) ((place.enter frame).after leaves) →
      AllFlow lines (base + 2) (base + 2 + body.length) (base + 2) body) :
    AllFlow lines (base + 2) (base + 2 + body.length) base
      (place.lines [pushInt frame.cells, .op .oframe] ++ body ++
        ((place.enter frame).after leaves).lines [.op .cframe]) := by
  have opening := stands.left.left
  have standsBody : Stands lines (base + 2) body := stands.left.right
  have closing : Stands lines (base + 2 + body.length)
      (((place.enter frame).after leaves).lines [.op .cframe]) := by
    have right := stands.right
    rwa [List.length_append, length_lines, ← Nat.add_assoc] at right
  have ends : Joins lines (base + 2 + body.length) ((place.enter frame).after leaves) :=
    .of_line closing.head rfl
  have enters : Joins lines (base + 2) (place.enter frame) := inside.joins standsBody ends
  have pushed : [pushInt frame.cells] <:+ (codeOf lines).take (base + 1) := by
    have head : lines[base]? = some { instruction := pushInt frame.cells, place } := opening.head
    rw [List.take_add_one, getElem?_codeOf, head]
    exact List.suffix_append _ _
  have leavesFrame : Joins lines (base + 2 + body.length + 1) (place.after leaves) := by
    rw [show base + 2 + body.length + 1 = base + body.length + 3 by omega]
    exact exits
  refine .append (.append (.cons opening (.of_steady rfl (.of_line opening.tail.head rfl))
    (.cons opening.tail ⟨fun _ _ => ⟨_, ⟨frame, rfl, pushed⟩, enters⟩, nofun, nofun⟩ .nil))
    (flow ends)) ?_
  rw [List.length_append, length_lines, ← Nat.add_assoc]
  exact .cons closing ⟨fun _ _ => ⟨_, ⟨frame, rfl⟩, leavesFrame⟩, nofun, nofun⟩ .nil

theorem length_branch (skipped : Nat) : (Code.branchUnless [] skipped).length = 3 := rfl

theorem length_skipForward (skipped : Nat) : (Code.skipForward skipped).length = 2 := rfl

theorem length_jumpBack (length : Nat) : (Code.jumpBack length).length = 2 := rfl

/-- Control flows through code from a place on, wherever it stands, and jumps go at most to its
end. -/
def FlowsThrough (lines : List Line) (place : Place) (piece : List Line) (leaves : Bool) : Prop :=
  ∀ ⦃base⦄, Stands lines base piece → Joins lines (base + piece.length) (place.after leaves) →
    AllFlow lines base (base + piece.length) base piece

/-- Control flows through a test and past the code that the test guards. -/
theorem guard_flow {test : List Line}
    (stands : Stands lines base (test ++ place.lines (Code.branchUnless [] skipped)))
    (flow : FlowsThrough lines place test false)
    (enters : Joins lines (base + test.length + 3) place)
    (skips : Joins lines (base + test.length + 3 + skipped) place) :
    AllFlow lines base (base + test.length + 3 + skipped) base
      (test ++ place.lines (Code.branchUnless [] skipped)) := by
  have ends : Joins lines (base + test.length) place := .of_line stands.right.head rfl
  have flowTest := flow stands.left ((Place.after_false place).symm ▸ ends)
  exact .append (flowTest.mono (Nat.le_refl _) (by omega))
    (allFlow_branchUnless stands.right (Nat.le_add_right _ _) (Nat.le_refl _) enters skips)

section Branching

variable {test body first second : List Line} {leavesOther : Bool} {others : List ScopeId}

theorem Laid.ifThen_flow (inside : Laid functions vars place body leaves scopes)
    (flowTest : FlowsThrough lines place test false)
    (flowInside : FlowsThrough lines place body leaves) :
    FlowsThrough lines place (test ++ place.lines (Code.branchUnless [] body.length) ++ body)
      false := by
  intro base stands exits
  have standsBody := stands.right
  simp only [List.length_append, length_lines, length_branch, ← Nat.add_assoc, Place.after_false]
    at standsBody exits ⊢
  refine (guard_flow stands.left flowTest (inside.joins standsBody exits.after) exits).append ?_
  simp only [List.length_append, length_lines, length_branch, ← Nat.add_assoc]
  exact (flowInside standsBody exits.after).mono (by omega) (Nat.le_refl _)

/-- The first branch ends with a jump over the second one. -/
theorem Laid.ifThenElse_flow (inside : Laid functions vars place first leaves scopes)
    (otherwise : Laid functions vars place second leavesOther others)
    (flowTest : FlowsThrough lines place test false)
    (flowInside : FlowsThrough lines place first leaves)
    (flowOther : FlowsThrough lines place second leavesOther) :
    FlowsThrough lines place
      (test ++ place.lines (Code.branchUnless [] (first.length + 2)) ++ first ++
        (place.after leaves).lines (Code.skipForward second.length) ++ second)
      (leaves && leavesOther) := by
  intro base stands exits
  have standsFirst := stands.left.left.right
  have standsSkip := stands.left.right
  have standsSecond := stands.right
  simp only [List.length_append, length_lines, length_branch, length_skipForward, ← Nat.add_assoc]
    at standsFirst standsSkip standsSecond exits ⊢
  obtain ⟨exitsFirst, exitsSecond⟩ := exits.of_after_and
  have otherJoins := otherwise.joins standsSecond exitsSecond
  have skipJoins : Joins lines (base + test.length + 3 + first.length) (place.after leaves) :=
    .of_line standsSkip.head rfl
  have guard := guard_flow stands.left.left.left flowTest (inside.joins standsFirst skipJoins)
    otherJoins
  refine (((guard.mono (Nat.le_refl _) (by omega)).append ?_).append ?_).append ?_
  all_goals
    simp only [List.length_append, length_lines, length_branch, length_skipForward, ← Nat.add_assoc]
  · exact (flowInside standsFirst skipJoins).mono (by omega) (by omega)
  · exact allFlow_jump standsSkip (.inr rfl) (by omega) (by push_cast; omega) (by omega) (by omega)
      otherJoins.after exitsFirst
  · exact (flowOther standsSecond exitsSecond).mono (by omega) (Nat.le_refl _)

/-- The body of a loop ends with a jump back to the test. -/
theorem Laid.repeatWhile_flow (tests : Laid functions vars place test false [])
    (inside : Laid functions vars place body leaves scopes)
    (flowTest : FlowsThrough lines place test false)
    (flowInside : FlowsThrough lines place body leaves) :
    FlowsThrough lines place
      (test ++ place.lines (Code.branchUnless [] (body.length + 2)) ++ body ++
        (place.after leaves).lines (Code.jumpBack (test.length + 3 + body.length)))
      false := by
  intro base stands exits
  have standsBody := stands.left.right
  have standsBack := stands.right
  simp only [List.length_append, length_lines, length_branch, length_jumpBack, ← Nat.add_assoc,
    Place.after_false] at standsBody standsBack exits ⊢
  have backJoins : Joins lines (base + test.length + 3 + body.length) (place.after leaves) :=
    .of_line standsBack.head rfl
  have guard := guard_flow stands.left.left flowTest (inside.joins standsBody backJoins) exits
  have testJoins : Joins lines base place := by
    refine tests.joins stands.left.left.left ?_
    rw [Place.after_false]
    exact .of_line stands.left.left.right.head rfl
  refine (guard.append ?_).append ?_
  all_goals simp only [List.length_append, length_lines, length_branch, ← Nat.add_assoc]
  · exact (flowInside standsBody backJoins).mono (by omega) (by omega)
  · exact allFlow_jump standsBack (.inr rfl) (by omega) (by push_cast; omega) (Nat.le_refl _)
      (by omega) exits.after testJoins.after

end Branching

/-- Control flows through laid-out code. -/
theorem Laid.flow (laid : Laid functions vars place piece leaves scopes) :
    FlowsThrough lines place piece leaves := by
  induction laid with
  | straight steady _ =>
    intro base stands exits
    rw [Place.after_false, length_lines] at exits
    exact allFlow_steady stands exits steady
  | append _ later flowFirst flowSecond =>
    intro base stands exits
    have standsSecond := stands.right
    rw [List.length_append, ← Nat.add_assoc] at exits
    rw [← Place.after_after] at exits
    have between := later.joins standsSecond exits
    rw [List.length_append, ← Nat.add_assoc]
    exact .append ((flowFirst stands.left between).mono (Nat.le_refl _) (Nat.le_add_right _ _))
      ((flowSecond standsSecond exits).mono (Nat.le_add_right _ _) (Nat.le_refl _))
  | @framed place body leaves scopes frame sized inside flowInside =>
    intro base stands exits
    have standsBody : Stands lines (base + 2) body := stands.left.right
    have length : (place.lines [pushInt frame.cells, .op .oframe] ++ body ++
        ((place.enter frame).after leaves).lines [.op .cframe]).length = body.length + 3 := by
      simp only [List.length_append, length_lines, List.length_cons, List.length_nil]
      omega
    rw [length, ← Nat.add_assoc] at exits
    rw [length]
    exact (inside.framed_flow stands exits (flowInside standsBody)).mono (by omega) (by omega)
  | @leave place called =>
    intro base stands exits
    have length : (place.leaving place.opened).length = place.opened.length + 1 := by
      rw [← length_codeOf, codeOf_leaving]
      simp
    rw [length, ← Nat.add_assoc] at exits
    obtain ⟨instruction, rest, same, _⟩ :=
      (Laid.leave called : Laid functions vars _ _ _ _).entry.resolve_left nofun
    have head : lines[base]? = some { instruction, place } := (same ▸ stands).head
    have closed : List.replicate 0 (.op .cframe) <:+ (codeOf lines).take base := List.nil_suffix
    exact allFlow_leaving stands closed head exits
  | ifThen _ inside flowTest flowInside => exact inside.ifThen_flow flowTest flowInside
  | ifThenElse _ inside otherwise flowTest flowInside flowOther =>
    exact inside.ifThenElse_flow otherwise flowTest flowInside flowOther
  | repeatWhile tests inside flowTest flowInside =>
    exact tests.repeatWhile_flow inside flowTest flowInside

end Pieces

end Flow

end PadLang
