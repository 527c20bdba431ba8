/-
This file follows the ways that control takes through code from the moment a frame is open.

A way keeps the instructions that were carried out, in order. They tell how many frames lie above
the frame that is followed, and which of its variables have been stored as a whole. A piece of code
secures its reads if, wherever it stands, control that comes to its beginning with what is asked for
there finds every variable that it reads provided, and leaves the piece only at its end. Such pieces
are put together as code is: one behind the other, under a condition, and in a loop, where what is
known must hold again when control comes back. Ways are followed for a number of steps, so that what
a round of a loop leads to has fewer steps left.
-/

import PadLang.Proofs.Flow.Balance

namespace PadLang

/-- Whether an instruction is a jump. -/
def Instruction.isJump : Instruction → Bool
  | .op .jmp | .op .cjmp => true
  | _ => false

/-- Whether an instruction reads memory. -/
def Instruction.isRead : Instruction → Bool
  | .pushSlot _ | .pushBlock _ | .pushIndexed _ => true
  | _ => false

theorem Instruction.isJump_of_isSteady {instruction : Instruction}
    (steady : instruction.isSteady = true) : instruction.isJump = false := by
  unfold isJump
  split
  · cases steady
  · cases steady
  · rfl

namespace Flow

open Code (pushInt)
open Machine (Stands)

variable {code path : Code} {start counter : Nat}

/-! ### Ways -/

/-- Control comes from an instruction to another one by carrying out these instructions. -/
inductive Way (code : Code) (start : Nat) : Code → Nat → Prop where
  | here : Way code start [] start
  | step {path counter next instruction} (way : Way code start path counter)
      (found : code[counter]? = some instruction) (leads : Leads code counter next) :
      Way code start (path ++ [instruction]) next

/-- The number of frames above a frame after some code, if it was so many before and the frame
has not been closed. -/
def levelFrom? (level : Nat) (path : Code) : Option Nat :=
  path.foldlM (fun level instruction => depthAfter? instruction level) level

/-- The number of frames above the frame that was the innermost one at the start of a path, unless
the path has closed it. -/
def levelAfter? (path : Code) : Option Nat := levelFrom? 0 path

/-- Some words have been stored at once from a cell of the frame on: the number of words, the cell
and the level that the frame has there are pushed right before. -/
inductive Stored : Code → Nat → Nat → Prop where
  | word {earlier later} {index level : Nat} (isLevel : levelAfter? earlier = some level) :
      Stored (earlier ++ [pushInt index, pushInt level, .op .st] ++ later) index 1
  | block {earlier later} {index width level : Nat} (isLevel : levelAfter? earlier = some level) :
      Stored (earlier ++ [pushInt width, pushInt index, pushInt level, .op .sta] ++ later)
        index width

/-- The words of a variable are there: the whole frame was passed by a call, or they have been
stored. -/
def Provided (passed : Bool) (path : Code) (index width : Nat) : Prop :=
  passed = true ∨ Stored path index width

/-- An instruction that reads the frame reads a variable of it, which has been provided as a
whole. It is told from elsewhere which variables begin where, and how many cells they have. -/
def Reading (passed : Bool) (located : Nat → Nat → Prop) (path : Code) : Instruction → Prop
  | .pushSlot slot => levelAfter? path = some slot.level →
      located slot.index 1 ∧ Provided passed path slot.index 1
  | .pushBlock slot => levelAfter? path = some slot.level → ∃ width : Nat,
      [pushInt width] <:+ path ∧ located slot.index width ∧ Provided passed path slot.index width
  | .pushIndexed slot => levelAfter? path = some slot.level → ∃ width,
      located slot.index width ∧ Provided passed path slot.index width
  | _ => True

/-- On every way from an instruction on, what is read from the frame that is the innermost one
there has been provided. -/
def ReadsProvided (passed : Bool) (located : Nat → Nat → Prop) (code : Code) (start : Nat) : Prop :=
  ∀ path counter instruction, Way code start path counter → code[counter]? = some instruction →
    Reading passed located path instruction

/-- All instructions of straight code behind a path read what has been provided. -/
def allReading (passed : Bool) (located : Nat → Nat → Prop) : Code → Code → Prop
  | _, [] => True
  | path, instruction :: rest =>
    Reading passed located path instruction ∧
      allReading passed located (path ++ [instruction]) rest

theorem Way.reaches (way : Way code start path counter) : Reaches code start counter := by
  induction way with
  | here => exact .refl
  | step _ _ leads inductionHypothesis => exact inductionHypothesis.tail leads

theorem levelFrom?_append (level : Nat) (first second : Code) :
    levelFrom? level (first ++ second) = (levelFrom? level first).bind (levelFrom? · second) :=
  List.foldlM_append

theorem levelAfter?_append (path code : Code) :
    levelAfter? (path ++ code) = (levelAfter? path).bind (levelFrom? · code) :=
  levelFrom?_append 0 path code

theorem levelAfter?_eq {level : Nat} (isLevel : levelAfter? path = some level) (code : Code) :
    levelAfter? (path ++ code) = levelFrom? level code := by
  rw [levelAfter?_append, isLevel]
  rfl

theorem levelFrom?_of_isSteady (steady : ∀ instruction ∈ code, instruction.isSteady = true)
    (level : Nat) : levelFrom? level code = some level := by
  induction code with
  | nil => rfl
  | cons instruction rest inductionHypothesis =>
    obtain ⟨steadyFirst, steadyRest⟩ := List.forall_mem_cons.mp steady
    have keeps : depthAfter? instruction level = some level := by
      unfold depthAfter?
      split
      · cases steadyFirst
      · cases steadyFirst
      · cases steadyFirst
      · rfl
    rw [levelFrom?, List.foldlM_cons, keeps]
    exact inductionHypothesis steadyRest

theorem Stored.append {index width : Nat} (stored : Stored path index width) (code : Code) :
    Stored (path ++ code) index width := by
  cases stored with
  | word isLevel =>
    rw [List.append_assoc _ _ code]
    exact .word isLevel
  | block isLevel =>
    rw [List.append_assoc _ _ code]
    exact .block isLevel

section Readings

variable {passed : Bool} {located : Nat → Nat → Prop} {path : Code} {instruction : Instruction}

theorem Reading.of_closed (closed : levelAfter? path = none) :
    Reading passed located path instruction := by
  cases instruction with
  | pushSlot slot | pushBlock slot | pushIndexed slot =>
    intro isLevel
    rw [closed] at isLevel
    cases isLevel
  | _ => trivial

theorem Reading.of_isRead (silent : instruction.isRead = false) :
    Reading passed located path instruction := by
  cases instruction with
  | pushSlot _ | pushBlock _ | pushIndexed _ => cases silent
  | _ => trivial

theorem allReading_of_isRead (silent : ∀ instruction ∈ code, instruction.isRead = false)
    (path : Code) : allReading passed located path code := by
  induction code generalizing path with
  | nil => trivial
  | cons instruction rest inductionHypothesis =>
    obtain ⟨first, others⟩ := List.forall_mem_cons.mp silent
    exact ⟨.of_isRead first, inductionHypothesis others _⟩

end Readings

/-! ### Ways of so many steps -/

theorem Leads.eq_succ {instruction : Instruction} {next : Nat} (leads : Leads code counter next)
    (found : code[counter]? = some instruction) (noJump : instruction.isJump = false) :
    next = counter + 1 ∧ instruction.fallsThrough = true := by
  cases leads with
  | next isInstruction goesOn =>
    cases found.symm.trans isInstruction
    exact ⟨rfl, goesOn⟩
  | jump _ jumps isJump _ =>
    cases found.symm.trans jumps
    rcases isJump with rfl | rfl <;> cases noJump

/-- What is read in so many steps from an instruction on has been provided, if control has come to
the instruction on this path. -/
def ReadsWithin (passed : Bool) (located : Nat → Nat → Prop) (code : Code) :
    (steps counter : Nat) → (path : Code) → Prop
  | 0, _, _ => True
  | steps + 1, counter, path => ∀ instruction, code[counter]? = some instruction →
      Reading passed located path instruction ∧ ∀ next, Leads code counter next →
        ReadsWithin passed located code steps next (path ++ [instruction])

/-- Control may go on for so many steps from an instruction to which it has come on any way of which
this is known. -/
def Continues (passed : Bool) (located : Nat → Nat → Prop) (code : Code) (start steps counter : Nat)
    (known : Code → Prop) : Prop :=
  ∀ path, Way code start path counter → known path →
    ReadsWithin passed located code steps counter path

section Steps

variable {passed : Bool} {located : Nat → Nat → Prop} {code path : Code}
  {start steps fewer counter : Nat} {known other : Code → Prop}

theorem ReadsWithin.mono (reads : ReadsWithin passed located code steps counter path)
    (less : fewer ≤ steps) : ReadsWithin passed located code fewer counter path := by
  induction fewer generalizing steps counter path with
  | zero => trivial
  | succ fewer inductionHypothesis =>
    cases steps with
    | zero => cases less
    | succ steps =>
      intro instruction found
      obtain ⟨reading, goesOn⟩ := reads instruction found
      exact ⟨reading, fun next leads =>
        inductionHypothesis (goesOn next leads) (Nat.le_of_succ_le_succ less)⟩

/-- Nothing is read from a frame that has been closed. -/
theorem ReadsWithin.of_closed (closed : levelAfter? path = none) :
    ReadsWithin passed located code steps counter path := by
  induction steps generalizing counter path with
  | zero => trivial
  | succ steps inductionHypothesis =>
    refine fun instruction _ => ⟨.of_closed closed, fun next _ => inductionHypothesis ?_⟩
    rw [levelAfter?_append, closed]
    rfl

/-- What is read within enough steps is read along a way. -/
theorem ReadsWithin.along (way : Way code start path counter)
    (reads : ReadsWithin passed located code (path.length + steps) start []) :
    ReadsWithin passed located code steps counter path := by
  induction way generalizing steps with
  | here => rwa [List.length_nil, Nat.zero_add] at reads
  | step _ found leads inductionHypothesis =>
    rw [List.length_append, List.length_singleton, Nat.add_assoc, Nat.add_comm 1] at reads
    exact (inductionHypothesis reads _ found).2 _ leads

theorem Continues.mono (continues : Continues passed located code start steps counter other)
    (implies : ∀ path, known path → other path) (less : fewer ≤ steps) :
    Continues passed located code start fewer counter known :=
  fun path way isKnown => (continues path way (implies path isKnown)).mono less

/-- Control goes on from an instruction with one step less. -/
theorem Continues.of_step {instruction : Instruction} (found : code[counter]? = some instruction)
    (reads : ∀ path, known path → Reading passed located path instruction)
    (goesOn : ∀ fewer < steps, ∀ next, Leads code counter next →
      Continues passed located code start fewer next fun path =>
        ∃ earlier, known earlier ∧ path = earlier ++ [instruction]) :
    Continues passed located code start steps counter known := by
  intro path way isKnown
  cases steps with
  | zero => trivial
  | succ steps =>
    intro same isSame
    cases found.symm.trans isSame
    exact ⟨reads path isKnown, fun next leads => goesOn steps (Nat.lt_succ_self _) next leads _
      (way.step found leads) ⟨path, isKnown, rfl⟩⟩

end Steps

/-! ### Pieces of code -/

/-- Wherever the code stands, control that comes to its beginning on paths of which something is
known finds provided what it reads, and leaves the code only at its end. -/
def Secures (passed : Bool) (located : Nat → Nat → Prop) (before : Code → Prop) (code : Code)
    (after : Code → Prop) : Prop :=
  ∀ ⦃whole : Code⦄ ⦃start base steps : Nat⦄, Stands whole base code →
    Continues passed located whole start steps (base + code.length) after →
    Continues passed located whole start steps base before

namespace Secures

variable {passed : Bool} {located : Nat → Nat → Prop} {before between after : Code → Prop}
  {first second code : Code}

theorem nil (implies : ∀ path, before path → after path) :
    Secures passed located before [] after :=
  fun _ _ _ _ _ continues => continues.mono implies (Nat.le_refl _)

theorem append (earlier : Secures passed located before first between)
    (later : Secures passed located between second after) :
    Secures passed located before (first ++ second) after := by
  intro whole start base steps stands continues
  rw [List.length_append, ← Nat.add_assoc] at continues
  exact earlier stands.left (later stands.right continues)

theorem weaken {stronger weaker : Code → Prop}
    (secures : Secures passed located before code after)
    (entering : ∀ path, stronger path → before path)
    (leaving : ∀ path, after path → weaker path) :
    Secures passed located stronger code weaker :=
  fun _ _ _ _ stands continues =>
    (secures stands (continues.mono leaving (Nat.le_refl _))).mono entering (Nat.le_refl _)

/-- A single instruction that is no jump. -/
theorem instruction {instruction : Instruction} (noJump : instruction.isJump = false)
    (reads : ∀ path, before path → Reading passed located path instruction)
    (goesOn : instruction.fallsThrough = true → ∀ path, before path →
      after (path ++ [instruction])) :
    Secures passed located before [instruction] after := by
  intro whole start base steps stands continues
  refine .of_step stands.head reads fun fewer less next leads => ?_
  obtain ⟨rfl, falls⟩ := leads.eq_succ stands.head noJump
  refine continues.mono ?_ (Nat.le_of_lt less)
  rintro _ ⟨earlier, isKnown, rfl⟩
  exact goesOn falls earlier isKnown

/-- Code without jumps is gone through from its beginning to its end. -/
theorem straight (noJumps : ∀ instruction ∈ code, instruction.isJump = false)
    (reads : ∀ path, before path → allReading passed located path code)
    (goesOn : ∀ path, before path → after (path ++ code)) :
    Secures passed located before code after := by
  induction code generalizing before with
  | nil => exact nil fun path isKnown => List.append_nil path ▸ goesOn path isKnown
  | cons instruction rest inductionHypothesis =>
    obtain ⟨noJump, noJumpLater⟩ := List.forall_mem_cons.mp noJumps
    have single : Secures passed located before [instruction] fun path =>
        ∃ earlier, before earlier ∧ path = earlier ++ [instruction] :=
      .instruction noJump (fun path isKnown => (reads path isKnown).1)
        fun _ path isKnown => ⟨path, isKnown, rfl⟩
    refine single.append (inductionHypothesis noJumpLater ?_ ?_)
    · rintro _ ⟨earlier, isKnown, rfl⟩
      exact (reads earlier isKnown).2
    · rintro _ ⟨earlier, isKnown, rfl⟩
      rw [List.append_assoc]
      exact goesOn earlier isKnown

/-- Code that keeps the frames and reads nothing. -/
theorem silent (steady : ∀ instruction ∈ code,
      instruction.isSteady = true ∧ instruction.isRead = false)
    (goesOn : ∀ path, before path → after (path ++ code)) :
    Secures passed located before code after :=
  .straight (fun instruction member => Instruction.isJump_of_isSteady (steady instruction member).1)
    (fun path _ => allReading_of_isRead (fun instruction member => (steady instruction member).2)
      path) goesOn

end Secures

/-! ### Frames -/

/-- The frame lies below so many others, and these variables of it have been provided. -/
structure Supplied (passed : Bool) (level : Nat) (vars : Vars) (path : Code) : Prop where
  level_eq : levelAfter? path = some level
  provided : ∀ name index type, vars.place? name 0 = some (index, type) →
    Provided passed path index type.words

section Supplied

variable {passed : Bool} {located : Nat → Nat → Prop} {level next : Nat} {vars more : Vars}
  {path code test first second : Code}

theorem Supplied.append (supplied : Supplied passed level vars path)
    (isNext : levelFrom? level code = some next) : Supplied passed next vars (path ++ code) where
  level_eq := (levelAfter?_eq supplied.level_eq code).trans isNext
  provided name index type isPlace :=
    (supplied.provided name index type isPlace).imp id (Stored.append · code)

theorem Supplied.of_prefix (supplied : Supplied passed level more path) (earlier : vars <+: more) :
    Supplied passed level vars path where
  level_eq := supplied.level_eq
  provided name index type isPlace :=
    supplied.provided name index type (Vars.place?_of_prefix isPlace earlier)

/-- Code finds the variables of the frame provided, and leaves them provided at the same level. -/
abbrev Maintains (passed : Bool) (located : Nat → Nat → Prop) (level : Nat) (vars : Vars)
    (code : Code) : Prop :=
  Secures passed located (Supplied passed level vars) code (Supplied passed level vars)

/-- The frame stays as it is where code keeps the frames and reads nothing. -/
theorem Maintains.steady (steady : ∀ instruction ∈ code,
      instruction.isSteady = true ∧ instruction.isRead = false) :
    Maintains passed located level vars code :=
  .silent steady fun _ supplied => supplied.append
    (levelFrom?_of_isSteady (fun instruction member => (steady instruction member).1) level)

/-- Several words are read at once where they have been provided, unless they are in another
frame. -/
theorem Maintains.readBlock {slot : Slot} {size : Nat}
    (reads : slot.level = level → ∀ path, Supplied passed level vars path →
      located slot.index size ∧ Provided passed path slot.index size) :
    Maintains passed located level vars [pushInt size, .pushBlock slot] := by
  refine .straight (by simp [Instruction.isJump, pushInt]) (fun path supplied => ?_)
    fun _ supplied => supplied.append rfl
  have pushed : Supplied passed level vars (path ++ [pushInt size]) := supplied.append rfl
  refine ⟨trivial, fun isLevel => ?_, trivial⟩
  obtain ⟨isLocated, isProvided⟩ :=
    reads (Option.some.inj (isLevel.symm.trans pushed.level_eq)) _ pushed
  exact ⟨size, List.suffix_append _ _, isLocated, isProvided⟩

/-- Code in a frame of its own. -/
theorem Maintains.framed (cells : Nat)
    (inside : Maintains passed located (level + 1) vars code) :
    Maintains passed located level vars
      ([pushInt cells, .op .oframe] ++ code ++ [.op .cframe]) := by
  have opening : Secures passed located (Supplied passed level vars)
      [pushInt cells, .op .oframe] (Supplied passed (level + 1) vars) :=
    .straight (by simp [Instruction.isJump, pushInt]) (fun _ _ => ⟨trivial, trivial, trivial⟩)
      fun _ supplied => supplied.append rfl
  have closing : Secures passed located (Supplied passed (level + 1) vars) [.op .cframe]
      (Supplied passed level vars) :=
    .instruction rfl (fun _ _ => trivial) fun _ _ supplied => supplied.append rfl
  exact (opening.append inside).append closing

section Jumps

variable {whole : Code} {start base steps : Nat}

/-- Control may go where a jump leads, and behind it if the jump has a condition. -/
theorem continues_jump {target : Nat} {offset : Int} {opcode : Opcode}
    (stands : Stands whole base [.push (.target offset), .op opcode])
    (isJump : opcode = .cjmp ∨ opcode = .jmp) (lands : base + offset = target)
    (there : ∀ fewer < steps,
      Continues passed located whole start fewer target (Supplied passed level vars))
    (behind : opcode = .cjmp →
      Continues passed located whole start steps (base + 2) (Supplied passed level vars)) :
    Continues passed located whole start steps base (Supplied passed level vars) := by
  have keeps {instruction : Instruction}
      (same : levelFrom? level [instruction] = some level) (path : Code)
      (known : ∃ earlier, Supplied passed level vars earlier ∧ path = earlier ++ [instruction]) :
      Supplied passed level vars path := by
    obtain ⟨earlier, supplied, rfl⟩ := known
    exact supplied.append same
  have sameLevel : levelFrom? level [.op opcode] = some level := by
    rcases isJump with rfl | rfl <;> rfl
  refine .of_step stands.head (fun _ _ => trivial) fun fewer less next leads => ?_
  obtain ⟨rfl, _⟩ := leads.eq_succ stands.head rfl
  refine Continues.mono ?_ (keeps rfl) (Nat.le_refl _)
  refine .of_step stands.tail.head (fun _ _ => .of_isRead rfl) fun fewest least last jumps => ?_
  cases jumps with
  | next isInstruction goesOn =>
    cases isInstruction.symm.trans stands.tail.head
    rcases isJump with rfl | rfl
    · exact (behind rfl).mono (keeps rfl) (by omega)
    · cases goesOn
  | jump pushed _ _ landsThere =>
    cases pushed.symm.trans stands.head
    obtain rfl : target = last := by
      rw [lands] at landsThere
      exact Int.ofNat.inj landsThere
    exact (there fewest (by omega)).mono (keeps sameLevel) (Nat.le_refl _)

/-- A test and a branch: control goes on behind the branch, or it skips some of what is there. -/
theorem Maintains.branch (tests : Maintains passed located level vars test) {skipped : Nat}
    (stands : Stands whole base (Code.branchUnless test skipped))
    (taken : Continues passed located whole start steps
      (base + (Code.branchUnless test skipped).length) (Supplied passed level vars))
    (skips : Continues passed located whole start steps
      (base + (Code.branchUnless test skipped).length + skipped) (Supplied passed level vars)) :
    Continues passed located whole start steps base (Supplied passed level vars) := by
  have length : base + (Code.branchUnless test skipped).length = base + test.length + 1 + 2 := by
    rw [Code.branchUnless, List.length_append]
    rfl
  rw [length] at taken skips
  have inverts : Maintains passed located level vars [.op .not] :=
    .steady (List.forall_mem_singleton.mpr ⟨rfl, rfl⟩)
  have standsBranch : Stands whole (base + test.length)
      ([.op .not] ++ [.push (.target (skipped + 2)), .op .cjmp]) := stands.right
  refine tests stands.left (inverts standsBranch.left ?_)
  refine continues_jump standsBranch.right (.inl rfl) ?_
    (fun fewer less => skips.mono (fun _ => id) (Nat.le_of_lt less)) fun _ => taken
  rw [List.length_singleton]
  push_cast
  omega

end Jumps

variable (tests : Maintains passed located level vars test)

include tests

/-- Code under a condition. -/
theorem Maintains.ifThen (inside : Maintains passed located level vars code) :
    Maintains passed located level vars (Code.ifThen test code) := by
  intro whole start base steps stands continues
  rw [Code.ifThen, List.length_append, ← Nat.add_assoc] at continues
  exact tests.branch stands.left (inside stands.right continues) continues

/-- One of two pieces of code. -/
theorem Maintains.ifThenElse (inside : Maintains passed located level vars first)
    (otherwise : Maintains passed located level vars second) :
    Maintains passed located level vars (Code.ifThenElse test first second) := by
  intro whole start base steps stands continues
  rw [Code.ifThenElse, List.length_append, List.length_append, ← Nat.add_assoc,
    ← Nat.add_assoc] at continues
  have standsOther := stands.right
  rw [List.length_append, ← Nat.add_assoc] at standsOther
  have continuesOther := otherwise standsOther continues
  refine tests.branch stands.left.left (inside stands.left.right.left ?_) continuesOther
  refine continues_jump stands.left.right.right (.inr rfl) ?_
    (fun fewer less => continues.mono (fun _ => id) (Nat.le_of_lt less)) (by rintro ⟨⟩)
  rw [List.length_append, Code.skipForward, List.length_cons, List.length_singleton]
  push_cast
  omega

/-- Code in a loop. What is known at its beginning must hold again behind a round. -/
theorem Maintains.repeatWhile (rounds : Maintains passed located level vars code) :
    Maintains passed located level vars (Code.repeatWhile test code) := by
  intro whole start base steps stands continues
  have exits : base + (Code.repeatWhile test code).length =
      base + (Code.branchUnless test (code.length + 2)).length + (code.length + 2) := by
    rw [Code.repeatWhile, List.length_append, List.length_append, Code.jumpBack, List.length_cons,
      List.length_singleton]
    omega
  rw [exits] at continues
  have standsBack := stands.right
  rw [List.length_append, ← Nat.add_assoc] at standsBack
  -- the jump back leads to the test with fewer steps left
  induction steps using Nat.strongRecOn with
  | _ steps inductionHypothesis =>
    refine tests.branch stands.left.left (rounds stands.left.right ?_) continues
    refine continues_jump standsBack (.inr rfl) ?_ (fun fewer less => inductionHypothesis fewer less
      (continues.mono (fun _ => id) (Nat.le_of_lt less))) (by rintro ⟨⟩)
    push_cast
    omega

end Supplied

/-! ### From pieces to ways -/

/-- On all ways through a piece of code that secures its reads these are provided, if nothing is
read behind it before the frame is closed. -/
theorem Secures.readsProvided {passed : Bool} {located : Nat → Nat → Prop}
    {before after : Code → Prop} {body : Code} (secures : Secures passed located before body after)
    (stands : Stands code start body) (enters : before [])
    (closes : ∀ path instruction, Way code start path (start + body.length) → after path →
      code[start + body.length]? = some instruction →
      instruction.isRead = false ∧ levelAfter? (path ++ [instruction]) = none) :
    ReadsProvided passed located code start := by
  have continues (steps : Nat) : Continues passed located code start steps start before := by
    refine secures stands fun path way isAfter => ?_
    cases steps with
    | zero => trivial
    | succ steps =>
      intro instruction found
      obtain ⟨silent, closed⟩ := closes path instruction way isAfter found
      exact ⟨.of_isRead silent, fun _ _ => .of_closed closed⟩
  intro path counter instruction way found
  exact (ReadsWithin.along way (continues (path.length + 1) [] .here enters) instruction found).1

end Flow

end PadLang
