/-
This file shows that the code of statements does what the statements mean.

A statement that ends leaves frames behind which mirror the scopes it leaves behind, none of them
larger or smaller than before, and the machine has shown the same events. The stack is as it was.
The proof goes by induction on the bound of the run, so that the next round of a loop is covered
like any part of a statement.
-/

import PadLang.Proofs.Simulation.Expr

namespace PadLang

variable {frames : List Frame} {value : Value} {layer : Layer} {outer context : Context}
  {env after : Env} {condition : Expr} {event : Event}

open Machine

variable {ops : WordOps} {pad : Pad} {functions : Functions}

/-- Code shows events and leaves frames behind that mirror the scopes after it. -/
def Carries (ops : WordOps) (pad : Pad) (frames : List Frame) (code : Code) (context : Context)
    (env : Env) (events : List Event) : Prop :=
  ∃ written, Mirrors context env written ∧ written.map List.length = frames.map List.length ∧
    ∀ stack output,
      Performs ops pad code ⟨stack, frames, output⟩ ⟨stack, written, output ++ events⟩

/-! ### Simple statements -/

/-- Storing a value takes its words from the stack. -/
theorem store_performs {written : List Frame} {stack : List Int} {output : List Event} {slot : Slot}
    (fits : value.Fits)
    (stores : Data.store? slot.level slot.index value.cells ⟨stack, frames, output⟩ =
      some ⟨stack, written, output⟩) :
    Performs ops pad (Code.store value.type slot) ⟨value.cells ++ stack, frames, output⟩
      ⟨stack, written, output⟩ := by
  unfold Code.store
  cases type : value.type with
  | base scalar =>
    obtain ⟨word, cells⟩ := fits.exists_word type
    rw [cells] at stores ⊢
    exact Performs.store stores
  | array size element =>
    rw [← fits.length_eq type]
    exact Performs.storeBlock stores

theorem declaration_carries {made : Declaration} (mirrored : Mirrors (layer :: outer) env frames)
    (typed : made.Scoped functions (layer :: outer))
    (room : Room frames (layer.vars ++ [(made.name.value, made.type.value)]).cells)
    (evaluated : made.value.eval? ops pad env = some value) :
    Carries ops pad frames (Lexical.declaration functions layer outer made)
      (Context.declare [(made.name.value, made.type.value)] (layer :: outer))
      (env.declare made.name.value { value with type := made.type.value }) [] := by
  obtain ⟨isType, fits, pushes⟩ := expression_yields mirrored typed evaluated
  rw [Vars.cells_append, Vars.cells_cons, Vars.cells_nil] at room
  rw [← isType] at room ⊢
  obtain ⟨written, mirrors, same, stores⟩ := mirrored.declare fits room
  refine ⟨written, mirrors, same, fun stack output => ?_⟩
  rw [List.append_nil, Lexical.declaration, ← isType]
  exact (pushes stack output).append (store_performs fits (stores stack output))

theorem assignment_carries {made : Assignment} (mirrored : Mirrors context env frames)
    (inScope : made.Scoped functions context) (ran : made.run? ops pad env = some after) :
    Carries ops pad frames (Lexical.assignment functions context made) context after [] := by
  obtain ⟨target, index, expr⟩ := made
  obtain ⟨found, denotes, typed⟩ := inScope
  obtain ⟨stored, isStored, ran⟩ := Option.bind_eq_some_iff.mp ran
  obtain ⟨value, evaluated, ran⟩ := Option.bind_eq_some_iff.mp ran
  obtain ⟨place, placed, keeps⟩ := mirrored.exists_place isStored
  have isFound := Context.type_eq_of_find? denotes placed
  cases index with
  | none =>
    cases ran
    obtain ⟨isType, fits, pushes⟩ := expression_yields mirrored typed evaluated
    have sameType : place.type = value.type := isFound.trans isType.symm
    have same : value.cells.length = stored.cells.length := by
      rw [fits.length, keeps.fits.length, ← sameType, keeps.type_eq]
    obtain ⟨written, mirrors, sameLengths, stores⟩ := mirrored.store isStored placed same
    refine ⟨written, mirrors, sameLengths, fun stack output => ?_⟩
    rw [List.append_nil, Lexical.assignment, Lexical.atPlace, placed]
    change Performs ops pad (Lexical.expression functions context expr ++
      Code.store place.type place.slot) _ _
    rw [sameType]
    exact (pushes stack output).append (store_performs fits (stores stack output))
  | some index =>
    obtain ⟨element, isElement, typedIndex, typedValue⟩ := typed
    obtain ⟨indexValue, evaluatedIndex, ran⟩ := Option.bind_eq_some_iff.mp ran
    obtain ⟨indexWord, isIndexWord, ran⟩ := Option.bind_eq_some_iff.mp ran
    obtain ⟨offset, isOffset, ran⟩ := Option.bind_eq_some_iff.mp ran
    split at ran
    · next bounded =>
      obtain ⟨word, isWord, ⟨⟩⟩ := Option.bind_eq_some_iff.mp ran
      have pushesValue := (expression_yields mirrored typedValue evaluated).pushesWord isWord
      have pushesIndex :=
        (expression_yields mirrored typedIndex evaluatedIndex).pushesWord isIndexWord
      rw [Int.mem_toNat?.mp isOffset] at pushesIndex
      obtain ⟨written, mirrors, sameLengths, stores⟩ :=
        mirrored.storeAt isStored placed bounded.2 word
      refine ⟨written, mirrors, sameLengths, fun stack output => ?_⟩
      rw [List.append_nil, Lexical.assignment, Lexical.atPlace, placed]
      exact ((pushesValue.append pushesIndex) stack output).append
        (.cons rfl (.cons rfl (.cons rfl (.instruction (stores stack output)))))
    · cases ran

theorem scalarAction_performs {effect : Effect} {operands : List Expr}
    (mirrored : Mirrors context env frames)
    (typed : ∀ operand ∈ operands, ∃ type, HasType functions context operand type)
    (ran : scalarEvent? ops pad env effect operands = some event) {opcode : Opcode}
    (acts : ∀ data, actOpcode ops pad data opcode = data.emit? effect operands.length)
    (stack : List Int) (output : List Event) :
    Performs ops pad (Lexical.backwards functions context operands ++ [.op opcode])
      ⟨stack, frames, output⟩ ⟨stack, frames, output ++ [event]⟩ := by
  obtain ⟨values, evaluated, ran⟩ := Option.bind_eq_some_iff.mp ran
  obtain ⟨words, areWords, ⟨⟩⟩ := Option.bind_eq_some_iff.mp ran
  obtain ⟨pushes, length⟩ := backwards_pushes (fun operand member value evaluatedOperand => by
    obtain ⟨type, typedOperand⟩ := typed operand member
    exact (expression_yields mirrored typedOperand evaluatedOperand).pushes) evaluated areWords
  refine (pushes stack output).append (.instruction ?_)
  rw [act, acts, ← length]
  exact emit?_append effect

/-- Printing a value takes its words from the stack. -/
theorem printed_performs (fits : value.Fits) (stack : List Int) (output : List Event) :
    Performs ops pad (Code.printed value.type) ⟨value.cells ++ stack, frames, output⟩
      ⟨stack, frames,
        output ++ [⟨if value.type.isArray then .printArray else .print, value.cells⟩]⟩ := by
  unfold Code.printed
  cases type : value.type with
  | base scalar =>
    obtain ⟨word, cells⟩ := fits.exists_word type
    rw [cells]
    exact .instruction rfl
  | array size element =>
    rw [← fits.length_eq type]
    exact .cons rfl (.instruction (emit?_append .printArray))

theorem action_performs {done : Action} (mirrored : Mirrors context env frames)
    (inScope : done.Scoped functions context) (ran : done.event? ops pad env = some event)
    (stack : List Int) (output : List Event) :
    Performs ops pad (Lexical.action functions context done) ⟨stack, frames, output⟩
      ⟨stack, frames, output ++ [event]⟩ := by
  cases done with
  | print expr =>
    obtain ⟨type, typed⟩ := inScope
    obtain ⟨value, evaluated, ⟨⟩⟩ := Option.bind_eq_some_iff.mp ran
    obtain ⟨isType, fits, pushes⟩ := expression_yields mirrored typed evaluated
    rw [Lexical.action, typed.type?_eq]
    rw [← isType]
    exact (pushes stack output).append (printed_performs fits stack output)
  | delay _ | clear _ =>
    exact scalarAction_performs mirrored (List.forall_mem_singleton.mpr ⟨_, inScope⟩) ran
      (fun _ => rfl) stack output
  | write x y colour =>
    obtain ⟨typedX, typedY, typedColour⟩ := inScope
    refine scalarAction_performs mirrored ?_ ran (fun _ => rfl) stack output
    simp only [List.forall_mem_cons, List.not_mem_nil, false_implies, implies_true, and_true]
    exact ⟨⟨_, typedX⟩, ⟨_, typedY⟩, ⟨_, typedColour⟩⟩
  | writeBox x y width height colour =>
    obtain ⟨typedX, typedY, typedWidth, typedHeight, typedColour⟩ := inScope
    refine scalarAction_performs mirrored ?_ ran (fun _ => rfl) stack output
    simp only [List.forall_mem_cons, List.not_mem_nil, false_implies, implies_true, and_true]
    exact ⟨⟨_, typedX⟩, ⟨_, typedY⟩, ⟨_, typedWidth⟩, ⟨_, typedHeight⟩, ⟨_, typedColour⟩⟩

/-! ### Statements -/

theorem Carries.append {first second : Code} {later : Context} {events others : List Event}
    (carries : Carries ops pad frames first context env events)
    (next : ∀ written, Mirrors context env written →
      written.map List.length = frames.map List.length →
        Carries ops pad written second later after others) :
    Carries ops pad frames (first ++ second) later after (events ++ others) := by
  obtain ⟨between, mirrorsBetween, sameBetween, performsFirst⟩ := carries
  obtain ⟨written, mirrors, same, performsSecond⟩ := next between mirrorsBetween sameBetween
  refine ⟨written, mirrors, same.trans sameBetween, fun stack output => ?_⟩
  rw [← List.append_assoc]
  exact (performsFirst stack output).append (performsSecond stack (output ++ events))

/-- The code of a condition puts a word on the stack that is as true as the condition. -/
theorem condition_pushes {truth : Bool} (mirrored : Mirrors context env frames)
    (typed : HasType functions context condition .bool)
    (tested : condition.holds? ops pad env = some truth) :
    ∃ word, ops.holds word = truth ∧
      Pushes ops pad frames (Lexical.expression functions context condition) [word] := by
  obtain ⟨value, evaluated, tested⟩ := Option.bind_eq_some_iff.mp tested
  obtain ⟨word, isWord, ⟨⟩⟩ := Option.bind_eq_some_iff.mp tested
  exact ⟨word, rfl, (expression_yields mirrored typed evaluated).pushesWord isWord⟩

/-- The code of all that ends within a bound does what it means. -/
structure Simulates (ops : WordOps) (pad : Pad) (functions : Functions) (fuel : Nat) : Prop where
  statement : ∀ {returns layer outer env frames statement after events},
    Stmt.Scoped functions returns (layer :: outer) statement →
    Mirrors (layer :: outer) env frames →
    Room frames (layer.vars ++ statement.declares).cells →
    Stmt.run? ops pad fuel env statement = some (after, events) →
    Carries ops pad frames (Lexical.statement functions layer outer statement)
      (Context.declare statement.declares (layer :: outer)) after events
  block : ∀ {returns context env frames block after events},
    Block.Scoped functions returns context block →
    Mirrors context env frames →
    Block.run? ops pad fuel env block = some (after, events) →
    Carries ops pad frames (Lexical.block functions context block) context after events
  statements : ∀ {returns layer outer env frames statements after events},
    allScoped functions returns (layer :: outer) statements →
    Mirrors (layer :: outer) env frames →
    Room frames (layer.vars ++ declaredBy statements).cells →
    runAll? ops pad fuel env statements = some (after, events) →
    Carries ops pad frames (Lexical.statements functions layer outer statements)
      (Context.declare (declaredBy statements) (layer :: outer)) after events

namespace Simulates

variable {fuel : Nat} {returns : Option Ty} {after : Env} {events : List Event} {span : Span}

variable (simulates : Simulates ops pad functions fuel)

include simulates

theorem block_succ {block : Block} (inScope : block.Scoped functions returns context)
    (mirrored : Mirrors context env frames)
    (ran : Block.run? ops pad (fuel + 1) env block = some (after, events)) :
    Carries ops pad frames (Lexical.block functions context block) context after events := by
  obtain ⟨position, scope, body⟩ := block
  obtain ⟨opened, rfl, inside⟩ := inScope
  obtain ⟨⟨inner, shown⟩, ranBody, ⟨⟩⟩ := Option.bind_eq_some_iff.mp ran
  have entered : Mirrors ({ scope := opened, vars := [] } :: context) ([] :: env)
      (List.replicate (declaredBy body).cells none :: frames) :=
    .cons ⟨rfl, nofun, _, rfl⟩ mirrored
  have room : Room (List.replicate (declaredBy body).cells none :: frames)
      (declaredBy body).cells := by
    rintro size ⟨⟩
    exact Nat.le_of_eq List.length_replicate.symm
  obtain ⟨written, mirrors, same, performs⟩ := simulates.statements inside entered room ranBody
  cases mirrors with
  | @cons _ _ _ outer frame rest _ others =>
    refine ⟨rest, others, (List.cons.inj same).2, fun stack output => ?_⟩
    exact ((Performs.openFrame _).append (performs stack output)).append (.instruction rfl)

theorem statements_succ {statements : List Stmt}
    (inScope : allScoped functions returns (layer :: outer) statements)
    (mirrored : Mirrors (layer :: outer) env frames)
    (room : Room frames (layer.vars ++ declaredBy statements).cells)
    (ran : runAll? ops pad (fuel + 1) env statements = some (after, events)) :
    Carries ops pad frames (Lexical.statements functions layer outer statements)
      (Context.declare (declaredBy statements) (layer :: outer)) after events := by
  cases statements with
  | nil =>
    cases ran
    refine ⟨frames, ?_, rfl, fun stack output => ?_⟩
    · rw [declaredBy_nil, Context.declare_nil]
      exact mirrored
    · rw [List.append_nil]
      exact .nil _
  | cons first rest =>
    obtain ⟨⟨between, once⟩, ranFirst, ran⟩ := Option.bind_eq_some_iff.mp ran
    obtain ⟨⟨final, others⟩, ranRest, ⟨⟩⟩ := Option.bind_eq_some_iff.mp ran
    rw [declaredBy_cons] at room ⊢
    have roomFirst : Room frames (layer.vars ++ first.declares).cells := by
      intro size isSize
      have enough := room size isSize
      rw [Vars.cells_append, Vars.cells_append] at enough
      rw [Vars.cells_append]
      omega
    refine (simulates.statement inScope.1 mirrored roomFirst ranFirst).append ?_
    intro written mirrors same
    rw [Context.declare_append]
    refine simulates.statements inScope.2 mirrors ?_ ranRest
    rw [Room, same, List.append_assoc]
    exact room

theorem conditional_succ {first : Block} {second : Option Block}
    (inScope : (Stmt.conditional span condition first second).Scoped functions returns
      (layer :: outer)) (mirrored : Mirrors (layer :: outer) env frames)
    (ran : Stmt.run? ops pad (fuel + 1) env (.conditional span condition first second) =
      some (after, events)) :
    Carries ops pad frames
      (Lexical.statement functions layer outer (.conditional span condition first second))
      (layer :: outer) after events := by
  obtain ⟨truth, tested, ran⟩ := Option.bind_eq_some_iff.mp ran
  cases second with
  | none =>
    obtain ⟨typed, inFirst⟩ := inScope
    obtain ⟨word, isTruth, pushes⟩ := condition_pushes mirrored typed tested
    cases truth with
    | true =>
      obtain ⟨written, mirrors, same, performs⟩ := simulates.block inFirst mirrored ran
      exact ⟨written, mirrors, same, fun stack output =>
        .ifThen_taken (pushes stack output) isTruth (performs stack output)⟩
    | false =>
      cases ran
      refine ⟨frames, mirrored, rfl, fun stack output => ?_⟩
      rw [List.append_nil]
      exact .ifThen_skipped (pushes stack output) isTruth
  | some second =>
    obtain ⟨typed, inFirst, inSecond⟩ := inScope
    obtain ⟨word, isTruth, pushes⟩ := condition_pushes mirrored typed tested
    cases truth with
    | true =>
      obtain ⟨written, mirrors, same, performs⟩ := simulates.block inFirst mirrored ran
      exact ⟨written, mirrors, same, fun stack output =>
        .ifThenElse_taken (pushes stack output) isTruth (performs stack output)⟩
    | false =>
      obtain ⟨written, mirrors, same, performs⟩ := simulates.block inSecond mirrored ran
      exact ⟨written, mirrors, same, fun stack output =>
        .ifThenElse_skipped (pushes stack output) isTruth (performs stack output)⟩

theorem whileLoop_succ {body : Block}
    (inScope : (Stmt.whileLoop span condition body).Scoped functions returns (layer :: outer))
    (mirrored : Mirrors (layer :: outer) env frames)
    (room : Room frames (layer.vars ++ (Stmt.whileLoop span condition body).declares).cells)
    (ran : Stmt.run? ops pad (fuel + 1) env (.whileLoop span condition body) =
      some (after, events)) :
    Carries ops pad frames
      (Lexical.statement functions layer outer (.whileLoop span condition body))
      (layer :: outer) after events := by
  obtain ⟨truth, tested, ran⟩ := Option.bind_eq_some_iff.mp ran
  obtain ⟨word, isTruth, pushes⟩ := condition_pushes mirrored inScope.1 tested
  cases truth with
  | true =>
    obtain ⟨⟨between, once⟩, ranBody, ran⟩ := Option.bind_eq_some_iff.mp ran
    obtain ⟨⟨final, others⟩, ranAgain, ⟨⟩⟩ := Option.bind_eq_some_iff.mp ran
    obtain ⟨middle, mirrorsMiddle, sameMiddle, performsBody⟩ :=
      simulates.block inScope.2 mirrored ranBody
    rw [Room, ← sameMiddle] at room
    obtain ⟨written, mirrors, same, performsAgain⟩ :=
      simulates.statement inScope mirrorsMiddle room ranAgain
    rw [Stmt.declares, Context.declare_nil] at mirrors
    refine ⟨written, mirrors, same.trans sameMiddle, fun stack output => ?_⟩
    rw [← List.append_assoc]
    exact .repeatWhile_again (pushes stack output) isTruth (performsBody stack output)
      (performsAgain stack (output ++ once))
  | false =>
    cases ran
    refine ⟨frames, mirrored, rfl, fun stack output => ?_⟩
    rw [List.append_nil]
    exact .repeatWhile_done (pushes stack output) isTruth

theorem statement_succ {statement : Stmt}
    (inScope : statement.Scoped functions returns (layer :: outer))
    (mirrored : Mirrors (layer :: outer) env frames)
    (room : Room frames (layer.vars ++ statement.declares).cells)
    (ran : Stmt.run? ops pad (fuel + 1) env statement = some (after, events)) :
    Carries ops pad frames (Lexical.statement functions layer outer statement)
      (Context.declare statement.declares (layer :: outer)) after events := by
  cases statement with
  | declaration span made =>
    obtain ⟨value, evaluated, ⟨⟩⟩ := Option.bind_eq_some_iff.mp ran
    exact declaration_carries mirrored inScope room evaluated
  | assignment span made =>
    obtain ⟨assigned, ranMade, ⟨⟩⟩ := Option.bind_eq_some_iff.mp ran
    rw [Stmt.declares, Context.declare_nil]
    exact assignment_carries mirrored inScope ranMade
  | action span done =>
    obtain ⟨event, happened, ⟨⟩⟩ := Option.bind_eq_some_iff.mp ran
    rw [Stmt.declares, Context.declare_nil]
    exact ⟨frames, mirrored, rfl, action_performs mirrored inScope happened⟩
  | block span body =>
    rw [Stmt.declares, Context.declare_nil]
    exact simulates.block inScope mirrored ran
  | conditional span condition first second =>
    rw [Stmt.declares, Context.declare_nil]
    exact simulates.conditional_succ inScope mirrored ran
  | whileLoop span condition body =>
    rw [Stmt.declares, Context.declare_nil]
    exact simulates.whileLoop_succ inScope mirrored room ran
  | function | forLoop | returnValue => cases ran

end Simulates

/-- The code of all that ends does what it means, whatever the bound of the run. -/
theorem simulates (ops : WordOps) (pad : Pad) (functions : Functions) (fuel : Nat) :
    Simulates ops pad functions fuel := by
  induction fuel with
  | zero =>
    exact ⟨fun _ _ _ ran => (nomatch ran), fun _ _ ran => (nomatch ran),
      fun _ _ _ ran => (nomatch ran)⟩
  | succ fuel inductionHypothesis =>
    exact ⟨inductionHypothesis.statement_succ, inductionHypothesis.block_succ,
      inductionHypothesis.statements_succ⟩

end PadLang
