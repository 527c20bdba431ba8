/-
This file says what the rules of the grammar consume, and follows types and expressions.

Whatever a rule delivers without a new error is judged by the tokens between the place where it
started and the place where it stopped. A type or an expression flattens to the terminals of just
these tokens. That operands come without a conversion of their own is part of the judgment: a
conversion is written behind the whole expression it applies to.
-/

import PadLang.Proofs.Grammar.Cursor
import PadLang.Proofs.Grammar.Terminals
import PadLang.Proofs.Scope.Symbols

namespace PadLang

variable {token : Token} {mark : Mark} {tier : Tier} {operand : Rule Expr} {terminal : Terminal}
  {cursor : Cursor} {α : Type}

/-! ### What a rule consumes -/

namespace Cursor

/-- A place from which a rule may have come, at the same end, with at most fewer errors. -/
structure Continues (cursor next : Cursor) : Prop where
  finish : next.finish = cursor.finish
  errors : cursor.errors <+: next.errors

/-- The tokens between two places. -/
structure Passes (cursor : Cursor) (read : List Token) (next : Cursor) : Prop where
  ahead : cursor.ahead = read ++ next.ahead
  behind : next.behind = (read.getLast?.map Token.position).getD cursor.behind

variable {cursor next later : Cursor} {read more : List Token}

theorem Continues.refl : cursor.Continues cursor := ⟨rfl, List.prefix_rfl⟩

theorem Continues.trans (first : cursor.Continues next) (second : next.Continues later) :
    cursor.Continues later :=
  ⟨second.finish.trans first.finish, first.errors.trans second.errors⟩

theorem Continues.ended (continues : cursor.Continues next) (ended : cursor.Ended) :
    next.Ended := by
  rw [Ended, continues.finish]
  exact ended

/-- If there are no more errors in the end, there were none in between. -/
theorem Continues.errors_eq (first : cursor.Continues next) (second : next.Continues later)
    (same : later.errors = cursor.errors) : next.errors = cursor.errors := by
  have noMore : next.errors <+: cursor.errors := same ▸ second.errors
  exact noMore.eq_of_length_le first.errors.length_le

theorem Passes.nil : cursor.Passes [] cursor := ⟨rfl, rfl⟩

theorem Passes.append (first : cursor.Passes read next) (second : next.Passes more later) :
    cursor.Passes (read ++ more) later := by
  refine ⟨by rw [first.ahead, second.ahead, List.append_assoc], ?_⟩
  rw [second.behind, first.behind, List.getLast?_append]
  cases more.getLast? <;> rfl

theorem continues_advance : cursor.Continues cursor.advance := by
  unfold advance
  split
  · exact .refl
  · exact ⟨rfl, List.prefix_rfl⟩

theorem passes_advance (some_left : cursor.ahead ≠ []) :
    cursor.Passes [cursor.peek] cursor.advance := by
  unfold advance peek
  cases ahead : cursor.ahead with
  | nil => exact absurd ahead some_left
  | cons token rest => exact ⟨ahead, rfl⟩

theorem ahead_ne_nil_of_terminal (ended : cursor.Ended) (found : cursor.peek.terminal = terminal)
    (notEnd : terminal ≠ .mark .endOfFile) : cursor.ahead ≠ [] := by
  refine ahead_ne_nil ended fun isEnd => notEnd ?_
  rw [← found, Token.terminal, isEnd]

end Cursor

theorem Token.terminal_of_content (plain : mark ≠ .identifier)
    (found : token.content = .mark mark) : token.terminal = .mark mark := by
  unfold terminal
  split <;> rename_i isContent <;> rw [found] at isContent <;> cases isContent
  · exact absurd rfl plain
  · rfl

theorem Token.terminal_of_isMark (plain : mark ≠ .identifier) (isMark : token.isMark mark = true) :
    token.terminal = .mark mark :=
  Token.terminal_of_content plain (Cursor.content_of_isMark isMark)

/-- What was read without a new error is good for the tokens between the two places. -/
def Outcome.Spells {α : Type} (cursor : Cursor) (good : List Token → α → Prop) :
    Outcome α → Prop
  | .done value next => cursor.Continues next ∧
      (next.errors = cursor.errors → ∃ read, cursor.Passes read next ∧ good read value)
  | .refused _ next => cursor.Continues next
  | .exhausted => True

theorem Outcome.Spells.mono {good weaker : List Token → α → Prop} {outcome : Outcome α}
    (spells : outcome.Spells cursor good)
    (implies : ∀ read value, good read value → weaker read value) :
    outcome.Spells cursor weaker := by
  cases outcome with
  | done value next =>
    refine ⟨spells.1, fun same => ?_⟩
    obtain ⟨read, passes, holds⟩ := spells.2 same
    exact ⟨read, passes, implies read value holds⟩
  | refused error next => exact spells
  | exhausted => trivial

/-- What is good behind a later place is good behind an earlier one, with the tokens between. -/
theorem Outcome.Spells.after {later : Cursor} {good : List Token → α → Prop} {outcome : Outcome α}
    (between : List Token → Prop) (continues : cursor.Continues later)
    (reads : later.errors = cursor.errors → ∃ read, cursor.Passes read later ∧ between read)
    (spells : outcome.Spells later fun more value =>
      ∀ read, between read → good (read ++ more) value) : outcome.Spells cursor good := by
  cases outcome with
  | done value last =>
    obtain ⟨continuesLater, readsLater⟩ := spells
    refine ⟨continues.trans continuesLater, fun same => ?_⟩
    have unchanged := continues.errors_eq continuesLater same
    obtain ⟨read, passes, holds⟩ := reads unchanged
    obtain ⟨more, passesLater, holdsLater⟩ := readsLater (same.trans unchanged.symm)
    exact ⟨read ++ more, passes.append passesLater, holdsLater read holds⟩
  | refused error last => exact continues.trans spells
  | exhausted => trivial

namespace Rule

variable {α β : Type} {cursor : Cursor} {good weaker : List Token → α → Prop}
  {better : List Token → β → Prop}

/-- What a rule delivers at a place is good for the tokens that it consumes there. -/
def Spells (rule : Rule α) (cursor : Cursor) (good : List Token → α → Prop) : Prop :=
  cursor.Ended → (rule cursor).Spells cursor good

theorem Spells.pure {value : α} (holds : good [] value) : Spells (Pure.pure value) cursor good :=
  fun _ => ⟨.refl, fun _ => ⟨[], .nil, holds⟩⟩

theorem Spells.bind {first : Rule α} {second : α → Rule β} (start : Spells first cursor good)
    (next : ∀ value later, Spells (second value) later fun more result =>
      ∀ read, good read value → better (read ++ more) result) :
    Spells (first >>= second) cursor better := by
  intro ended
  have outcome := start ended
  change (andThen first second cursor).Spells cursor better
  rw [andThen]
  cases result : first cursor with
  | done value later =>
    rw [result] at outcome
    exact (next value later (outcome.1.ended ended)).after (good · value) outcome.1 outcome.2
  | refused error later =>
    rw [result] at outcome
    exact outcome
  | exhausted => trivial

theorem Spells.mono {rule : Rule α} (spells : Spells rule cursor good)
    (implies : ∀ read value, good read value → weaker read value) :
    Spells rule cursor weaker :=
  fun ended => (spells ended).mono implies

theorem Spells.peek {second : Token → Rule β} (next : Spells (second cursor.peek) cursor better) :
    Spells (Rule.peek >>= second) cursor better := next

theorem Spells.peekSecond {second : Token → Rule β}
    (next : Spells (second cursor.peekSecond) cursor better) :
    Spells (Rule.peekSecond >>= second) cursor better := next

theorem Spells.sees {second : Bool → Rule β}
    (next : Spells (second (cursor.peek.isMark mark)) cursor better) :
    Spells (Rule.sees mark >>= second) cursor better := next

theorem Spells.refuse {error : String → ParseError} : Spells (Rule.refuse error) cursor good :=
  fun _ => Cursor.Continues.refl

theorem Spells.exhausted : Spells Rule.exhausted cursor good := fun _ => trivial

/-- A token that is not the end of file is consumed. -/
theorem Spells.advance {second : Token → Rule β} (found : cursor.peek.terminal = terminal)
    (notEnd : terminal ≠ .mark .endOfFile)
    (next : Spells (second cursor.peek) cursor.advance fun more result =>
      better (cursor.peek :: more) result) : Spells (Rule.advance >>= second) cursor better := by
  intro ended
  have some_left := Cursor.ahead_ne_nil_of_terminal ended found notEnd
  have outcome := next (Cursor.continues_advance.ended ended)
  change (second cursor.peek cursor.advance).Spells cursor better
  refine Outcome.Spells.after (· = [cursor.peek]) Cursor.continues_advance
    (fun _ => ⟨_, Cursor.passes_advance some_left, rfl⟩) ?_
  exact outcome.mono fun more value holds read isRead => isRead ▸ holds

/-- A mark that is expected is consumed if it is there. -/
theorem Spells.expect {second : Token → Rule β} (plain : mark ≠ .identifier ∧ mark ≠ .endOfFile)
    (next : cursor.peek.terminal = .mark mark →
      Spells (second cursor.peek) cursor.advance fun more result =>
        better (cursor.peek :: more) result) :
    Spells (Rule.expect mark >>= second) cursor better := by
  by_cases seen : cursor.peek.isMark mark = true
  · have found := Token.terminal_of_isMark plain.1 seen
    have notEnd : Terminal.mark mark ≠ .mark .endOfFile := fun same =>
      plain.2 (Terminal.mark.inj same)
    have consumes := Spells.advance found notEnd (next found)
    rw [Spells] at consumes ⊢
    change _ → (andThen (Rule.expect mark) second cursor).Spells cursor better
    rwa [andThen, Rule.expect, if_pos seen]
  · intro ended
    change (andThen (Rule.expect mark) second cursor).Spells cursor better
    rw [andThen, Rule.expect, if_neg seen]
    exact Cursor.Continues.refl

/-- An identifier is consumed if it is there, and it is known what comes after it. -/
theorem Spells.identifier {second : Ident → Rule β}
    (next : ∀ name : Ident, cursor.peek.terminal = .name name.value →
      cursor.advance.peek = cursor.peekSecond →
        Spells (second name) cursor.advance fun more result =>
          better (cursor.peek :: more) result) :
    Spells (Rule.identifier >>= second) cursor better := by
  by_cases seen : cursor.peek.isMark .identifier = true
  · intro ended
    have found : cursor.peek.terminal = .name cursor.peek.lexeme := by
      rw [Token.terminal, Cursor.content_of_isMark seen]
    have some_left := Cursor.ahead_ne_nil_of_terminal ended found (by simp)
    have consumes : Spells (Rule.advance >>= fun token =>
        second { position := token.position, value := token.lexeme }) cursor better :=
      Spells.advance found (by simp) (next _ found (Cursor.peek_advance some_left))
    have outcome := consumes ended
    change (andThen (andThen (Rule.expect .identifier) _) second cursor).Spells cursor better
    rwa [andThen, andThen, Rule.expect, if_pos seen]
  · intro ended
    change (andThen (andThen (Rule.expect .identifier) _) second cursor).Spells cursor better
    rw [andThen, andThen, Rule.expect, if_neg seen]
    exact Cursor.Continues.refl

/-- The tokens that were read are the flattening of what was delivered. -/
abbrev Flattens (flatten : α → List Terminal) (read : List Token) (value : α) : Prop :=
  read.map Token.terminal = flatten value

theorem commaSeparated_spells {item : Rule α} {flatten : α → List Terminal} {holds : α → Prop}
    (each : ∀ cursor,
      Spells item cursor fun read value => Flattens flatten read value ∧ holds value)
    (allowance : Nat) (cursor : Cursor) :
    Spells (commaSeparated item allowance) cursor fun read values =>
      values ≠ [] ∧ read.map Token.terminal = commas (values.map flatten) ∧
        ∀ value ∈ values, holds value := by
  induction allowance generalizing cursor with
  | zero => exact Spells.exhausted
  | succ allowance inductionHypothesis =>
    refine Spells.bind (each cursor) fun first later => Spells.sees ?_
    split
    · rename_i seen
      have comma := Token.terminal_of_isMark (by decide) seen
      refine Spells.advance comma (by decide) ?_
      refine Spells.bind (inductionHypothesis _) fun rest last => Spells.pure ?_
      rintro more ⟨some_more, moreIs, restHold⟩ read ⟨readIs, firstHolds⟩
      have several : rest.map flatten ≠ [] := by simpa using some_more
      refine ⟨List.cons_ne_nil _ _, ?_, List.forall_mem_cons.mpr ⟨firstHolds, restHold⟩⟩
      simp [commas_cons several, comma, readIs, moreIs]
    · refine Spells.pure fun read ⟨readIs, firstHolds⟩ => ⟨List.cons_ne_nil _ _, ?_, ?_⟩
      · simp [commas, readIs]
      · exact List.forall_mem_singleton.mpr firstHolds

end Rule

namespace Grammar

open Rule

variable {base : Base} {size : Nat}

/-! ### Types and operators -/

theorem mark_of_baseOf? (found : baseOf? mark = some base) : mark = base.mark := by
  unfold baseOf? at found
  split at found <;> cases found <;> rfl

theorem terminal_of_tokenBase? (found : tokenBase? token = some base) :
    token.terminal = .mark base.mark := by
  unfold tokenBase? at found
  split at found
  · rename_i mark isMark
    rw [mark_of_baseOf? found] at isMark
    exact Token.terminal_of_content (by cases base <;> decide) isMark
  · cases found

theorem terminal_of_arraySize? (found : arraySize? token = some size) :
    token.terminal = .literal (.int size) := by
  unfold arraySize? at found
  split at found
  · rename_i value isLiteral
    split at found
    · rename_i range
      cases found
      rw [Token.terminal, isLiteral, Int.toNat_of_nonneg (Int.le_of_lt range.1)]
    · cases found
  · cases found

theorem terminal_of_operator? (listed : tier ∈ tiers) {operator : BinaryOperator}
    (found : tier.operator? token = some operator) : token.terminal = .mark operator.mark := by
  have marked : ∀ tier ∈ tiers, ∀ pair ∈ tier.operators, pair.1 = pair.2.mark := by decide
  unfold Tier.operator? at found
  split at found
  · rename_i mark isMark
    obtain ⟨before, after, split, _⟩ := List.lookup_eq_some_iff.mp found
    have member : (mark, operator) ∈ tier.operators := by simp [split]
    have isOperator : mark = operator.mark := marked tier listed _ member
    rw [isOperator] at isMark
    exact Token.terminal_of_content (by cases operator <;> decide) isMark
  · cases found

theorem terminal_of_unaryOperator? {operator : UnaryOperator}
    (found : unaryOperator? token = some operator) : token.terminal = .mark operator.mark := by
  unfold unaryOperator? at found
  split at found <;> rename_i isMark <;> cases found
  · exact Token.terminal_of_content (by decide) isMark
  · exact Token.terminal_of_content (by decide) isMark

theorem sized_of_arraySize? (found : arraySize? token = some size) (base : Base) :
    (Ty.array size (.base base)).Sized := by
  unfold arraySize? at found
  split at found
  · rename_i value _
    split at found
    · rename_i range
      cases found
      have fits : value.toNat * 1 < Counter.bound := by omega
      change Counter.multiply value.toNat 1 = .ok (value.toNat * 1)
      rw [Counter.multiply, if_pos fits]
    · cases found
  · cases found

/-- What is read is the flattening of a type that programs can write. -/
theorem type_spells (cursor : Cursor) :
    Spells type cursor fun read made =>
      read.map Token.terminal = made.value.terminals ∧ made.value.Written := by
  refine Spells.peek ?_
  split
  · exact Spells.refuse
  · rename_i base isBase
    have foundBase := terminal_of_tokenBase? isBase
    refine Spells.advance foundBase (by cases base <;> decide) (Spells.sees ?_)
    split
    · rename_i isOpening
      have opening := Token.terminal_of_isMark (by decide) isOpening
      refine Spells.advance opening (by decide) (Spells.peek ?_)
      split
      · exact Spells.refuse
      · rename_i size isSize
        have foundSize := terminal_of_arraySize? isSize
        refine Spells.advance foundSize (by simp) ?_
        refine Spells.expect (by decide) fun closing => Spells.pure ⟨?_, ?_⟩
        · simp [Ty.terminals, foundBase, opening, foundSize, closing]
        · refine ⟨sized_of_arraySize? isSize base, ?_⟩
          rintro _ ⟨⟩
          rfl
    · exact Spells.pure ⟨by simp [Ty.terminals, foundBase], rfl, nofun⟩

/-! ### Expressions -/

/-- Terminals of an expression that stands as an operand, without a conversion of its own. -/
def IsOperand (read : List Token) (expr : Expr) : Prop :=
  read.map Token.terminal = expr.terminals ∧ expr.note.cast = none

theorem leftChain_spells (listed : tier ∈ tiers) (each : ∀ cursor, Spells operand cursor IsOperand)
    (allowance : Nat) {left : Expr} (cursor : Cursor) :
    Spells (leftChain tier operand allowance left) cursor fun read expr =>
      ∀ before, IsOperand before left → IsOperand (before ++ read) expr := by
  induction allowance generalizing left cursor with
  | zero => exact Spells.exhausted
  | succ allowance inductionHypothesis =>
    refine Spells.peek ?_
    split
    · exact Spells.pure fun before isLeft => by rwa [List.append_nil]
    · rename_i operator isOperator
      have found := terminal_of_operator? listed isOperator
      refine Spells.advance found (by cases operator <;> decide) ?_
      refine Spells.bind (each _) fun right later => ?_
      refine (inductionHypothesis later).mono fun more expr goesOn read isRight before isLeft => ?_
      have joined : IsOperand (before ++ cursor.peek :: read) (join left operator right) := by
        refine ⟨?_, rfl⟩
        simp [join, Expr.terminals, Note.terminals, isLeft.1, isRight.1, found]
      simpa using goesOn _ joined

theorem rightChain_spells (listed : tier ∈ tiers) (each : ∀ cursor, Spells operand cursor IsOperand)
    (allowance : Nat) (cursor : Cursor) :
    Spells (rightChain tier operand allowance) cursor IsOperand := by
  induction allowance generalizing cursor with
  | zero => exact Spells.exhausted
  | succ allowance inductionHypothesis =>
    refine Spells.bind (each cursor) fun left later => Spells.peek ?_
    split
    · exact Spells.pure fun read isLeft => by rwa [List.append_nil]
    · rename_i operator isOperator
      have found := terminal_of_operator? listed isOperator
      refine Spells.advance found (by cases operator <;> decide) ?_
      refine Spells.bind (inductionHypothesis _) fun right last => Spells.pure ?_
      intro more isRight read isLeft
      refine ⟨?_, rfl⟩
      simp [join, Expr.terminals, Note.terminals, isLeft.1, isRight.1, found]

theorem climb_spells {tightest : Rule Expr} (each : ∀ cursor, Spells tightest cursor IsOperand)
    (allowance : Nat) {some : List Tier} (listed : ∀ tier ∈ some, tier ∈ tiers) (cursor : Cursor) :
    Spells (climb tightest allowance some) cursor IsOperand := by
  induction some generalizing cursor with
  | nil => exact each cursor
  | cons tier tighter inductionHypothesis =>
    obtain ⟨listedFirst, listedRest⟩ := List.forall_mem_cons.mp listed
    have operands := inductionHypothesis listedRest
    rw [climb]
    cases tier.associativity with
    | left =>
      refine Spells.bind (operands cursor) fun left later => ?_
      exact (leftChain_spells listedFirst operands allowance later).mono
        fun read expr goesOn before isLeft => goesOn before isLeft
    | right => exact rightChain_spells listedFirst operands allowance cursor

theorem unary_spells {primary : Rule Expr} (each : ∀ cursor, Spells primary cursor IsOperand)
    (allowance : Nat) (cursor : Cursor) :
    Spells (unary primary allowance) cursor IsOperand := by
  induction allowance generalizing cursor with
  | zero => exact Spells.exhausted
  | succ allowance inductionHypothesis =>
    refine Spells.peek ?_
    split
    · exact each cursor
    · rename_i operator isOperator
      have found := terminal_of_unaryOperator? isOperator
      refine Spells.advance found (by cases operator <;> decide) ?_
      refine Spells.bind (inductionHypothesis _) fun operand later => Spells.pure ?_
      intro read isOperand
      exact ⟨by simp [Expr.terminals, Note.terminals, found, isOperand.1], rfl⟩

section Primary

variable {nested : Rule Expr} (each : ∀ cursor, Spells nested cursor (Flattens Expr.terminals))

include each

theorem listUpTo_spells {closing : Mark} (plain : closing ≠ .identifier ∧ closing ≠ .endOfFile)
    (allowance : Nat) (cursor : Cursor) :
    Spells (listUpTo closing nested allowance) cursor
      (Flattens fun items => commas (eachTerminals items) ++ [.mark closing]) := by
  have closed (items : List Expr) (cursor : Cursor) :
      Spells (do let _ ← expect closing; return items) cursor fun read found =>
        read.map Token.terminal = [.mark closing] ∧ found = items :=
    Spells.expect plain fun isClosing => Spells.pure ⟨by simp [isClosing], rfl⟩
  refine Spells.sees ?_
  split
  · refine (closed [] cursor).mono ?_
    rintro read items ⟨readIs, rfl⟩
    exact readIs
  · refine Spells.bind (commaSeparated_spells (fun cursor => (each cursor).mono
      fun _ _ isItem => ⟨isItem, trivial⟩) allowance cursor) fun items later => ?_
    refine (closed items later).mono ?_
    rintro more found ⟨moreIs, rfl⟩ read ⟨_, readIs, _⟩
    simp [Flattens, readIs, moreIs, eachTerminals_eq_map]

theorem builtinOperands_spells (note : Note) (plain : note.cast = none) (builtin : Builtin)
    (cursor : Cursor) :
    Spells (builtinOperands note builtin nested) cursor fun read expr =>
      Terminal.builtin builtin :: read.map Token.terminal = expr.terminals ∧
        expr.note.cast = none := by
  have nothing := Note.terminals_eq_nil plain
  cases builtin with
  | width | height => exact Spells.pure ⟨by simp [Expr.terminals, Side.builtin, nothing], plain⟩
  | print | delay | write | writeBox | clear => exact Spells.refuse
  | randomInt =>
    refine Spells.bind (each cursor) fun limit later => Spells.pure fun read isLimit => ?_
    exact ⟨by simp [Expr.terminals, nothing, isLimit], plain⟩
  | read =>
    refine Spells.bind (each cursor) fun x later => ?_
    refine Spells.expect (by decide) fun comma => ?_
    refine Spells.bind (each _) fun y last => Spells.pure fun more isSecond read isFirst => ?_
    refine ⟨?_, plain⟩
    simp [Expr.terminals, nothing, isFirst, isSecond, comma]

theorem named_spells (note : Note) (plain : note.cast = none) (allowance : Nat) (cursor : Cursor) :
    Spells (named note nested allowance) cursor IsOperand := by
  have nothing := Note.terminals_eq_nil plain
  refine Spells.peekSecond (Spells.identifier fun name isName isSecond => ?_)
  split
  · rename_i isParen
    have opening : cursor.advance.peek.terminal = .mark .openParen :=
      Token.terminal_of_content (by decide) (isSecond ▸ isParen)
    refine Spells.advance opening (by decide) ?_
    refine Spells.bind (listUpTo_spells each (by decide) allowance _) fun items last => ?_
    refine Spells.pure fun read isList => ⟨?_, plain⟩
    simp [Expr.terminals, nothing, isName, opening, isList]
  · rename_i isSquare
    have opening : cursor.advance.peek.terminal = .mark .openSquare :=
      Token.terminal_of_content (by decide) (isSecond ▸ isSquare)
    refine Spells.advance opening (by decide) ?_
    refine Spells.bind (each _) fun index later => ?_
    refine Spells.expect (by decide) fun closing => ?_
    refine Spells.pure fun read isIndex => ⟨?_, plain⟩
    simp [Expr.terminals, nothing, isName, opening, closing, isIndex]
  · exact Spells.pure ⟨by simp [Expr.terminals, nothing, isName], plain⟩

theorem primary_spells (allowance : Nat) (cursor : Cursor) :
    Spells (primary nested allowance) cursor IsOperand := by
  refine Spells.peek ?_
  split
  · rename_i value isLiteral
    have found : cursor.peek.terminal = .literal value := by rw [Token.terminal, isLiteral]
    refine Spells.advance found (by simp) (Spells.pure ⟨?_, rfl⟩)
    simp [Expr.terminals, Note.terminals, found]
  · rename_i builtin isBuiltin
    have found : cursor.peek.terminal = .builtin builtin := by rw [Token.terminal, isBuiltin]
    split
    · exact Spells.refuse
    · refine Spells.advance found (by simp) ?_
      refine (builtinOperands_spells each _ rfl builtin _).mono fun read expr isBuiltin => ?_
      exact ⟨by rw [List.map_cons, found, isBuiltin.1], isBuiltin.2⟩
  · rename_i isParen
    have opening := Token.terminal_of_content (by decide) isParen
    refine Spells.advance opening (by decide) ?_
    refine Spells.bind (each _) fun inner later => ?_
    refine Spells.expect (by decide) fun closing => ?_
    refine Spells.pure fun read isInner => ⟨?_, rfl⟩
    simp [Expr.terminals, Note.terminals, opening, closing, isInner]
  · rename_i isSquare
    have opening := Token.terminal_of_content (by decide) isSquare
    refine Spells.advance opening (by decide) ?_
    refine Spells.bind (listUpTo_spells each (by decide) allowance _) fun items last => ?_
    refine Spells.pure fun read isList => ⟨?_, rfl⟩
    simp [Expr.terminals, Note.terminals, opening, isList]
  · exact named_spells each _ rfl allowance cursor
  · exact Spells.refuse

end Primary

theorem conversion_spells (each : ∀ cursor, Spells operand cursor IsOperand) (cursor : Cursor) :
    Spells (conversion operand) cursor (Flattens Expr.terminals) := by
  refine Spells.bind (each cursor) fun expr later => Spells.sees ?_
  split
  · rename_i isAs
    have found := Token.terminal_of_isMark (by decide) isAs
    refine Spells.advance found (by decide) ?_
    refine Spells.bind (type_spells _) fun cast last => ?_
    refine Spells.pure fun more isType read isOperand => ?_
    rw [Flattens, expr.terminals_withCast isOperand.2]
    simp [isOperand.1, found, isType.1]
  · refine Spells.pure fun read isOperand => ?_
    rw [List.append_nil]
    exact isOperand.1

/-- An expression flattens to what was read of it. -/
theorem expression_spells (allowance : Nat) (cursor : Cursor) :
    Spells (expression allowance) cursor (Flattens Expr.terminals) := by
  induction allowance generalizing cursor with
  | zero => exact Spells.exhausted
  | succ allowance inductionHypothesis =>
    have tightest := unary_spells (primary_spells inductionHypothesis (allowance + 1))
      (allowance + 1)
    exact conversion_spells (climb_spells tightest (allowance + 1) fun _ => id) cursor

end Grammar

end PadLang
