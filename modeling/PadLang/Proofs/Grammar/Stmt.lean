/-
This file follows statements and whole programs through the tokens ahead.

A statement that is refused has consumed its first token, or that token does not begin a statement
and recovery skips it. So every attempt leaves fewer tokens ahead, and the grammar reads every list
of tokens to its end.
-/

import PadLang.Proofs.Grammar.Expr

namespace PadLang

variable {token : Token} {mark : Mark} {bound count : Nat} {expr : Rule Expr}
  {cursor other : Cursor}

namespace Grammar

open Rule

/-! ### Recovery -/

theorem content_ne_of_not_isMark (isNot : ¬token.isMark mark = true) :
    token.content ≠ .mark mark := by
  rwa [Token.isMark, beq_iff_eq] at isNot

theorem skip_suffix (behind : Position) (tokens : List Token) :
    (skip behind tokens).1 <:+ tokens := by
  induction tokens generalizing behind with
  | nil => exact List.suffix_rfl
  | cons token rest inductionHypothesis =>
    rw [skip]
    split
    · exact List.suffix_cons token rest
    · split
      · exact List.suffix_rfl
      · exact (inductionHypothesis token.position).trans (List.suffix_cons token rest)

theorem left_recover_le (error : Located ParseError) : (recover cursor error).left ≤ cursor.left :=
  (skip_suffix cursor.behind cursor.ahead).length_le

/-- A token that does not begin a statement is skipped. -/
theorem left_recover_lt (error : Located ParseError) (ended : cursor.Ended)
    (notEnd : cursor.peek.content ≠ .mark .endOfFile)
    (notFirst : beginsStatement cursor.peek = false) :
    (recover cursor error).left < cursor.left := by
  obtain ⟨token, rest, ahead⟩ := List.exists_cons_of_ne_nil (Cursor.ahead_ne_nil ended notEnd)
  rw [Cursor.peek, ahead, List.headD_cons] at notFirst notEnd
  have isNot : token.isMark .endOfFile = false :=
    Bool.eq_false_iff.mpr fun isEnd => notEnd (Cursor.content_of_isMark isEnd)
  have skipped : (skip cursor.behind cursor.ahead).1 <:+ rest := by
    rw [ahead, skip, notFirst, isNot]
    split
    · exact List.suffix_rfl
    · exact skip_suffix token.position rest
  have shorter := skipped.length_le
  change (skip cursor.behind cursor.ahead).1.length < cursor.ahead.length
  rw [ahead, List.length_cons] at *
  omega

variable {clear opened : Cursor → Cursor → Prop} (pairs : Cursor.Pairs clear opened)

/-! ### Simple statements -/

/-- A rule that begins with a mark. In front of the mark it consumes a token in any case. -/
def Starts {α : Type} (clear opened : Cursor → Cursor → Prop) (mark : Mark) (bound : Nat)
    (rule : Rule α) : Prop :=
  (∀ token, token.isMark mark = true → Follows opened clear token bound true true rule) ∧
    Keeps clear bound true rule

section

variable (each : Keeps clear bound true expr)

include pairs each

omit each in
theorem starts_expect {α : Type} {fewer : Nat} {more : Bool} {rest : Token → Rule α}
    (notEnd : mark ≠ .endOfFile) (fits : bound ≤ fewer + 1)
    (next : ∀ token, Keeps clear fewer more (rest token)) :
    Starts clear opened mark bound (expect mark >>= rest) :=
  ⟨fun _ seen => (pairs.expect_seen id seen notEnd).andThen fits next,
    fun token => (pairs.expect notEnd token).andThen fits next⟩

theorem starts_declaration : Starts clear opened .letWord bound (declaration expr) :=
  starts_expect pairs (by decide) (Nat.le_succ _) fun _ => pairs.identifier.bind fun _ =>
    (pairs.expect (by decide)).bind fun _ => (keeps_type pairs).bind fun _ =>
      (pairs.expect (by decide)).bind fun _ => each.bind fun _ => keeps_pure _

theorem keeps_targetIndex : Keeps clear bound false (targetIndex expr) :=
  pairs.option (by decide)
    (fun _ => each.bind fun _ => (pairs.expect (by decide)).bind fun _ => keeps_pure _)
    (keeps_pure _)

theorem keeps_assignment : Keeps clear bound true (assignment expr) :=
  pairs.identifier.bind fun _ => (keeps_targetIndex pairs each).bind fun _ =>
    (pairs.expect (by decide)).bind fun _ => each.bind fun _ => keeps_pure _

theorem keeps_operand : Keeps clear bound true (operand expr) :=
  each.bind fun _ => (pairs.expect (by decide)).bind fun _ => keeps_pure _

theorem keeps_actionOperands (builtin : Builtin) :
    Keeps clear bound true (actionOperands builtin expr) := by
  have separated := keeps_operand pairs each
  cases builtin with
  | width | height | read | randomInt => exact pairs.refuse _
  | print | delay | clear => exact each.bind fun _ => keeps_pure _
  | write =>
    exact separated.bind fun _ => separated.bind fun _ => each.bind fun _ => keeps_pure _
  | writeBox =>
    exact separated.bind fun _ => separated.bind fun _ => separated.bind fun _ =>
      separated.bind fun _ => each.bind fun _ => keeps_pure _

/-! ### Clauses -/

theorem keeps_condition : Keeps clear bound true (condition expr) :=
  (pairs.expect (by decide)).bind fun _ => each.bind fun _ =>
    (pairs.expect (by decide)).bind fun _ => keeps_pure _

theorem keeps_loopInit : Keeps clear bound false (loopInit expr) :=
  pairs.sees.bind fun _ =>
    .ite ((starts_declaration pairs each).2.bind fun _ => keeps_pure _).lax (keeps_pure _)

theorem keeps_loopUpdate : Keeps clear bound false (loopUpdate expr) :=
  pairs.sees.bind fun _ =>
    .ite (keeps_pure _) ((keeps_assignment pairs each).bind fun _ => keeps_pure _).lax

omit each in
theorem keeps_parameter : Keeps clear bound true parameter :=
  pairs.identifier.bind fun _ => (pairs.expect (by decide)).bind fun _ =>
    (keeps_type pairs).bind fun _ => keeps_pure _

omit each in
theorem starts_header (enough : bound ≤ count) :
    Starts clear opened .funWord bound (header count) := by
  have closed (name : Ident) (parameters : List Parameter) : Keeps clear bound true (do
      let _ ← expect .closeParen
      let _ ← expect .arrow
      let returns ← type
      return ({ name, parameters, returns } : Header)) :=
    (pairs.expect (by decide)).bind fun _ => (pairs.expect (by decide)).bind fun _ =>
      (keeps_type pairs).bind fun _ => keeps_pure _
  exact starts_expect pairs (by decide) (Nat.le_succ _) fun _ => pairs.identifier.bind fun name =>
    (pairs.expect (by decide)).bind fun _ => pairs.sees.bind fun _ => .ite
      ((keeps_pure _).bind (closed name))
      ((keeps_commaSeparated pairs (keeps_parameter pairs) enough).bind (closed name))

/-! ### Statements in sequence -/

/-- A rule that reads statements from open places. A first token that begins a statement is
consumed in any case. -/
def ReadsStatements (clear opened : Cursor → Cursor → Prop) (bound : Nat)
    (statement : Rule Stmt) : Prop :=
  ∀ token, Follows opened clear token bound true (beginsStatement token) statement

omit pairs each in
theorem ReadsStatements.within {statement : Rule Stmt} {most : Nat}
    (each : ReadsStatements clear opened bound statement)
    (fewer : most ≤ bound) : ReadsStatements clear opened most statement :=
  fun token => (each token).mono fewer (Bool.le_refl _) (Bool.le_refl _)

end

section

variable {statement : Rule Stmt} (each : ReadsStatements clear opened bound statement)

include pairs each

/-- An attempt makes progress, whether a statement is read or skipped. -/
theorem attempt_agree (isOpen : opened cursor other) (inside : cursor.left < bound)
    (notEnd : cursor.peek.content ≠ .mark .endOfFile) :
    ∃ found next nextOther, attempt statement cursor = .done found next ∧
      attempt statement other = .done found nextOther ∧ opened next nextOther ∧
      next.left < cursor.left := by
  have outcome := each _ cursor other isOpen rfl inside
  rw [attempt, attempt]
  generalize statement cursor = here at outcome
  generalize statement other = there at outcome
  cases outcome with
  | done isClear reaches => exact ⟨_, _, _, rfl, rfl, pairs.opens isClear, reaches.left_lt⟩
  | @refused error next _ isClear reaches blames =>
    refine ⟨_, _, _, rfl, rfl, pairs.recovers isClear blames, ?_⟩
    rcases reaches with fewer | ⟨notFirst, rfl⟩
    · exact Nat.lt_of_le_of_lt (left_recover_le error) fewer
    · exact left_recover_lt error (pairs.ended isOpen) notEnd notFirst

theorem follows_blockRest (enough : bound ≤ count) (token : Token) :
    Follows opened clear token bound true false (blockRest statement count) := by
  induction count generalizing bound token with
  | zero =>
    intro cursor other _ _ inside
    omega
  | succ count inductionHypothesis =>
    refine pairs.sees_bind id ?_
    split
    · rename_i seen
      exact Follows.any ((pairs.advance id (Cursor.content_ne_of_isMark seen (by decide))).bind
        fun _ => keeps_pure _)
    · refine pairs.sees_bind id ?_
      split
      · rename_i isEnd
        have notFirst : beginsStatement token = false := by
          rw [beginsStatement, Cursor.content_of_isMark isEnd]
        rintro cursor other isOpen rfl inside
        exact ((pairs.expect (by decide)).bind fun _ => keeps_pure _) cursor.peek cursor other
          (pairs.clears isOpen notFirst) rfl inside
      · rename_i isNot
        intro cursor other isOpen isToken inside
        subst isToken
        obtain ⟨found, next, nextOther, here, there, isOpenNext, fewer⟩ :=
          attempt_agree pairs each isOpen inside (content_ne_of_not_isMark isNot)
        have others := inductionHypothesis (each.within (Nat.le_of_lt inside))
          (Nat.le_of_lt_succ (Nat.lt_of_lt_of_le inside enough)) next.peek
        have following := (others.bind fun rest => keeps_pure (found.toList ++ rest)) _ _
          isOpenNext rfl fewer
        have reaches : cursor.Reaches true next := .inl fewer
        change (andThen (attempt statement) _ cursor).Agree clear cursor _ _
          (andThen (attempt statement) _ other)
        rw [andThen, andThen, here, there]
        exact (following.after reaches).mono (Bool.le_refl _) (Bool.false_le _)

/-- A sequence refuses nothing: every error in it is recovered from, and it is read up to the end
of file. -/
theorem sequence_agree (enough : bound ≤ count) (isOpen : opened cursor other)
    (inside : cursor.left < bound) :
    ∃ read next nextOther, sequence statement count cursor = .done read next ∧
      sequence statement count other = .done read nextOther ∧ opened next nextOther ∧
      next.peek.isMark .endOfFile = true := by
  induction count generalizing bound cursor other with
  | zero => omega
  | succ count inductionHypothesis =>
    have step (place : Cursor) : sequence statement (count + 1) place =
        (if place.peek.isMark .endOfFile then pure []
        else attempt statement >>= fun first => sequence statement count >>= fun rest =>
          pure (first.toList ++ rest) : Rule (List Stmt)) place := rfl
    rw [step, step, pairs.next isOpen]
    split
    · exact ⟨[], cursor, other, rfl, rfl, isOpen, ‹_›⟩
    · rename_i isNot
      obtain ⟨found, next, nextOther, here, there, isOpenNext, fewer⟩ :=
        attempt_agree pairs each isOpen inside (content_ne_of_not_isMark isNot)
      obtain ⟨rest, last, lastOther, hereRest, thereRest, isOpenLast, isEnd⟩ :=
        inductionHypothesis (each.within (Nat.le_of_lt inside))
          (Nat.le_of_lt_succ (Nat.lt_of_lt_of_le inside enough)) isOpenNext fewer
      refine ⟨found.toList ++ rest, last, lastOther, ?_, ?_, isOpenLast, isEnd⟩
      · exact bind_eq_done_iff.mpr ⟨found, next, here,
          bind_eq_done_iff.mpr ⟨rest, last, hereRest, rfl⟩⟩
      · exact bind_eq_done_iff.mpr ⟨found, nextOther, there,
          bind_eq_done_iff.mpr ⟨rest, lastOther, thereRest, rfl⟩⟩

end

/-! ### Compound statements -/

include pairs

theorem starts_block {statement : Rule Stmt} (each : ReadsStatements clear opened bound statement)
    (enough : bound ≤ count) : Starts clear opened .openCurly (bound + 1) (block statement count) :=
  starts_expect pairs (by decide) (Nat.le_refl _) fun _ => Keeps.bind
    (fun _ _ _ isClear => follows_blockRest pairs each enough _ _ _ (pairs.opens isClear))
    fun _ => keeps_pure _

theorem keeps_alternative {block : Rule Block} (each : Keeps clear bound true block) :
    Keeps clear bound false (alternative block) :=
  pairs.option (by decide) (fun _ => each.bind fun _ => keeps_pure _) (keeps_pure _)

/-- A builtin that stands as a statement is consumed; any other does not begin a statement. -/
theorem follows_action {builtin : Builtin} (each : Keeps clear bound true expr)
    (isBuiltin : token.content = .builtin builtin) :
    Follows opened clear token bound true (beginsStatement token) (action builtin expr) := by
  unfold action
  split
  · exact Follows.any ((pairs.advance id (by simp [isBuiltin])).bind fun _ =>
      keeps_actionOperands pairs each builtin)
  · rename_i notStatement
    refine pairs.settle (pairs.refuse _) ?_
    rw [beginsStatement, isBuiltin]
    exact Bool.eq_false_iff.mpr notStatement

/-- Whatever begins a statement is consumed by it before anything can be refused. -/
theorem follows_statementParts {block : Rule Block} (exprs : Keeps clear bound true expr)
    (blocks : Starts clear opened .openCurly bound block) (enough : bound ≤ count) :
    Follows opened clear token bound true (beginsStatement token)
      (statementParts token block expr count) := by
  have nested := blocks.2
  have seen {mark : Mark} (found : token.content = .mark mark) : token.isMark mark = true := by
    rw [Token.isMark, found, beq_self_eq_true]
  have semicolon {make : Span → Stmt} : Keeps clear bound true (do
      let _ ← expect .semicolon
      return make) := (pairs.expect (by decide)).bind fun _ => keeps_pure _
  unfold statementParts
  split
  case h_1 found =>
    exact Follows.any (((starts_declaration pairs exprs).1 token (seen found)).bind fun _ =>
      semicolon)
  case h_2 builtin found =>
    exact ((follows_action pairs exprs found).bind fun _ => semicolon).mono (Nat.le_refl _)
      (Bool.le_refl _) (by simp)
  case h_3 found =>
    exact Follows.any ((blocks.1 token (seen found)).bind fun _ => keeps_pure _)
  case h_4 found =>
    exact Follows.any ((pairs.expect_seen id (seen found) (by decide)).bind fun _ =>
      (keeps_condition pairs exprs).bind fun _ => nested.bind fun _ =>
        (keeps_alternative pairs nested).bind fun _ => keeps_pure _)
  case h_5 found =>
    exact Follows.any ((pairs.expect_seen id (seen found) (by decide)).bind fun _ =>
      (pairs.expect (by decide)).bind fun _ => (keeps_loopInit pairs exprs).bind fun _ =>
        (pairs.expect (by decide)).bind fun _ => exprs.bind fun _ =>
          (pairs.expect (by decide)).bind fun _ => (keeps_loopUpdate pairs exprs).bind fun _ =>
            (pairs.expect (by decide)).bind fun _ => nested.bind fun _ => keeps_pure _)
  case h_6 found =>
    exact Follows.any ((pairs.expect_seen id (seen found) (by decide)).bind fun _ =>
      (keeps_condition pairs exprs).bind fun _ => nested.bind fun _ => keeps_pure _)
  case h_7 found =>
    exact Follows.any (((starts_header pairs enough).1 token (seen found)).bind fun _ =>
      nested.bind fun _ => keeps_pure _)
  case h_8 found =>
    exact Follows.any ((pairs.advance id (by simp [found])).bind fun _ =>
      exprs.bind fun _ => semicolon)
  case h_9 =>
    refine pairs.settle ((keeps_assignment pairs exprs).bind fun _ => semicolon) ?_
    unfold beginsStatement
    split <;> simp_all

/-- An allowance above the number of tokens ahead is enough for a statement. -/
theorem statement_reads (allowance : Nat) :
    ReadsStatements clear opened allowance (statement allowance) := by
  induction allowance with
  | zero => exact fun _ _ _ _ _ inside => absurd inside (Nat.not_lt_zero _)
  | succ allowance inductionHypothesis =>
    intro token
    have blocks := starts_block pairs inductionHypothesis (Nat.le_succ allowance)
    refine pairs.peek_bind id (Follows.mono ((follows_statementParts pairs
      (keeps_expression pairs _) blocks (Nat.le_refl _)).bind fun make =>
        pairs.behind.bind fun _ => keeps_pure _) (Nat.le_refl _) (Bool.le_refl _) (by simp))

omit pairs

/-! ### Programs -/

theorem ended_ofTokens (tokens : List Token) : (Cursor.ofTokens tokens).Ended := by
  change Token.isMark ((List.find? _ _).getD _) .endOfFile = true
  cases found : List.find? (fun token : Token => token.isMark .endOfFile)
      (tokens.filter fun token => !token.isTrivia) with
  | none => rfl
  | some last =>
    have isEnd := List.find?_some found
    exact isEnd

/-- Places compared with themselves. -/
theorem pairs_self {clear opened : Cursor → Prop} (opens : ∀ {cursor}, clear cursor → opened cursor)
    (ended : ∀ {cursor}, opened cursor → cursor.Ended)
    (advances : ∀ {cursor}, opened cursor → clear cursor.advance)
    (clears : ∀ {cursor}, opened cursor → beginsStatement cursor.peek = false → clear cursor)
    (recovers : ∀ {cursor error}, clear cursor → error.position = cursor.peek.position →
      opened (recover cursor error)) :
    Cursor.Pairs (fun cursor other => other = cursor ∧ clear cursor)
      (fun cursor other => other = cursor ∧ opened cursor) where
  opens := fun ⟨same, isClear⟩ => ⟨same, opens isClear⟩
  ended := fun ⟨_, isOpen⟩ => ended isOpen
  next := fun ⟨same, _⟩ => congrArg _ same
  second := fun ⟨same, _⟩ _ => congrArg _ same
  last := fun ⟨same, _⟩ => congrArg _ same
  advances := fun ⟨same, isOpen⟩ _ => ⟨congrArg _ same, advances isOpen⟩
  clears := fun ⟨same, isOpen⟩ notFirst => ⟨same, clears isOpen notFirst⟩
  recovers := fun ⟨same, isClear⟩ blames => ⟨congrArg (recover · _) same, recovers isClear blames⟩

theorem ended_advance (ended : cursor.Ended) : cursor.advance.Ended := by
  unfold Cursor.advance
  split <;> exact ended

/-- From paired places a program is read to the end of file. -/
theorem program_agree (pairs : Cursor.Pairs clear opened) {tokens : List Token} {start : Cursor}
    (isStart : start = .ofTokens tokens) (isOpen : opened start other) :
    ∃ read next nextOther, statements (allowanceFor start) start = .done read next ∧
      statements (allowanceFor start) other = .done read nextOther ∧ opened next nextOther ∧
      next.peek.isMark .endOfFile = true ∧
      program tokens = .ok (if next.errors = [] then .ok ⟨read⟩ else .error next.errors) := by
  obtain ⟨read, next, nextOther, here, there, isOpenNext, isEnd⟩ :=
    sequence_agree pairs (statement_reads pairs _) (Nat.le_refl _) isOpen (Nat.lt_succ_self _)
  refine ⟨read, next, nextOther, here, there, isOpenNext, isEnd, ?_⟩
  change statements (allowanceFor start) start = _ at here
  unfold program
  dsimp only
  rw [← isStart, here]
  dsimp only
  split
  · rename_i clean
    rw [if_pos clean]
  · rename_i unclean
    rw [if_neg unclean]

/-- Every list of tokens is read to its end. -/
theorem program_reads (tokens : List Token) :
    ∃ read next,
      statements (allowanceFor (.ofTokens tokens)) (.ofTokens tokens) = .done read next ∧
      next.peek.isMark .endOfFile = true ∧
      program tokens = .ok (if next.errors = [] then .ok ⟨read⟩ else .error next.errors) := by
  have pairs := pairs_self (fun ended => ended) (fun ended => ended) ended_advance
    (fun ended _ => ended) fun ended _ => ended
  obtain ⟨read, next, _, done, _, _, isEnd, isProgram⟩ :=
    program_agree pairs rfl ⟨rfl, ended_ofTokens tokens⟩
  exact ⟨read, next, done, isEnd, isProgram⟩

end Grammar

end PadLang
