/-
This file shows that reading a program loses nothing.

A program that is read without errors flattens to the significant tokens in front of the first end
of file. No token is skipped, read twice or moved, and none is made up. Every statement in it, at
any depth, has a part of its own in that flattening, and it notes where the first and the last
token of that part are.

What is read declares scalars and arrays of scalars, whose cells a counter can count, and bears no
scopes yet. A block costs its two braces, so blocks are nested at most half as deep as there are
tokens.
-/

import PadLang.Proofs.Code.Lexical
import PadLang.Proofs.Grammar.Spelling
import PadLang.Proofs.Grammar.Stmt

namespace PadLang

variable {read tokens inside more : List Token} {behind terminals : List Terminal}
  {parts : List (Nat × Stmt)}

/-! ### Freshly read syntax -/

/-- The declared types are such as programs can write, and no scope is noted yet. -/
def Stmt.Fresh (statement : Stmt) : Prop :=
  statement.AllTypes Ty.Written ∧ statement.scopes = []

@[inherit_doc Stmt.Fresh]
def Block.Fresh (block : Block) : Prop := block.AllTypes Ty.Written ∧ block.scopes = []

@[inherit_doc Stmt.Fresh]
def allFresh (statements : List Stmt) : Prop :=
  allTypes Ty.Written statements ∧ scopesOf statements = []

theorem allFresh.sized {statements : List Stmt} (fresh : allFresh statements) :
    allSized statements ∧ scopesOf statements = [] :=
  ⟨allTypes.mono (fun _ => Ty.Written.sized) fresh.1, fresh.2⟩

theorem allFresh_nil : allFresh [] := ⟨trivial, rfl⟩

theorem allFresh_cons {first : Stmt} {rest : List Stmt} (freshFirst : first.Fresh)
    (freshRest : allFresh rest) : allFresh (first :: rest) :=
  ⟨⟨freshFirst.1, freshRest.1⟩, by rw [scopesOf, freshFirst.2, freshRest.2]; rfl⟩

/-! ### The tokens of a statement -/

/-- Some of the tokens that were read are those of a statement, behind so many others, and its span
is where they begin and end. -/
def Placed (read : List Token) (part : Nat × Stmt) : Prop :=
  ∃ before own after, read = before ++ (own ++ after) ∧ before.length = part.1 ∧
    own.map Token.terminal = part.2.terminals ∧
    own.head?.map Token.position = some part.2.span.first ∧
    own.getLast?.map Token.position = some part.2.span.last

/-- Statements stay where they are when more is read in front and behind. -/
theorem placed_shifted (placed : ∀ part ∈ parts, Placed inside part) (before : List Token)
    {count : Nat} (counted : before.length = count) (after : List Token) :
    ∀ part ∈ shifted count parts, Placed (before ++ (inside ++ after)) part := by
  subst counted
  refine List.forall_mem_map.mpr fun part member => ?_
  obtain ⟨first, own, last, rfl, place, rest⟩ := placed part member
  refine ⟨before ++ first, own, last ++ after, ?_, ?_, rest⟩
  · simp only [List.append_assoc]
  · rw [List.length_append, place]

/-! ### The tokens that a statement is read from -/

/-- The tokens are these terminals. -/
def Spelled (terminals : List Terminal) (read : List Token) : Prop :=
  read.map Token.terminal = terminals

/-- The tokens are what is asked for first, and then what is asked for behind it. -/
def Then (first second : List Token → Prop) (read : List Token) : Prop :=
  ∃ own more, read = own ++ more ∧ first own ∧ second more

/-- The tokens begin and end where the statement notes it. -/
def Stmt.Spans (statement : Stmt) (read : List Token) : Prop :=
  read.head?.map Token.position = some statement.span.first ∧
    read.getLast?.map Token.position = some statement.span.last

mutual

/-- The tokens of a statement, and of those inside it where these note it. -/
def Stmt.ReadFrom : Stmt → List Token → Prop
  | .assignment span made => Spelled (Stmt.assignment span made).terminals
  | .declaration span made => Spelled (Stmt.declaration span made).terminals
  | .action span done => Spelled (Stmt.action span done).terminals
  | .returnValue span value => Spelled (Stmt.returnValue span value).terminals
  | .block _ body => body.ReadFrom
  | .function _ header body => Then (Spelled header.terminals) body.ReadFrom
  | .conditional _ condition first none =>
    Then (Spelled (conditionTerminals .ifWord condition)) first.ReadFrom
  | .conditional _ condition first (some second) =>
    Then (Spelled (conditionTerminals .ifWord condition))
      (Then first.ReadFrom (Then (Spelled [.mark .elseWord]) second.ReadFrom))
  | .forLoop _ init condition update body =>
    Then (Spelled (clauseTerminals init condition update)) body.ReadFrom
  | .whileLoop _ condition body =>
    Then (Spelled (conditionTerminals .whileWord condition)) body.ReadFrom

/-- The tokens of a block. -/
def Block.ReadFrom : Block → List Token → Prop
  | .mk _ _ body =>
    Then (Spelled [.mark .openCurly]) (Then (allReadFrom body) (Spelled [.mark .closeCurly]))

/-- The tokens of statements that follow one another. -/
def allReadFrom : List Stmt → List Token → Prop
  | [] => Spelled []
  | first :: rest => Then (fun own => first.Spans own ∧ first.ReadFrom own) (allReadFrom rest)

end

/-- The tokens are these terminals, and the statements have their places among them. -/
structure Covers (terminals : List Terminal) (parts : List (Nat × Stmt)) (read : List Token) :
    Prop where
  terminals : Spelled terminals read
  placed : ∀ part ∈ parts, Placed read part

theorem Spelled.covers (spelled : Spelled terminals read) : Covers terminals [] read :=
  ⟨spelled, List.forall_mem_nil _⟩

theorem Then.covers {first second : List Token → Prop} {others : List Terminal}
    {more : List (Nat × Stmt)} (reads : Then first second read)
    (isFirst : ∀ {own}, first own → Covers terminals parts own)
    (isSecond : ∀ {own}, second own → Covers others more own) :
    Covers (terminals ++ others) (parts ++ shifted terminals.length more) read := by
  obtain ⟨own, rest, rfl, ownRead, restRead⟩ := reads
  have coversOwn := isFirst ownRead
  have coversRest := isSecond restRead
  have counted : own.length = terminals.length := by rw [← coversOwn.terminals, List.length_map]
  have before := placed_shifted coversOwn.placed [] rfl rest
  have behind := placed_shifted coversRest.placed own counted []
  refine ⟨?_, List.forall_mem_append.mpr ⟨?_, by simpa using behind⟩⟩
  · rw [Spelled, List.map_append, coversOwn.terminals, coversRest.terminals]
  · simpa [shifted] using before

mutual

theorem Stmt.ReadFrom.covers {statement : Stmt} {read : List Token}
    (reads : statement.ReadFrom read) : Covers statement.terminals statement.inner read := by
  match statement with
  | .assignment _ _ | .declaration _ _ | .action _ _ | .returnValue _ _ =>
    exact Spelled.covers reads
  | .block _ _ => exact Block.ReadFrom.covers reads
  | .function _ _ _ | .conditional _ _ _ none | .forLoop _ _ _ _ _ | .whileLoop _ _ _ =>
    exact Then.covers reads Spelled.covers Block.ReadFrom.covers
  | .conditional _ _ first (some second) =>
    have covers := Then.covers reads Spelled.covers fun rest => Then.covers rest
      Block.ReadFrom.covers fun last => Then.covers last Spelled.covers Block.ReadFrom.covers
    simpa [Stmt.terminals, Stmt.inner, shifted, Function.comp_def, Nat.add_assoc] using covers

theorem Block.ReadFrom.covers {block : Block} {read : List Token} (reads : block.ReadFrom read) :
    Covers block.terminals block.inner read := by
  match block with
  | .mk _ _ body =>
    have covers := Then.covers reads Spelled.covers fun rest =>
      Then.covers rest allReadFrom.covers Spelled.covers
    simpa [Block.terminals, Block.inner, shifted] using covers

/-- Statements have their places among the tokens that they are read from. -/
theorem allReadFrom.covers {statements : List Stmt} {read : List Token}
    (reads : allReadFrom statements read) :
    Covers (terminalsOf statements) (placingsOf statements) read := by
  match statements with
  | [] => exact Spelled.covers reads
  | first :: rest =>
    have whole {own : List Token} (isFirst : first.Spans own ∧ first.ReadFrom own) :
        Covers first.terminals ((0, first) :: first.inner) own := by
      have covers := isFirst.2.covers
      refine ⟨covers.terminals, List.forall_mem_cons.mpr ⟨?_, covers.placed⟩⟩
      exact ⟨[], own, [], by simp, rfl, covers.terminals, isFirst.1⟩
    exact Then.covers reads whole allReadFrom.covers

end

/-- The tokens of a statement that is freshly read, and where they begin and end. -/
structure IsStmt (read : List Token) (statement : Stmt) : Prop where
  spans : statement.Spans read
  reads : statement.ReadFrom read
  fresh : statement.Fresh

/-- The tokens of a block that is freshly read. -/
structure IsBlock (read : List Token) (block : Block) : Prop where
  reads : block.ReadFrom read
  fresh : block.Fresh

/-- The tokens of statements that are freshly read, and some more behind them. -/
structure IsSequence (behind : List Terminal) (read : List Token) (statements : List Stmt) :
    Prop where
  reads : Then (allReadFrom statements) (Spelled behind) read
  fresh : allFresh statements

theorem IsStmt.cons {statement : Stmt} {statements : List Stmt} (first : IsStmt read statement)
    (rest : IsSequence behind more statements) :
    IsSequence behind (read ++ more) (statement :: statements) := by
  obtain ⟨⟨own, last, rfl, reads, isBehind⟩, fresh⟩ := rest
  refine ⟨⟨read ++ own, last, (List.append_assoc _ _ _).symm, ?_, isBehind⟩,
    allFresh_cons first.fresh fresh⟩
  exact ⟨read, own, rfl, ⟨first.spans, first.reads⟩, reads⟩

theorem isSequence_nil (isBehind : Spelled behind read) : IsSequence behind read [] :=
  ⟨⟨[], read, rfl, rfl, isBehind⟩, allFresh_nil⟩

namespace Grammar

open Rule

variable {cursor : Cursor}

/-! ### Simple statements -/

section Simple

variable {expr : Rule Expr} (each : ∀ cursor, Spells expr cursor (Flattens Expr.terminals))

include each

theorem declaration_spells (cursor : Cursor) :
    Spells (declaration expr) cursor fun read made =>
      Flattens Declaration.terminals read made ∧ made.type.value.Written := by
  refine Spells.expect (by decide) fun isLet => ?_
  refine Spells.identifier fun name isName _ => ?_
  refine Spells.expect (by decide) fun colon => ?_
  refine Spells.bind (type_spells _) fun type _ => ?_
  refine Spells.expect (by decide) fun assign => ?_
  refine Spells.bind (each _) fun value _ => Spells.pure fun more isValue read isType => ?_
  refine ⟨?_, isType.2⟩
  simp [Flattens, Declaration.terminals, isLet, isName, colon, isType.1, assign, isValue]

theorem targetIndex_spells (cursor : Cursor) :
    Spells (targetIndex expr) cursor (Flattens indexTerminals) := by
  refine Spells.sees ?_
  split
  · rename_i isSquare
    have opening := Token.terminal_of_isMark (by decide) isSquare
    refine Spells.advance opening (by decide) ?_
    refine Spells.bind (each _) fun index _ => ?_
    refine Spells.expect (by decide) fun closing => Spells.pure fun read isIndex => ?_
    simp [Flattens, indexTerminals, opening, isIndex, closing]
  · exact Spells.pure rfl

theorem assignment_spells (cursor : Cursor) :
    Spells (assignment expr) cursor (Flattens Assignment.terminals) := by
  refine Spells.identifier fun target isTarget _ => ?_
  refine Spells.bind (targetIndex_spells each _) fun index _ => ?_
  refine Spells.expect (by decide) fun assign => ?_
  refine Spells.bind (each _) fun value _ => Spells.pure fun more isValue read isIndex => ?_
  simp [Flattens, Assignment.terminals, isTarget, isIndex, assign, isValue]

theorem operand_spells (cursor : Cursor) :
    Spells (operand expr) cursor (Flattens fun value => value.terminals ++ [.mark .comma]) := by
  refine Spells.bind (each cursor) fun value _ => ?_
  refine Spells.expect (by decide) fun comma => Spells.pure fun read isValue => ?_
  simp [Flattens, isValue, comma]

theorem actionOperands_spells (builtin : Builtin) (cursor : Cursor) :
    Spells (actionOperands builtin expr) cursor fun read done =>
      Terminal.builtin builtin :: read.map Token.terminal = done.terminals := by
  cases builtin with
  | width | height | read | randomInt => exact Spells.refuse
  | print | delay | clear =>
    refine Spells.bind (each cursor) fun value _ => Spells.pure fun read isValue => ?_
    simp [Action.terminals, isValue]
  | write =>
    refine Spells.bind (operand_spells each cursor) fun x _ => ?_
    refine Spells.bind (operand_spells each _) fun y _ => ?_
    refine Spells.bind (each _) fun colour _ => Spells.pure ?_
    intro third isColour second isY read isX
    simp [Action.terminals, commas, isX, isY, isColour]
  | writeBox =>
    refine Spells.bind (operand_spells each cursor) fun x _ => ?_
    refine Spells.bind (operand_spells each _) fun y _ => ?_
    refine Spells.bind (operand_spells each _) fun width _ => ?_
    refine Spells.bind (operand_spells each _) fun height _ => ?_
    refine Spells.bind (each _) fun colour _ => Spells.pure ?_
    intro fifth isColour fourth isHeight third isWidth second isY read isX
    simp [Action.terminals, commas, isX, isY, isWidth, isHeight, isColour]

theorem action_spells {builtin : Builtin} (found : cursor.peek.terminal = .builtin builtin) :
    Spells (action builtin expr) cursor (Flattens Action.terminals) := by
  unfold action
  split
  · refine Spells.advance found (by simp) ?_
    refine (actionOperands_spells each builtin _).mono fun read done isDone => ?_
    rw [Flattens, List.map_cons, found, isDone]
  · exact Spells.refuse

/-! ### Compound statements -/

theorem condition_spells (cursor : Cursor) :
    Spells (condition expr) cursor
      (Flattens fun found => .mark .openParen :: (found.terminals ++ [.mark .closeParen])) := by
  refine Spells.expect (by decide) fun opening => ?_
  refine Spells.bind (each _) fun found _ => ?_
  refine Spells.expect (by decide) fun closing => Spells.pure fun read isCondition => ?_
  simp [Flattens, opening, isCondition, closing]

theorem loopInit_spells (cursor : Cursor) :
    Spells (loopInit expr) cursor fun read init =>
      read.map Token.terminal = (init.map Declaration.terminals).getD [] ∧
        ∀ made ∈ init, made.type.value.Written := by
  refine Spells.sees ?_
  split
  · refine Spells.bind (declaration_spells each cursor) fun made _ => ?_
    exact Spells.pure fun read isMade => by simp [isMade.1, isMade.2]
  · exact Spells.pure (by simp)

theorem loopUpdate_spells (cursor : Cursor) :
    Spells (loopUpdate expr) cursor
      (Flattens fun update => (update.map Assignment.terminals).getD []) := by
  refine Spells.sees ?_
  split
  · exact Spells.pure rfl
  · refine Spells.bind (assignment_spells each cursor) fun made _ => ?_
    exact Spells.pure fun read isMade => by simp [Flattens, isMade]

end Simple

theorem parameter_spells (cursor : Cursor) :
    Spells parameter cursor fun read made =>
      Flattens Parameter.terminals read made ∧ made.type.value.Written := by
  refine Spells.identifier fun name isName _ => ?_
  refine Spells.expect (by decide) fun colon => ?_
  refine Spells.bind (type_spells _) fun type _ => Spells.pure fun read isType => ⟨?_, isType.2⟩
  simp [Flattens, Parameter.terminals, isName, colon, isType.1]

theorem header_spells (allowance : Nat) (cursor : Cursor) :
    Spells (header allowance) cursor fun read made =>
      Flattens Header.terminals read made ∧ made.scope = none ∧
        ∀ parameter ∈ made.parameters, parameter.type.value.Written := by
  refine Spells.expect (by decide) fun isFun => ?_
  refine Spells.identifier fun name isName _ => ?_
  refine Spells.expect (by decide) fun opening => ?_
  have closed (parameters : List Parameter) (later : Cursor) :
      Spells (do
        let _ ← expect .closeParen
        let _ ← expect .arrow
        let returns ← type
        return ({ name, parameters, returns } : Header)) later fun more header => ∀ read,
          read.map Token.terminal = commas (parameters.map Parameter.terminals) ∧
              (∀ parameter ∈ parameters, parameter.type.value.Written) →
            Flattens Header.terminals (cursor.peek :: cursor.advance.peek ::
              cursor.advance.advance.peek :: (read ++ more)) header ∧ header.scope = none ∧
              ∀ parameter ∈ header.parameters, parameter.type.value.Written := by
    refine Spells.expect (by decide) fun closing => ?_
    refine Spells.expect (by decide) fun arrow => ?_
    refine Spells.bind (type_spells _) fun returns _ => Spells.pure ?_
    rintro more isType read ⟨isList, written⟩
    refine ⟨?_, rfl, written⟩
    simp [Flattens, Header.terminals, isFun, isName, opening, isList, closing, arrow, isType.1]
  refine Spells.sees ?_
  split
  · exact (closed [] _).mono fun more header isHeader => isHeader [] ⟨rfl, List.forall_mem_nil _⟩
  · refine Spells.bind (commaSeparated_spells parameter_spells allowance _)
      fun parameters later => ?_
    exact (closed parameters later).mono fun more header isHeader read isList =>
      isHeader read isList.2

/-! ### Sequences -/

section

variable {statement : Rule Stmt} (each : ∀ cursor, Spells statement cursor IsStmt)

include each

theorem attempt_spells (cursor : Cursor) :
    Spells (attempt statement) cursor fun read found =>
      ∃ made, found = some made ∧ IsStmt read made := by
  intro ended
  have outcome := each cursor ended
  unfold attempt
  cases result : statement cursor with
  | done value next =>
    rw [result] at outcome
    refine ⟨outcome.1, fun same => ?_⟩
    obtain ⟨read, passes, isStmt⟩ := outcome.2 same
    exact ⟨read, passes, value, rfl, isStmt⟩
  | refused error next =>
    rw [result] at outcome
    refine ⟨⟨outcome.finish, outcome.errors.trans (List.prefix_append _ _)⟩, fun same => ?_⟩
    -- recovery notes the error, so there are more of them
    have more := congrArg List.length same
    have notFewer := outcome.errors.length_le
    simp only [recover, List.length_append, List.length_singleton] at more
    omega
  | exhausted => trivial

/-- One more statement in front of a sequence. -/
theorem attempt_cons_spells {others : Rule (List Stmt)}
    (rest : ∀ cursor, Spells others cursor (IsSequence behind)) (cursor : Cursor) :
    Spells (do
      let first ← attempt statement
      let rest ← others
      return first.toList ++ rest) cursor (IsSequence behind) := by
  refine Spells.bind (attempt_spells each cursor) fun found later => ?_
  refine Spells.bind (rest later) fun statements last => Spells.pure ?_
  rintro more isRest read ⟨made, rfl, isStmt⟩
  rw [List.append_nil]
  exact isStmt.cons isRest

theorem blockRest_spells (allowance : Nat) (cursor : Cursor) :
    Spells (blockRest statement allowance) cursor (IsSequence [.mark .closeCurly]) := by
  induction allowance generalizing cursor with
  | zero => exact Spells.exhausted
  | succ allowance inductionHypothesis =>
    have closed {token : Token} (closing : token.terminal = .mark .closeCurly) :
        IsSequence [.mark .closeCurly] [token] [] :=
      isSequence_nil (congrArg (· :: []) closing)
    refine Spells.sees ?_
    split
    · rename_i isCurly
      have closing := Token.terminal_of_isMark (by decide) isCurly
      exact Spells.advance closing (by decide) (Spells.pure (closed closing))
    · refine Spells.sees ?_
      split
      · exact Spells.expect (by decide) fun closing => Spells.pure (closed closing)
      · exact attempt_cons_spells each inductionHypothesis cursor

theorem block_spells (allowance : Nat) (cursor : Cursor) :
    Spells (block statement allowance) cursor IsBlock := by
  refine Spells.expect (by decide) fun opening => ?_
  refine Spells.bind (blockRest_spells each allowance _) fun statements later => ?_
  refine Spells.pure fun read isRest => ?_
  rw [List.append_nil]
  exact ⟨⟨[cursor.peek], read, rfl, congrArg (· :: []) opening, isRest.reads⟩, isRest.fresh⟩

theorem sequence_spells (allowance : Nat) (cursor : Cursor) :
    Spells (sequence statement allowance) cursor (IsSequence []) := by
  induction allowance generalizing cursor with
  | zero => exact Spells.exhausted
  | succ allowance inductionHypothesis =>
    refine Spells.sees ?_
    split
    · exact Spells.pure (isSequence_nil rfl)
    · exact attempt_cons_spells each inductionHypothesis cursor

end

/-! ### Statements -/

/-- A statement that is built from some tokens and nothing but a span. -/
def IsBuilt (read : List Token) (make : Span → Stmt) : Prop :=
  ∀ span, (make span).span = span ∧ (make span).ReadFrom read ∧ (make span).Fresh

theorem spanned_spells {build : Rule (Span → Stmt)} (each : Spells build cursor IsBuilt) :
    Spells (spanned cursor.peek.position build) cursor IsStmt := by
  intro ended
  have outcome := each ended
  change (andThen build _ cursor).Spells cursor IsStmt
  rw [andThen]
  cases result : build cursor with
  | done make next =>
    rw [result] at outcome
    refine ⟨outcome.1, fun same => ?_⟩
    obtain ⟨read, passes, isBuilt⟩ := outcome.2 same
    obtain ⟨spans, reads, fresh⟩ := isBuilt { first := cursor.peek.position, last := next.behind }
    obtain ⟨token, rest, rfl⟩ : ∃ token rest, read = token :: rest := by
      refine List.exists_cons_of_ne_nil fun nothing => ?_
      have terminals := reads.covers.terminals
      rw [nothing] at terminals
      exact Stmt.terminals_ne_nil _ terminals.symm
    have begins : cursor.peek = token := by rw [Cursor.peek, passes.ahead]; rfl
    refine ⟨token :: rest, passes, ⟨?_, ?_⟩, reads, fresh⟩
    · rw [spans, begins]
      rfl
    · rw [spans, passes.behind, List.getLast?_cons]
      rfl
  | refused error next =>
    rw [result] at outcome
    exact outcome
  | exhausted => trivial

/-- The tokens of the branch taken when a condition fails, if there is one. -/
def IsAlternative (read : List Token) : Option Block → Prop
  | none => read = []
  | some body => Then (Spelled [.mark .elseWord]) body.ReadFrom read ∧ body.Fresh

theorem isBuilt_conditional {front : List Token} {condition : Expr} {first : Block}
    {second : Option Block} (isFront : Spelled (conditionTerminals .ifWord condition) front)
    (isFirst : IsBlock inside first) (isSecond : IsAlternative more second) :
    IsBuilt (front ++ (inside ++ more)) (Stmt.conditional · condition first second) := by
  intro span
  cases second with
  | none =>
    obtain rfl : more = [] := isSecond
    rw [List.append_nil]
    exact ⟨rfl, ⟨front, inside, rfl, isFront, isFirst.reads⟩, isFirst.fresh⟩
  | some second =>
    refine ⟨rfl, ⟨front, _, rfl, isFront, inside, more, rfl, isFirst.reads, isSecond.1⟩,
      ⟨isFirst.fresh.1, isSecond.2.1⟩, ?_⟩
    rw [Stmt.scopes, isFirst.fresh.2, isSecond.2.2]
    rfl

section Parts

variable {block : Rule Block} {expr : Rule Expr}
  (blocks : ∀ cursor, Spells block cursor IsBlock)
  (exprs : ∀ cursor, Spells expr cursor (Flattens Expr.terminals))

include blocks in
theorem alternative_spells (cursor : Cursor) :
    Spells (alternative block) cursor IsAlternative := by
  refine Spells.sees ?_
  split
  · rename_i isElse
    have keyword := Token.terminal_of_isMark (by decide) isElse
    refine Spells.advance keyword (by decide) ?_
    refine Spells.bind (blocks _) fun body _ => Spells.pure fun read isBlock => ?_
    rw [List.append_nil]
    exact ⟨⟨[_], read, rfl, congrArg (· :: []) keyword, isBlock.reads⟩, isBlock.fresh⟩
  · exact Spells.pure rfl

include blocks exprs

theorem statementParts_spells (allowance : Nat) (cursor : Cursor) :
    Spells (statementParts cursor.peek block expr allowance) cursor IsBuilt := by
  unfold statementParts
  split
  · refine Spells.bind (declaration_spells exprs cursor) fun made _ => ?_
    refine Spells.expect (by decide) fun semicolon => Spells.pure fun read isMade => ?_
    refine fun span => ⟨rfl, ?_, ⟨isMade.2, rfl⟩⟩
    simp [Stmt.ReadFrom, Spelled, Stmt.terminals, isMade.1, semicolon]
  · rename_i builtin isBuiltin
    have found : cursor.peek.terminal = .builtin builtin := by rw [Token.terminal, isBuiltin]
    refine Spells.bind (action_spells exprs found) fun done _ => ?_
    refine Spells.expect (by decide) fun semicolon => Spells.pure fun read isDone => ?_
    refine fun span => ⟨rfl, ?_, ⟨trivial, rfl⟩⟩
    simp [Stmt.ReadFrom, Spelled, Stmt.terminals, isDone, semicolon]
  · refine Spells.bind (blocks cursor) fun body _ => Spells.pure fun read isBlock span => ?_
    rw [List.append_nil]
    exact ⟨rfl, isBlock.reads, isBlock.fresh⟩
  · refine Spells.expect (by decide) fun isIf => ?_
    refine Spells.bind (condition_spells exprs _) fun condition _ => ?_
    refine Spells.bind (blocks _) fun first _ => ?_
    refine Spells.bind (alternative_spells blocks _) fun second _ => Spells.pure ?_
    intro more isSecond inside isFirst read isCondition
    have isFront : (cursor.peek :: read).map Token.terminal =
        conditionTerminals .ifWord condition := by
      rw [List.map_cons, isIf, isCondition, conditionTerminals]
    rw [List.append_nil]
    exact isBuilt_conditional isFront isFirst isSecond
  · refine Spells.expect (by decide) fun isFor => ?_
    refine Spells.expect (by decide) fun opening => ?_
    refine Spells.bind (loopInit_spells exprs _) fun init atFirst => ?_
    refine Spells.expect (by decide) fun first => ?_
    refine Spells.bind (exprs _) fun condition atSecond => ?_
    refine Spells.expect (by decide) fun second => ?_
    refine Spells.bind (loopUpdate_spells exprs _) fun update atClosing => ?_
    refine Spells.expect (by decide) fun closing => ?_
    refine Spells.bind (blocks _) fun body _ => Spells.pure ?_
    intro inside isBlock third isUpdate middle isCondition read isInit
    obtain ⟨isInit, written⟩ := isInit
    have isFront : (cursor.peek :: cursor.advance.peek :: (read ++ atFirst.peek :: (middle ++
        atSecond.peek :: (third ++ [atClosing.peek])))).map Token.terminal =
        clauseTerminals init condition update := by
      simp [clauseTerminals, isFor, opening, isInit, first, isCondition, second, isUpdate, closing]
    have isBuilt : IsBuilt _ (Stmt.forLoop · init condition update body) := fun span =>
      ⟨rfl, ⟨_, inside, rfl, isFront, isBlock.reads⟩, ⟨written, isBlock.fresh.1⟩, isBlock.fresh.2⟩
    simpa using isBuilt
  · refine Spells.expect (by decide) fun isWhile => ?_
    refine Spells.bind (condition_spells exprs _) fun condition _ => ?_
    refine Spells.bind (blocks _) fun body _ => Spells.pure ?_
    intro inside isBlock read isCondition
    have isFront : (cursor.peek :: read).map Token.terminal =
        conditionTerminals .whileWord condition := by
      rw [List.map_cons, isWhile, isCondition, conditionTerminals]
    rw [List.append_nil]
    exact fun span => ⟨rfl, ⟨_, inside, rfl, isFront, isBlock.reads⟩, isBlock.fresh⟩
  · refine Spells.bind (header_spells allowance cursor) fun header _ => ?_
    refine Spells.bind (blocks _) fun body _ => Spells.pure ?_
    rintro inside isBlock read ⟨isHeader, bare, written⟩
    rw [List.append_nil]
    refine fun span =>
      ⟨rfl, ⟨read, inside, rfl, isHeader, isBlock.reads⟩, ⟨written, isBlock.fresh.1⟩, ?_⟩
    rw [Stmt.scopes, bare, isBlock.fresh.2]
    rfl
  · rename_i isReturn
    have found := Token.terminal_of_content (by decide) isReturn
    refine Spells.advance found (by decide) ?_
    refine Spells.bind (exprs _) fun value _ => ?_
    refine Spells.expect (by decide) fun semicolon => Spells.pure fun read isValue => ?_
    refine fun span => ⟨rfl, ?_, ⟨trivial, rfl⟩⟩
    simp [Stmt.ReadFrom, Spelled, Stmt.terminals, found, isValue, semicolon]
  · refine Spells.bind (assignment_spells exprs cursor) fun made _ => ?_
    refine Spells.expect (by decide) fun semicolon => Spells.pure fun read isMade => ?_
    refine fun span => ⟨rfl, ?_, ⟨trivial, rfl⟩⟩
    simp [Stmt.ReadFrom, Spelled, Stmt.terminals, isMade, semicolon]

end Parts

/-- A statement flattens to what was read of it, and so do the statements inside it. -/
theorem statement_spells (allowance : Nat) (cursor : Cursor) :
    Spells (statement allowance) cursor IsStmt := by
  induction allowance generalizing cursor with
  | zero => exact Spells.exhausted
  | succ allowance inductionHypothesis =>
    refine Spells.peek (spanned_spells ?_)
    exact statementParts_spells (block_spells inductionHypothesis _) (expression_spells _) _ cursor

/-! ### Programs -/

/-- A program is delivered if its statements are read without errors. -/
theorem program_eq_ok_iff {program : Program} :
    Grammar.program tokens = .ok (.ok program) ↔
      ∃ next, statements (allowanceFor (.ofTokens tokens)) (.ofTokens tokens) =
        .done program.statements next ∧ next.errors = [] := by
  obtain ⟨read, next, done, -, isProgram⟩ := program_reads tokens
  rw [isProgram, done]
  constructor
  · intro delivered
    split at delivered
    · cases delivered
      exact ⟨next, rfl, ‹_›⟩
    · cases delivered
  · rintro ⟨_, same, clean⟩
    cases same
    rw [if_pos clean]

end Grammar

/-- The tokens that the grammar sees: the significant ones in front of the first end of file. -/
def significant (tokens : List Token) : List Token :=
  (tokens.filter fun token => !token.isTrivia).takeWhile fun token => !token.isMark .endOfFile

/-- The statements of a program are read from the significant tokens, and these are all read. -/
theorem allReadFrom_of_program {program : Program}
    (parsed : Grammar.program tokens = .ok (.ok program)) :
    allReadFrom program.statements (significant tokens) ∧ allFresh program.statements := by
  obtain ⟨next, done, clean⟩ := Grammar.program_eq_ok_iff.mp parsed
  have isEnd : next.peek.isMark .endOfFile = true := by
    obtain ⟨_, _, alsoDone, isEnd, _⟩ := Grammar.program_reads tokens
    cases done.symm.trans alsoDone
    exact isEnd
  have spells : Rule.Spells (Grammar.statements _) (.ofTokens tokens) (IsSequence []) :=
    Grammar.sequence_spells (Grammar.statement_spells _)
      (Grammar.allowanceFor (.ofTokens tokens)) _
  have outcome := spells (Grammar.ended_ofTokens tokens)
  rw [done] at outcome
  obtain ⟨_, passes, ⟨read, last, rfl, reads, nothingBehind⟩, fresh⟩ := outcome.2 clean
  have nothing : next.ahead = [] := by
    cases ahead : next.ahead with
    | nil => rfl
    | cons token rest =>
      rw [Cursor.peek, ahead, List.headD_cons] at isEnd
      have member : token ∈ significant tokens := by
        change token ∈ (Cursor.ofTokens tokens).ahead
        rw [passes.ahead, ahead]
        exact List.mem_append_right _ List.mem_cons_self
      have notEnd := List.all_eq_true.mp List.all_takeWhile token member
      rw [isEnd] at notEnd
      cases notEnd
  have isRead : significant tokens = read := by
    rw [← List.append_nil read, ← List.map_eq_nil_iff.mp nothingBehind, ← List.append_nil (_ ++ _),
      ← nothing]
    exact passes.ahead
  exact ⟨isRead ▸ reads, fresh⟩

/-! ### Depth -/

mutual

theorem Stmt.two_mul_depth_le (statement : Stmt) :
    2 * statement.depth ≤ statement.terminals.length := by
  match statement with
  | .assignment _ _ | .declaration _ _ | .action _ _ | .returnValue _ _ => exact Nat.zero_le _
  | .block _ body => exact body.two_mul_depth_le
  | .function _ _ body | .conditional _ _ body none | .forLoop _ _ _ _ body
  | .whileLoop _ _ body =>
    have shallow := body.two_mul_depth_le
    rw [Stmt.depth, Stmt.terminals, List.length_append]
    omega
  | .conditional _ _ first (some second) =>
    have shallowFirst := first.two_mul_depth_le
    have shallowSecond := second.two_mul_depth_le
    simp only [Stmt.depth, Stmt.terminals, List.length_append, List.length_cons]
    omega

theorem Block.two_mul_depth_le (block : Block) : 2 * block.depth ≤ block.terminals.length := by
  match block with
  | .mk _ _ body =>
    have shallow := two_mul_depthOf_le body
    simp only [Block.depth, Block.terminals, List.length_append, List.length_cons, List.length_nil]
    omega

theorem two_mul_depthOf_le (statements : List Stmt) :
    2 * depthOf statements ≤ (terminalsOf statements).length := by
  match statements with
  | [] => exact Nat.zero_le _
  | first :: rest =>
    have shallowFirst := first.two_mul_depth_le
    have shallowRest := two_mul_depthOf_le rest
    rw [depthOf, terminalsOf, List.length_append]
    omega

end

/-- Every list of tokens is read to its end, and a program that is delivered is fresh and has
blocks nested at most half as deep as there are tokens. -/
theorem Grammar.program_meets (tokens : List Token) :
    Meets True (fun result => ∀ program, result = .ok program →
      allFresh program.statements ∧ 2 * depthOf program.statements ≤ tokens.length)
      (program tokens) := by
  obtain ⟨read, next, -, -, isProgram⟩ := program_reads tokens
  rw [isProgram]
  refine Meets.ok fun program delivered => ?_
  obtain ⟨reads, fresh⟩ := allReadFrom_of_program (isProgram.trans (congrArg _ delivered))
  have flattens := congrArg List.length reads.covers.terminals
  rw [List.length_map] at flattens
  have few : (significant tokens).length ≤ tokens.length :=
    ((List.takeWhile_sublist _).trans List.filter_sublist).length_le
  exact ⟨fresh, (two_mul_depthOf_le _).trans (flattens ▸ few)⟩

/-- A program that is read without errors flattens to the significant tokens in front of the first
end of file: the same terminals in the same order. Every statement in it, at any depth, has its own
part of these tokens, at the place that the flattening gives it, and its span is where the first
and the last token of that part are. -/
theorem parsing_is_lossless {tokens : List Token} {program : Program}
    (parsed : Grammar.program tokens = .ok (.ok program)) :
    (significant tokens).map Token.terminal = terminalsOf program.statements ∧
    ∀ part ∈ placingsOf program.statements, Placed (significant tokens) part := by
  have covers := (allReadFrom_of_program parsed).1.covers
  exact ⟨covers.terminals, covers.placed⟩

/-- Tokens in one line, one in each column. -/
def inOneLine (tokens : List (Content × String)) : List Token :=
  tokens.zipIdx.map fun token =>
    { position := { column := token.2 }, lexeme := token.1.2, content := token.1.1 }

/-- The tokens of a loop whose body converts what it assigns, with a comment inside and another
token behind the end of file. -/
def loopTokens : List Token :=
  inOneLine [(.mark .whileWord, "while"), (.mark .openParen, "("), (.mark .identifier, "x"),
    (.mark .less, "<"), (.literal (.int 3), "3"), (.mark .closeParen, ")"),
    (.mark .openCurly, "\x7b"), (.mark .comment, "// on"), (.mark .identifier, "x"),
    (.mark .assign, "="), (.mark .identifier, "x"), (.mark .plus, "+"), (.literal (.int 1), "1"),
    (.mark .asWord, "as"), (.mark .intType, "int"), (.mark .semicolon, ";"),
    (.mark .closeCurly, "\x7d"), (.mark .endOfFile, ""), (.mark .semicolon, ";")]

theorem parsing_is_lossless_loop :
    ∃ program, Grammar.program loopTokens = .ok (.ok program) ∧
      (placingsOf program.statements).map
        (fun part => (part.1, part.2.span.first.column, part.2.span.last.column)) =
          [(0, 0, 16), (7, 8, 15)] ∧
      (significant loopTokens).map Token.terminal = terminalsOf program.statements ∧
      ∀ part ∈ placingsOf program.statements, Placed (significant loopTokens) part :=
  ⟨_, rfl, by decide, parsing_is_lossless rfl⟩

end PadLang
