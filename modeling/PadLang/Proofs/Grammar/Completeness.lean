/-
This file shows that every canonical program is read back.

The first terminal of a statement tells what kind it is, and what follows a statement never goes on
with it: the next one does not begin with `else`. So the tokens that a canonical program flattens
to are read without errors, and what is delivered is the program itself, apart from positions.
-/

import PadLang.Proofs.Grammar.Precedence
import PadLang.Proofs.Grammar.Writing

namespace PadLang

variable {expr : Expr} {mark : Mark} {allowance : Nat} {cursor : Cursor} {rest : List Terminal}
  {others : List Stmt} {first : Stmt}

namespace Grammar

open Rule

variable {update : Option Assignment} {init : Option Declaration} {made : Declaration}
  {header : Header} {done : Action}

/-! ### Simple statements -/

section Simple

/-- A canonical expression is read back in front of a mark that concludes it. -/
theorem expression_takes (whole : expr.isWhole = true) (closes : mark ∈ closers)
    (faces : cursor.Faces (expr.terminals ++ .mark mark :: rest)) :
    Takes (expression allowance) cursor (.mark mark :: rest) fun found =>
      found.unplaced = expr.unplaced :=
  readAlone_of_isCanonical whole faces (concludes_of_mem closes expr)

theorem declaration_takes (canonical : made.isCanonical = true)
    (faces : cursor.Faces (made.terminals ++ .mark .semicolon :: rest)) :
    Takes (declaration (expression allowance)) cursor (.mark .semicolon :: rest) fun found =>
      found.unplaced = made.unplaced := by
  simp only [Declaration.isCanonical, Bool.and_eq_true] at canonical
  simp only [Declaration.terminals, List.cons_append, List.append_assoc] at faces
  refine Takes.expect faces fun faces => Takes.identifier faces fun name isName faces => ?_
  refine Takes.expect faces fun faces => ?_
  refine Takes.bind (type_takes canonical.1.2 faces (upcoming_mark_ne (by decide) _))
    fun type faces isType => ?_
  refine Takes.expect faces fun faces => ?_
  refine Takes.bind (expression_takes canonical.2 (by decide) faces) fun value faces isValue => ?_
  refine Takes.pure faces ?_
  rw [Declaration.unplaced, Declaration.unplaced, isValue, Located.unplaced, Located.unplaced,
    Located.unplaced, Located.unplaced, isName, isType]

theorem targetIndex_takes {index : Option Expr} (canonical : index.all Expr.isWhole = true)
    (faces : cursor.Faces (indexTerminals index ++ .mark .assign :: rest)) :
    Takes (targetIndex (expression allowance)) cursor (.mark .assign :: rest) fun found =>
      found.map Expr.unplaced = index.map Expr.unplaced := by
  cases index with
  | none =>
    exact Takes.sees_other faces (by decide) (upcoming_mark_ne (by decide) rest)
      (Takes.pure faces rfl)
  | some index =>
    simp only [indexTerminals, List.cons_append, List.append_assoc] at faces
    refine Takes.sees_next faces (Takes.advance faces fun faces => ?_)
    refine Takes.bind (expression_takes canonical (by decide) faces)
      fun found faces same => Takes.expect faces fun faces => Takes.pure faces ?_
    rw [Option.map_some, Option.map_some, same]

theorem assignment_takes {made : Assignment} (canonical : made.isCanonical = true)
    (closes : mark ∈ closers) (faces : cursor.Faces (made.terminals ++ .mark mark :: rest)) :
    Takes (assignment (expression allowance)) cursor (.mark mark :: rest) fun found =>
      found.unplaced = made.unplaced := by
  simp only [Assignment.isCanonical, Bool.and_eq_true] at canonical
  simp only [Assignment.terminals, List.cons_append, List.append_assoc] at faces
  refine Takes.identifier faces fun target isTarget faces => ?_
  refine Takes.bind (targetIndex_takes canonical.1.2 faces)
    fun index faces isIndex => Takes.expect faces fun faces => ?_
  refine Takes.bind (expression_takes canonical.2 closes faces) fun value faces isValue => ?_
  refine Takes.pure faces ?_
  rw [Assignment.unplaced, Assignment.unplaced, isIndex, isValue, Located.unplaced,
    Located.unplaced, isTarget]

theorem operand_takes (whole : expr.isWhole = true)
    (faces : cursor.Faces (expr.terminals ++ .mark .comma :: rest)) :
    Takes (operand (expression allowance)) cursor rest fun found =>
      found.unplaced = expr.unplaced :=
  Takes.bind (expression_takes whole (by decide) faces) fun _ faces same =>
    Takes.expect faces fun faces => Takes.pure faces same

/-- The operands of an action are read back. -/
theorem action_takes (canonical : done.isCanonical = true)
    (faces : cursor.Faces (done.terminals ++ .mark .semicolon :: rest)) :
    ∃ builtin, cursor.peek.content = .builtin builtin ∧
      Takes (action builtin (expression allowance)) cursor (.mark .semicolon :: rest) fun found =>
        found.unplaced = done.unplaced := by
  cases done with
  | print value | delay value | clear value =>
    simp only [Action.terminals, List.cons_append] at faces
    refine ⟨_, faces.content_peek, Takes.advance faces fun faces => ?_⟩
    refine Takes.bind (expression_takes canonical (by decide) faces)
      fun found faces same => Takes.pure faces ?_
    rw [Action.unplaced, Action.unplaced, same]
  | write x y colour =>
    simp only [Action.isCanonical, Bool.and_eq_true] at canonical
    obtain ⟨⟨wholeX, wholeY⟩, wholeColour⟩ := canonical
    simp only [Action.terminals, commas, List.cons_append, List.append_assoc] at faces
    refine ⟨_, faces.content_peek, Takes.advance faces fun faces => ?_⟩
    refine Takes.bind (operand_takes wholeX faces) fun foundX faces isX => ?_
    refine Takes.bind (operand_takes wholeY faces) fun foundY faces isY => ?_
    refine Takes.bind (expression_takes wholeColour (by decide) faces)
      fun foundColour faces isColour => Takes.pure faces ?_
    rw [Action.unplaced, Action.unplaced, isX, isY, isColour]
  | writeBox x y width height colour =>
    simp only [Action.isCanonical, Bool.and_eq_true] at canonical
    obtain ⟨⟨⟨⟨wholeX, wholeY⟩, wholeWidth⟩, wholeHeight⟩, wholeColour⟩ := canonical
    simp only [Action.terminals, commas, List.cons_append, List.append_assoc] at faces
    refine ⟨_, faces.content_peek, Takes.advance faces fun faces => ?_⟩
    refine Takes.bind (operand_takes wholeX faces) fun foundX faces isX => ?_
    refine Takes.bind (operand_takes wholeY faces) fun foundY faces isY => ?_
    refine Takes.bind (operand_takes wholeWidth faces) fun _ faces isWidth => ?_
    refine Takes.bind (operand_takes wholeHeight faces) fun _ faces isHeight => ?_
    refine Takes.bind (expression_takes wholeColour (by decide) faces)
      fun foundColour faces isColour => Takes.pure faces ?_
    rw [Action.unplaced, Action.unplaced, isX, isY, isWidth, isHeight, isColour]

end Simple

/-! ### Compound statements -/

section Compound

theorem condition_takes (whole : expr.isWhole = true)
    (faces : cursor.Faces (.mark .openParen :: (expr.terminals ++ .mark .closeParen :: rest))) :
    Takes (condition (expression allowance)) cursor rest fun found =>
      found.unplaced = expr.unplaced := by
  refine Takes.expect faces fun faces => ?_
  refine Takes.bind (expression_takes whole (by decide) faces) fun found faces same => ?_
  exact Takes.expect faces fun faces => Takes.pure faces same

/-- The declaration that opens a loop is read back, if there is one. -/
theorem loopInit_takes (canonical : init.all Declaration.isCanonical = true)
    (faces : cursor.Faces ((init.map Declaration.terminals).getD [] ++ .mark .semicolon :: rest)) :
    Takes (loopInit (expression allowance)) cursor (.mark .semicolon :: rest) fun found =>
      found.map Declaration.unplaced = init.map Declaration.unplaced := by
  cases init with
  | none =>
    exact Takes.sees_other faces (by decide) (upcoming_mark_ne (by decide) rest)
      (Takes.pure faces rfl)
  | some made =>
    refine Takes.sees_next faces ?_
    refine Takes.bind (declaration_takes canonical faces) fun found faces same => ?_
    exact Takes.pure faces (congrArg some same)

/-- The assignment that ends each round of a loop is read back, if there is one. -/
theorem loopUpdate_takes (canonical : update.all Assignment.isCanonical = true) (faces :
      cursor.Faces ((update.map Assignment.terminals).getD [] ++ .mark .closeParen :: rest)) :
    Takes (loopUpdate (expression allowance)) cursor (.mark .closeParen :: rest) fun found =>
      found.map Assignment.unplaced = update.map Assignment.unplaced := by
  cases update with
  | none => exact Takes.sees_next faces (Takes.pure faces rfl)
  | some made =>
    have isName : upcoming (made.terminals ++ .mark .closeParen :: rest) ≠ .mark .closeParen := by
      intro same
      cases same
    refine Takes.sees_other faces (by decide) isName ?_
    refine Takes.bind (assignment_takes canonical (by decide) faces)
      fun found faces same => ?_
    exact Takes.pure faces (congrArg some same)

theorem parameter_takes {parameter : Parameter} (canonical : parameter.isCanonical = true)
    (faces : cursor.Faces (parameter.terminals ++ rest))
    (notSquare : upcoming rest ≠ .mark .openSquare) :
    Takes Grammar.parameter cursor rest fun found => found.unplaced = parameter.unplaced := by
  rw [Parameter.isCanonical, Bool.and_eq_true] at canonical
  refine Takes.identifier faces fun name isName faces => Takes.expect faces fun faces => ?_
  refine Takes.bind (type_takes canonical.2 faces notSquare) fun type faces isType => ?_
  refine Takes.pure faces ?_
  rw [Parameter.unplaced, Parameter.unplaced, Located.unplaced, Located.unplaced,
    Located.unplaced, Located.unplaced, isName, isType]

theorem header_takes (canonical : header.isCanonical = true)
    (faces : cursor.Faces (header.terminals ++ rest))
    (notSquare : upcoming rest ≠ .mark .openSquare) :
    Takes (Grammar.header allowance) cursor rest fun found =>
      found.unplaced = header.unplaced := by
  simp only [Header.isCanonical, Bool.and_eq_true, List.all_eq_true,
    Option.isNone_iff_eq_none] at canonical
  obtain ⟨⟨⟨_, parameters⟩, returns⟩, unscoped⟩ := canonical
  simp only [Header.terminals, List.cons_append, List.append_assoc] at faces
  refine Takes.expect faces fun faces => Takes.identifier faces fun name isName faces => ?_
  refine Takes.expect faces fun faces => ?_
  refine itemsUpTo_takes Parameter.unplaced (by decide) (by decide) ?_ ?_ faces ?_
  · intro parameter rest same
    cases same
  · intro parameter member cursor rest faces next
    refine parameter_takes (parameters parameter member) faces ?_
    rcases next with next | next
    all_goals
      rw [next]
      decide
  · intro _ found faces isParameters
    refine Takes.expect faces fun faces => Takes.expect faces fun faces => ?_
    refine Takes.bind (type_takes returns faces notSquare) fun type faces isType => ?_
    refine Takes.pure faces ?_
    rw [Header.unplaced, Header.unplaced, isParameters, Located.unplaced, Located.unplaced,
      Located.unplaced, Located.unplaced, isName, isType, unscoped]

end Compound

/-! ### Statements -/

/-- A statement is read back if no alternative could follow it. -/
def ReadStmt (statement : Stmt) : Prop :=
  ∀ ⦃allowance : Nat⦄ ⦃cursor : Cursor⦄ ⦃rest : List Terminal⦄,
    cursor.Faces (statement.terminals ++ rest) → upcoming rest ≠ .mark .elseWord →
    Takes (Grammar.statement allowance) cursor rest fun found =>
      found.unplaced = statement.unplaced

/-- A block is read back. -/
def ReadBlock (body : Block) : Prop :=
  ∀ ⦃allowance : Nat⦄ ⦃cursor : Cursor⦄ ⦃rest : List Terminal⦄,
    cursor.Faces (body.terminals ++ rest) →
    Takes (block (Grammar.statement allowance) (allowance + 1)) cursor rest fun found =>
      found.unplaced = body.unplaced

theorem upcoming_block (body : Block) (rest : List Terminal) :
    upcoming (body.terminals ++ rest) = .mark .openCurly := by
  cases body
  rfl

theorem readStmt_of_parts {statement : Stmt}
    (parts : ∀ ⦃allowance : Nat⦄ ⦃cursor : Cursor⦄ ⦃rest : List Terminal⦄,
      cursor.Faces (statement.terminals ++ rest) → upcoming rest ≠ .mark .elseWord →
      Takes (statementParts cursor.peek (block (Grammar.statement allowance) (allowance + 1))
        (expression (allowance + 1)) (allowance + 1)) cursor rest fun make =>
          ∀ span, (make span).unplaced = statement.unplaced) :
    ReadStmt statement := by
  intro allowance cursor rest faces notElse
  rcases allowance with _ | allowance
  · exact Takes.exhausted
  exact Takes.peek (Takes.bind (parts faces notElse) fun make faces same =>
    Takes.of_done rfl faces (same _))

section Statements

variable {span : Span} {body : Block} {condition : Expr} {second : Option Block}

theorem readStmt_declaration (canonical : made.isCanonical = true) :
    ReadStmt (.declaration span made) := by
  refine readStmt_of_parts fun allowance cursor rest faces _ => ?_
  simp only [Stmt.terminals, List.append_assoc, List.cons_append, List.nil_append] at faces
  rw [statementParts, faces.content_peek]
  refine Takes.bind (declaration_takes canonical faces)
    fun found faces same => Takes.expect faces fun faces => Takes.pure faces fun _ => ?_
  rw [Stmt.unplaced, Stmt.unplaced, same]

theorem readStmt_assignment {made : Assignment} (canonical : made.isCanonical = true) :
    ReadStmt (.assignment span made) := by
  refine readStmt_of_parts fun allowance cursor rest faces _ => ?_
  simp only [Stmt.terminals, List.append_assoc, List.cons_append, List.nil_append] at faces
  rw [statementParts, faces.content_peek]
  refine Takes.bind (assignment_takes canonical (by decide) faces)
    fun found faces same => Takes.expect faces fun faces => Takes.pure faces fun _ => ?_
  rw [Stmt.unplaced, Stmt.unplaced, same]

theorem readStmt_action (canonical : done.isCanonical = true) : ReadStmt (.action span done) := by
  refine readStmt_of_parts fun allowance cursor rest faces _ => ?_
  simp only [Stmt.terminals, List.append_assoc, List.cons_append, List.nil_append] at faces
  obtain ⟨builtin, isBuiltin, takes⟩ := action_takes canonical faces
  rw [statementParts, isBuiltin]
  refine Takes.bind takes fun found faces same =>
    Takes.expect faces fun faces => Takes.pure faces fun _ => ?_
  rw [Stmt.unplaced, Stmt.unplaced, same]

theorem readStmt_returnValue {value : Expr} (whole : value.isWhole = true) :
    ReadStmt (.returnValue span value) := by
  refine readStmt_of_parts fun allowance cursor rest faces _ => ?_
  simp only [Stmt.terminals, List.append_assoc, List.cons_append, List.nil_append] at faces
  rw [statementParts, faces.content_peek]
  refine Takes.advance faces fun faces => ?_
  refine Takes.bind (expression_takes whole (by decide) faces)
    fun found faces same => Takes.expect faces fun faces => Takes.pure faces fun _ => ?_
  rw [Stmt.unplaced, Stmt.unplaced, same]

theorem readStmt_block (reads : ReadBlock body) : ReadStmt (.block span body) := by
  refine readStmt_of_parts fun allowance cursor rest faces _ => ?_
  have opens : cursor.peek.content = .mark .openCurly := by
    rw [Token.content_eq, faces.peek, Stmt.terminals, upcoming_block]
    rfl
  rw [statementParts, opens]
  refine Takes.bind (reads faces) fun found faces same => Takes.pure faces fun _ => ?_
  rw [Stmt.unplaced, Stmt.unplaced, same]

theorem readStmt_function (canonical : header.isCanonical = true) (reads : ReadBlock body) :
    ReadStmt (.function span header body) := by
  refine readStmt_of_parts fun allowance cursor rest faces _ => ?_
  rw [Stmt.terminals, List.append_assoc] at faces
  have notSquare : upcoming (body.terminals ++ rest) ≠ .mark .openSquare := by
    rw [upcoming_block]
    decide
  rw [statementParts, faces.content_peek]
  refine Takes.bind (header_takes canonical faces notSquare)
    fun foundHeader faces isHeader => ?_
  refine Takes.bind (reads faces) fun found faces same =>
    Takes.pure faces fun _ => ?_
  rw [Stmt.unplaced, Stmt.unplaced, isHeader, same]

theorem readStmt_whileLoop (whole : condition.isWhole = true) (reads : ReadBlock body) :
    ReadStmt (.whileLoop span condition body) := by
  refine readStmt_of_parts fun allowance cursor rest faces _ => ?_
  simp only [Stmt.terminals, conditionTerminals, List.append_assoc, List.cons_append,
    List.nil_append] at faces
  rw [statementParts, faces.content_peek]
  refine Takes.expect faces fun faces => ?_
  refine Takes.bind (condition_takes whole faces)
    fun foundCondition faces isCondition => ?_
  refine Takes.bind (reads faces) fun found faces same => Takes.pure faces fun _ => ?_
  rw [Stmt.unplaced, Stmt.unplaced, isCondition, same]

theorem readStmt_forLoop (isInit : init.all Declaration.isCanonical = true)
    (whole : condition.isWhole = true) (isUpdate : update.all Assignment.isCanonical = true)
    (reads : ReadBlock body) : ReadStmt (.forLoop span init condition update body) := by
  refine readStmt_of_parts fun allowance cursor rest faces _ => ?_
  simp only [Stmt.terminals, clauseTerminals, List.append_assoc, List.cons_append,
    List.nil_append] at faces
  rw [statementParts, faces.content_peek]
  refine Takes.expect faces fun faces => Takes.expect faces fun faces => ?_
  refine Takes.bind (loopInit_takes isInit faces) fun foundInit faces sameInit => ?_
  refine Takes.expect faces fun faces => ?_
  refine Takes.bind (expression_takes whole (by decide) faces)
    fun foundCondition faces sameCondition => Takes.expect faces fun faces => ?_
  refine Takes.bind (loopUpdate_takes isUpdate faces)
    fun foundUpdate faces sameUpdate => Takes.expect faces fun faces => ?_
  refine Takes.bind (reads faces) fun found faces same => Takes.pure faces fun _ => ?_
  rw [Stmt.unplaced, Stmt.unplaced, sameInit, sameCondition, sameUpdate, same]

/-- The terminals of the branch taken when a condition fails, if there is one. -/
def alternativeTerminals : Option Block → List Terminal
  | none => []
  | some body => .mark .elseWord :: body.terminals

theorem terminals_conditional (condition : Expr) (first : Block) (second : Option Block) :
    (Stmt.conditional span condition first second).terminals =
      conditionTerminals .ifWord condition ++ (first.terminals ++ alternativeTerminals second) := by
  cases second <;> simp [Stmt.terminals, alternativeTerminals]

theorem unplaced_conditional (condition : Expr) (first : Block) (second : Option Block) :
    (Stmt.conditional span condition first second).unplaced =
      .conditional ⟨{}, {}⟩ condition.unplaced first.unplaced (second.map Block.unplaced) := by
  cases second <;> rfl

theorem alternative_takes (reads : ∀ body ∈ second, ReadBlock body)
    (faces : cursor.Faces (alternativeTerminals second ++ rest))
    (notElse : upcoming rest ≠ .mark .elseWord) :
    Takes (alternative (block (Grammar.statement allowance) (allowance + 1))) cursor rest
      fun found => found.map Block.unplaced = second.map Block.unplaced := by
  cases second with
  | none => exact Takes.sees_other faces (by decide) notElse (Takes.pure faces rfl)
  | some body =>
    refine Takes.sees_next faces (Takes.advance faces fun faces => ?_)
    refine Takes.bind (reads body rfl faces)
      fun found faces same => Takes.pure faces ?_
    exact congrArg some same

theorem readStmt_conditional {first : Block} (whole : condition.isWhole = true)
    (readsFirst : ReadBlock first) (readsSecond : ∀ body ∈ second, ReadBlock body) :
    ReadStmt (.conditional span condition first second) := by
  refine readStmt_of_parts fun allowance cursor rest faces notElse => ?_
  simp only [terminals_conditional, conditionTerminals, List.append_assoc, List.cons_append,
    List.nil_append] at faces
  rw [statementParts, faces.content_peek]
  refine Takes.expect faces fun faces => ?_
  refine Takes.bind (condition_takes whole faces)
    fun foundCondition faces isCondition => ?_
  refine Takes.bind (readsFirst faces) fun foundFirst faces isFirst => ?_
  refine Takes.bind (alternative_takes readsSecond faces notElse)
    fun foundSecond faces isSecond => Takes.pure faces fun _ => ?_
  rw [unplaced_conditional, unplaced_conditional, isCondition, isFirst, isSecond]

end Statements

/-! ### Sequences -/

theorem attempt_takes {statement : Rule Stmt} {good : Stmt → Prop}
    (takes : Takes statement cursor rest good) :
    Takes (attempt statement) cursor rest fun found =>
      ∃ value, found = some value ∧ good value := by
  intro finishes
  rw [attempt] at finishes
  obtain ⟨value, next, done, faces, holds⟩ := takes fun runsOut => finishes (by rw [runsOut])
  refine ⟨some value, next, ?_, faces, value, rfl, holds⟩
  rw [attempt, done]

end Grammar

/-- A terminal with which a statement may begin. -/
def Terminal.beginsStmt : Terminal → Bool
  | .name _ | .builtin _ => true
  | .mark .letWord | .mark .returnWord | .mark .openCurly | .mark .funWord | .mark .ifWord
  | .mark .forWord | .mark .whileWord => true
  | .mark _ | .literal _ => false

theorem beginsStmt_terminals (statement : Stmt) (rest : List Terminal) :
    (upcoming (statement.terminals ++ rest)).beginsStmt = true := by
  match statement with
  | .assignment _ _ | .declaration _ _ | .returnValue _ _ | .function _ _ _
  | .conditional _ _ _ none | .conditional _ _ _ (some _) | .forLoop _ _ _ _ _
  | .whileLoop _ _ _ => rfl
  | .action _ done => cases done <;> rfl
  | .block _ body =>
    rw [Stmt.terminals, Grammar.upcoming_block]
    rfl

theorem upcoming_terminalsOf_ne (begins : (Terminal.mark mark).beginsStmt = false) :
    upcoming (terminalsOf (first :: others) ++ rest) ≠ .mark mark := by
  rw [terminalsOf, List.append_assoc]
  intro same
  have begun := beginsStmt_terminals first (terminalsOf others ++ rest)
  rw [same, begins] at begun
  cases begun

/-- No alternative follows where statements follow. -/
theorem upcoming_terminalsOf_ne_else (statements : List Stmt)
    (notElse : upcoming rest ≠ .mark .elseWord) :
    upcoming (terminalsOf statements ++ rest) ≠ .mark .elseWord := by
  cases statements with
  | nil => exact notElse
  | cons first others => exact upcoming_terminalsOf_ne rfl

namespace Grammar

open Rule

variable {statements : List Stmt} {count : Nat}

/-- The first of some statements is read back, and then the others. -/
theorem attempt_first_takes (reads : ReadStmt first) {next : Rule (List Stmt)}
    {behind : List Terminal} (faces : cursor.Faces (terminalsOf (first :: others) ++ rest))
    (notElse : upcoming rest ≠ .mark .elseWord)
    (goesOn : ∀ {later}, later.Faces (terminalsOf others ++ rest) →
      Takes next later behind fun more => unplacedAll more = unplacedAll others) :
    Takes (do return (← attempt (Grammar.statement allowance)).toList ++ (← next)) cursor behind
      fun found => unplacedAll found = unplacedAll (first :: others) := by
  rw [terminalsOf, List.append_assoc] at faces
  refine Takes.bind (attempt_takes (reads faces (upcoming_terminalsOf_ne_else others notElse)))
    fun found faces isFound => ?_
  obtain ⟨value, rfl, same⟩ := isFound
  refine Takes.bind (goesOn faces) fun more faces isOthers => Takes.pure faces ?_
  change unplacedAll (value :: more) = _
  rw [unplacedAll, unplacedAll, same, isOthers]

section

variable (each : ∀ statement ∈ statements, ReadStmt statement)

include each

/-- The statements of a block are read back up to its closing brace. -/
theorem blockRest_takes
    (faces : cursor.Faces (terminalsOf statements ++ .mark .closeCurly :: rest)) :
    Takes (blockRest (Grammar.statement allowance) count) cursor rest fun found =>
      unplacedAll found = unplacedAll statements := by
  induction count generalizing statements cursor with
  | zero => exact Takes.exhausted
  | succ count inductionHypothesis =>
    cases statements with
    | nil => exact Takes.sees_next faces (Takes.advance faces fun faces => Takes.pure faces rfl)
    | cons first others =>
      obtain ⟨readsFirst, readsOthers⟩ := List.forall_mem_cons.mp each
      -- neither the closing brace nor the end of file begins a statement
      refine Takes.sees_other faces (by decide) (upcoming_terminalsOf_ne rfl) ?_
      refine Takes.sees_other faces (by decide) (upcoming_terminalsOf_ne rfl) ?_
      exact attempt_first_takes readsFirst faces (upcoming_mark_ne (by decide) rest)
        (inductionHypothesis readsOthers)

theorem block_takes (opening : Position) : ReadBlock (.mk opening none statements) := by
  intro allowance cursor rest faces
  simp only [Block.terminals, List.cons_append, List.append_assoc, List.nil_append] at faces
  refine Takes.expect faces fun faces => ?_
  refine Takes.bind (blockRest_takes each faces) fun found faces same => Takes.pure faces ?_
  rw [Block.unplaced, Block.unplaced, same]

/-- Statements are read back up to the end of file. -/
theorem sequence_takes (faces : cursor.Faces (terminalsOf statements ++ [])) :
    Takes (sequence (Grammar.statement allowance) count) cursor [] fun found =>
      unplacedAll found = unplacedAll statements := by
  induction count generalizing statements cursor with
  | zero => exact Takes.exhausted
  | succ count inductionHypothesis =>
    cases statements with
    | nil => exact Takes.sees_upcoming faces rfl (Takes.pure faces rfl)
    | cons first others =>
      obtain ⟨readsFirst, readsOthers⟩ := List.forall_mem_cons.mp each
      refine Takes.sees_other faces (by decide) (upcoming_terminalsOf_ne rfl) ?_
      exact attempt_first_takes readsFirst faces (by decide) (inductionHypothesis readsOthers)

end

/-! ### Canonical statements -/

mutual

/-- A canonical statement is read back. -/
theorem readStmt_of_isCanonical {statement : Stmt} (canonical : statement.isCanonical = true) :
    ReadStmt statement := by
  match statement with
  | .assignment _ made => exact readStmt_assignment canonical
  | .declaration _ made => exact readStmt_declaration canonical
  | .action _ done => exact readStmt_action canonical
  | .returnValue _ value => exact readStmt_returnValue canonical
  | .block _ body => exact readStmt_block (readBlock_of_isCanonical canonical)
  | .function _ header body =>
    rw [Stmt.isCanonical, Bool.and_eq_true] at canonical
    exact readStmt_function canonical.1 (readBlock_of_isCanonical canonical.2)
  | .conditional _ condition first none =>
    rw [Stmt.isCanonical, Bool.and_eq_true] at canonical
    refine readStmt_conditional canonical.1 (readBlock_of_isCanonical canonical.2) ?_
    rintro _ ⟨⟩
  | .conditional _ condition first (some second) =>
    rw [Stmt.isCanonical, Bool.and_eq_true, Bool.and_eq_true] at canonical
    refine readStmt_conditional canonical.1.1 (readBlock_of_isCanonical canonical.1.2) ?_
    rintro _ ⟨⟩
    exact readBlock_of_isCanonical canonical.2
  | .forLoop _ init condition update body =>
    simp only [Stmt.isCanonical, Bool.and_eq_true] at canonical
    obtain ⟨⟨⟨isInit, whole⟩, isUpdate⟩, isBody⟩ := canonical
    exact readStmt_forLoop isInit whole isUpdate (readBlock_of_isCanonical isBody)
  | .whileLoop _ condition body =>
    rw [Stmt.isCanonical, Bool.and_eq_true] at canonical
    exact readStmt_whileLoop canonical.1 (readBlock_of_isCanonical canonical.2)

/-- A canonical block is read back. -/
theorem readBlock_of_isCanonical {body : Block} (canonical : body.isCanonical = true) :
    ReadBlock body := by
  match body with
  | .mk opening scope statements =>
    rw [Block.isCanonical, Bool.and_eq_true, Option.isNone_iff_eq_none] at canonical
    obtain ⟨rfl, areCanonical⟩ := canonical
    exact block_takes (readStmt_of_areCanonical areCanonical) opening

theorem readStmt_of_areCanonical {statements : List Stmt}
    (canonical : areCanonical statements = true) :
    ∀ statement ∈ statements, ReadStmt statement := by
  match statements with
  | [] => exact List.forall_mem_nil _
  | first :: rest =>
    rw [PadLang.areCanonical, Bool.and_eq_true] at canonical
    exact List.forall_mem_cons.mpr
      ⟨readStmt_of_isCanonical canonical.1, readStmt_of_areCanonical canonical.2⟩

end

end Grammar

/-! ### Programs -/

/-- Tokens of which the grammar sees those of a canonical program are read as this program. -/
theorem exists_program_of_flattens {program : Program}
    (canonical : areCanonical program.statements = true) {tokens : List Token}
    (flattens : (significant tokens).map Token.terminal = terminalsOf program.statements) :
    ∃ parsed, Grammar.program tokens = .ok (.ok parsed) ∧ parsed.unplaced = program.unplaced := by
  have faces : (Cursor.ofTokens tokens).Faces (terminalsOf program.statements ++ []) :=
    ⟨Grammar.ended_ofTokens tokens, rfl, by rw [List.append_nil]; exact flattens⟩
  have finishes : Grammar.statements (Grammar.allowanceFor (.ofTokens tokens)) (.ofTokens tokens) ≠
      .exhausted := by
    obtain ⟨read, next, done, _⟩ := Grammar.program_reads tokens
    intro runsOut
    rw [done] at runsOut
    cases runsOut
  obtain ⟨statements, next, done, facesNext, same⟩ :=
    Grammar.sequence_takes (Grammar.readStmt_of_areCanonical canonical) faces finishes
  refine ⟨⟨statements⟩, Grammar.program_eq_ok_iff.mpr ⟨next, done, facesNext.clean⟩, ?_⟩
  rw [Program.unplaced, Program.unplaced, same]

/-- Every canonical program is accepted and read back. There are tokens that its flattening is
written as, and whichever they are and wherever they stand, they are read without errors if an end
of file follows. What is delivered is the program itself, apart from positions. -/
theorem canonical_programs_read_back {program : Program}
    (canonical : areCanonical program.statements = true) :
    (∃ flattening,
      List.Forall₂ Terminal.WrittenAs (terminalsOf program.statements) flattening) ∧
    ∀ flattening finish,
      List.Forall₂ Terminal.WrittenAs (terminalsOf program.statements) flattening →
      finish.isMark .endOfFile = true →
      ∃ parsed, Grammar.program (flattening ++ [finish]) = .ok (.ok parsed) ∧
        parsed.unplaced = program.unplaced := by
  have writable := writable_all canonical
  refine ⟨exists_written writable, fun flattening finish written ends => ?_⟩
  have flattens := terminals_eq_of_written written writable
  rw [← flattens] at writable
  refine exists_program_of_flattens canonical ?_
  rw [significant_append_finish writable ends, flattens]

/-- A declaration whose value compares, and is converted as a whole:
`let x: float = (__random_int a - 1 - 2 == b != c) == not p as float;` -/
def comparing : Program :=
  let plain : Note := { position := {} }
  let name (text : String) := Expr.var plain text
  let less (left : Expr) (number : Int) :=
    Expr.binary plain left .subtract (.literal plain (.int number))
  let limit := Expr.binary plain (less (less (name "a") 1) 2) .equal
    (.binary plain (name "b") .notEqual (name "c"))
  let value := Expr.binary { plain with cast := some ⟨{}, .base .float⟩ }
    (.group plain (.randomInt plain limit)) .equal (.unary plain .not (name "p"))
  ⟨[.declaration ⟨{}, {}⟩ { name := ⟨{}, "x"⟩, type := ⟨{}, .base .float⟩, value }]⟩

/-- The tokens of this declaration. -/
def comparingTokens : List Token :=
  inOneLine [(.mark .letWord, "let"), (.mark .identifier, "x"), (.mark .colon, ":"),
    (.mark .floatType, "float"), (.mark .assign, "="), (.mark .openParen, "("),
    (.builtin .randomInt, "__random_int"), (.mark .identifier, "a"), (.mark .minus, "-"),
    (.literal (.int 1), "1"), (.mark .minus, "-"), (.literal (.int 2), "2"), (.mark .equal, "=="),
    (.mark .identifier, "b"), (.mark .notEqual, "!="), (.mark .identifier, "c"),
    (.mark .closeParen, ")"), (.mark .equal, "=="), (.mark .notWord, "not"),
    (.mark .identifier, "p"), (.mark .asWord, "as"), (.mark .floatType, "float"),
    (.mark .semicolon, ";")]

theorem canonical_programs_read_back_comparing :
    areCanonical comparing.statements = true ∧
      List.Forall₂ Terminal.WrittenAs (terminalsOf comparing.statements) comparingTokens ∧
      ∃ parsed, Grammar.program (comparingTokens ++ [Token.endOfFile {}]) = .ok (.ok parsed) ∧
        parsed.unplaced = comparing.unplaced := by
  have canonical : areCanonical comparing.statements = true := by decide
  have written :
      List.Forall₂ Terminal.WrittenAs (terminalsOf comparing.statements) comparingTokens := by
    repeat' first | exact .nil | refine .cons ?_ ?_ | exact rfl | exact ⟨_, rfl⟩
  exact ⟨canonical, written, (canonical_programs_read_back canonical).2 _ _ written rfl⟩

end PadLang
