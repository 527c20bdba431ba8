/-
This file writes terminals as tokens.

A name is written as the token that is made of its text, which is a name only if the text is not
reserved. The terminals of a canonical program are all writable: there are tokens for them, these
tokens are the same terminals again, and the grammar sees every one of them in front of an end of
file.
-/

import Mathlib.Data.List.Forall2
import PadLang.Proofs.Grammar.Lossless
import PadLang.Proofs.Grammar.Taking

namespace PadLang

variable {terminals : List Terminal} {token : Token} {flattening : List Token} {condition : Expr}

/-! ### Tokens -/

/-- A token that a terminal is written as: of a name, the one that is made of its text. -/
def Terminal.WrittenAs : Terminal → Token → Prop
  | .name text, token => ∃ position, Token.read (.mark .identifier) text position = .ok token
  | .mark sign, token => token.content = .mark sign
  | .literal value, token => token.content = .literal value
  | .builtin asked, token => token.content = .builtin asked

/-- Whether the tokens that a terminal is written as are that terminal again, and the grammar sees
them. -/
def Terminal.isWritable : Terminal → Bool
  | .name text => isName text
  | .mark .identifier | .mark .comment | .mark .whitespace | .mark .endOfFile => false
  | .mark _ | .literal _ | .builtin _ => true

theorem Token.read_name {text : String} (unreserved : isName text = true) (position : Position) :
    Token.read (.mark .identifier) text position =
      .ok { position, lexeme := text, content := .mark .identifier } := by
  have isKind : TokenKind.refine (.mark .identifier) text = .mark .identifier := by
    rw [TokenKind.refine, if_pos rfl, Option.isNone_iff_eq_none.mp unreserved]
    rfl
  rw [Token.read, isKind]
  rfl

theorem Terminal.exists_writtenAs (terminal : Terminal) (writable : terminal.isWritable = true) :
    ∃ token, terminal.WrittenAs token := by
  cases terminal with
  | name text => exact ⟨_, {}, Token.read_name writable {}⟩
  | mark sign => exact ⟨⟨{}, "", .mark sign⟩, rfl⟩
  | literal value => exact ⟨⟨{}, "", .literal value⟩, rfl⟩
  | builtin asked => exact ⟨⟨{}, "", .builtin asked⟩, rfl⟩

theorem Terminal.WrittenAs.terminal_eq {terminal : Terminal} (written : terminal.WrittenAs token)
    (writable : terminal.isWritable = true) : token.terminal = terminal := by
  cases terminal with
  | name text =>
    obtain ⟨position, made⟩ := written
    rw [Token.read_name writable] at made
    cases made
    rfl
  | mark sign =>
    refine Token.terminal_of_content (fun isIdentifier => ?_) written
    rw [isIdentifier] at writable
    cases writable
  | literal _ | builtin _ =>
    change token.content = _ at written
    rw [Token.terminal, written]

/-- The grammar sees the tokens of terminals that are writable. -/
theorem Token.significant_of_writable (writable : token.terminal.isWritable = true) :
    token.isTrivia = false ∧ token.isMark .endOfFile = false := by
  rw [Token.isTrivia, Token.isMark_eq, Token.isMark_eq, Token.isMark_eq]
  cases found : token.terminal with
  | name _ | literal _ | builtin _ => exact ⟨rfl, rfl⟩
  | mark sign =>
    rw [found] at writable
    cases sign <;> first | exact ⟨rfl, rfl⟩ | cases writable

theorem significant_cons (notTrivia : token.isTrivia = false)
    (notEnd : token.isMark .endOfFile = false) (rest : List Token) :
    significant (token :: rest) = token :: significant rest := by
  simp [significant, notTrivia, notEnd]

/-- The grammar sees all tokens of writable terminals in front of an end of file. -/
theorem significant_append_finish {finish : Token}
    (writable : (flattening.map Token.terminal).all Terminal.isWritable = true)
    (ends : finish.isMark .endOfFile = true) :
    significant (flattening ++ [finish]) = flattening := by
  have isEnd : finish.isTrivia = false := by
    rw [Token.isTrivia, Token.isMark, Token.isMark, Cursor.content_of_isMark ends]
    rfl
  induction flattening with
  | nil => simp [significant, isEnd, ends]
  | cons token rest inductionHypothesis =>
    rw [List.map_cons, List.all_cons, Bool.and_eq_true] at writable
    obtain ⟨notTrivia, notEnd⟩ := Token.significant_of_writable writable.1
    rw [List.cons_append, significant_cons notTrivia notEnd, inductionHypothesis writable.2]

theorem terminals_eq_of_written (written : List.Forall₂ Terminal.WrittenAs terminals flattening)
    (writable : terminals.all Terminal.isWritable = true) :
    flattening.map Token.terminal = terminals := by
  induction written with
  | nil => rfl
  | cons isWritten _ inductionHypothesis =>
    rw [List.all_cons, Bool.and_eq_true] at writable
    rw [List.map_cons, isWritten.terminal_eq writable.1, inductionHypothesis writable.2]

/-- Terminals that are writable can be written. -/
theorem exists_written (writable : terminals.all Terminal.isWritable = true) :
    ∃ flattening, List.Forall₂ Terminal.WrittenAs terminals flattening := by
  induction terminals with
  | nil => exact ⟨[], .nil⟩
  | cons first rest inductionHypothesis =>
    rw [List.all_cons, Bool.and_eq_true] at writable
    obtain ⟨token, isFirst⟩ := first.exists_writtenAs writable.1
    obtain ⟨flattening, isRest⟩ := inductionHypothesis writable.2
    exact ⟨token :: flattening, .cons isFirst isRest⟩

/-! ### The terminals of canonical programs -/

theorem writable_commas {lists : List (List Terminal)}
    (each : ∀ list ∈ lists, list.all Terminal.isWritable = true) :
    (commas lists).all Terminal.isWritable = true := by
  induction lists with
  | nil => rfl
  | cons first rest inductionHypothesis =>
    obtain ⟨isFirst, others⟩ := List.forall_mem_cons.mp each
    cases rest with
    | nil => exact isFirst
    | cons second others' =>
      rw [commas_cons (List.cons_ne_nil _ _), List.all_append, List.all_cons, isFirst,
        inductionHypothesis others]
      rfl

theorem writable_type (type : Ty) : type.terminals.all Terminal.isWritable = true := by
  match type with
  | .base base => cases base <;> rfl
  | .array size element =>
    rw [Ty.terminals, List.all_append, writable_type element]
    rfl

theorem writable_note (note : Note) : note.terminals.all Terminal.isWritable = true := by
  cases asks : note.cast with
  | none =>
    rw [Note.terminals_eq_nil asks]
    rfl
  | some cast =>
    rw [Note.terminals, asks]
    exact writable_type cast.value

mutual

theorem writable_expr {expr : Expr} (canonical : expr.isCanonical = true) :
    expr.terminals.all Terminal.isWritable = true := by
  match expr with
  | .literal note value => exact writable_note note
  | .side note which => exact writable_note note
  | .array note items =>
    simp [Expr.terminals, Terminal.isWritable, writable_note note,
      writable_commas (writable_items canonical)]
  | .read note x y =>
    simp only [Expr.isCanonical, Bool.and_eq_true] at canonical
    simp [Expr.terminals, Terminal.isWritable, writable_note note, writable_expr canonical.1.1,
      writable_expr canonical.2.1]
  | .randomInt note _ | .group note _ =>
    rw [Expr.isCanonical, Bool.and_eq_true] at canonical
    simp [Expr.terminals, Terminal.isWritable, writable_note note, writable_expr canonical.1]
  | .var note name =>
    rw [Expr.isCanonical] at canonical
    simp [Expr.terminals, Terminal.isWritable, writable_note note, canonical]
  | .index note name offset =>
    simp only [Expr.isCanonical, Bool.and_eq_true] at canonical
    simp [Expr.terminals, Terminal.isWritable, writable_note note, canonical.1,
      writable_expr canonical.2.1]
  | .call note function items =>
    rw [Expr.isCanonical, Bool.and_eq_true] at canonical
    simp [Expr.terminals, Terminal.isWritable, writable_note note, canonical.1,
      writable_commas (writable_items canonical.2)]
  | .unary note operator operand =>
    rw [Expr.isCanonical, Bool.and_eq_true] at canonical
    have isMark : (Terminal.mark operator.mark).isWritable = true := by cases operator <;> rfl
    simp [Expr.terminals, writable_note note, isMark, writable_expr canonical.1]
  | .binary note left operator right =>
    simp only [Expr.isCanonical, Bool.and_eq_true] at canonical
    have isMark : (Terminal.mark operator.mark).isWritable = true := by cases operator <;> rfl
    simp [Expr.terminals, writable_note note, isMark, writable_expr canonical.1.1.1,
      writable_expr canonical.2.1]

theorem writable_items {items : List Expr} (canonical : allCanonical items = true) :
    ∀ list ∈ eachTerminals items, list.all Terminal.isWritable = true := by
  match items with
  | [] => exact List.forall_mem_nil _
  | first :: rest =>
    simp only [allCanonical, Bool.and_eq_true] at canonical
    exact List.forall_mem_cons.mpr
      ⟨writable_expr canonical.1.1, writable_items canonical.2⟩

end

theorem writable_whole {expr : Expr} (whole : expr.isWhole = true) :
    expr.terminals.all Terminal.isWritable = true := by
  rw [Expr.isWhole, Bool.and_eq_true] at whole
  exact writable_expr whole.1

theorem writable_declaration {made : Declaration} (canonical : made.isCanonical = true) :
    made.terminals.all Terminal.isWritable = true := by
  simp only [Declaration.isCanonical, Bool.and_eq_true] at canonical
  simp [Declaration.terminals, Terminal.isWritable, canonical.1.1, writable_type,
    writable_whole canonical.2]

theorem writable_assignment {made : Assignment} (canonical : made.isCanonical = true) :
    made.terminals.all Terminal.isWritable = true := by
  simp only [Assignment.isCanonical, Bool.and_eq_true] at canonical
  have isIndex : (indexTerminals made.index).all Terminal.isWritable = true := by
    cases found : made.index with
    | none => rfl
    | some index =>
      rw [found] at canonical
      simp [indexTerminals, Terminal.isWritable, writable_whole canonical.1.2]
  simp [Assignment.terminals, Terminal.isWritable, canonical.1.1, isIndex,
    writable_whole canonical.2]

theorem writable_action {done : Action} (canonical : done.isCanonical = true) :
    done.terminals.all Terminal.isWritable = true := by
  cases done with
  | print value | delay value | clear value => exact writable_whole canonical
  | write x y colour =>
    simp only [Action.isCanonical, Bool.and_eq_true] at canonical
    simp [Action.terminals, commas, Terminal.isWritable, writable_whole canonical.1.1,
      writable_whole canonical.1.2, writable_whole canonical.2]
  | writeBox x y width height colour =>
    simp only [Action.isCanonical, Bool.and_eq_true] at canonical
    obtain ⟨⟨⟨⟨isX, isY⟩, isWidth⟩, isHeight⟩, isColour⟩ := canonical
    simp [Action.terminals, commas, Terminal.isWritable, writable_whole isX, writable_whole isY,
      writable_whole isWidth, writable_whole isHeight, writable_whole isColour]

theorem writable_header {header : Header} (canonical : header.isCanonical = true) :
    header.terminals.all Terminal.isWritable = true := by
  simp only [Header.isCanonical, Bool.and_eq_true, List.all_eq_true] at canonical
  have parameters : (commas (header.parameters.map Parameter.terminals)).all
      Terminal.isWritable = true := by
    refine writable_commas (List.forall_mem_map.mpr fun parameter member => ?_)
    have isParameter := canonical.1.1.2 parameter member
    rw [Parameter.isCanonical, Bool.and_eq_true] at isParameter
    simp [Parameter.terminals, Terminal.isWritable, isParameter.1, writable_type]
  simp [Header.terminals, Terminal.isWritable, canonical.1.1.1, parameters, writable_type]

theorem writable_condition (whole : condition.isWhole = true) {keyword : Mark}
    (isKeyword : (Terminal.mark keyword).isWritable = true) :
    (conditionTerminals keyword condition).all Terminal.isWritable = true := by
  rw [conditionTerminals, List.all_cons, List.all_cons, List.all_append, isKeyword,
    writable_whole whole]
  rfl

theorem writable_clauses {init : Option Declaration} {update : Option Assignment}
    (isInit : init.all Declaration.isCanonical = true) (whole : condition.isWhole = true)
    (isUpdate : update.all Assignment.isCanonical = true) :
    (clauseTerminals init condition update).all Terminal.isWritable = true := by
  have initWritable :
      ((init.map Declaration.terminals).getD []).all Terminal.isWritable = true := by
    cases init with
    | none => rfl
    | some made => exact writable_declaration isInit
  have updateWritable :
      ((update.map Assignment.terminals).getD []).all Terminal.isWritable = true := by
    cases update with
    | none => rfl
    | some made => exact writable_assignment isUpdate
  simp [clauseTerminals, Terminal.isWritable, initWritable, updateWritable, writable_whole whole]

mutual

theorem writable_stmt {statement : Stmt} (canonical : statement.isCanonical = true) :
    statement.terminals.all Terminal.isWritable = true := by
  match statement with
  | .assignment _ made =>
    rw [Stmt.terminals, List.all_append, writable_assignment canonical]
    rfl
  | .declaration _ made =>
    rw [Stmt.terminals, List.all_append, writable_declaration canonical]
    rfl
  | .action _ done =>
    rw [Stmt.terminals, List.all_append, writable_action canonical]
    rfl
  | .returnValue _ value =>
    rw [Stmt.terminals, List.all_cons, List.all_append, writable_whole canonical]
    rfl
  | .block _ body => exact writable_block canonical
  | .function _ header body =>
    rw [Stmt.isCanonical, Bool.and_eq_true] at canonical
    rw [Stmt.terminals, List.all_append, writable_header canonical.1, writable_block canonical.2]
    rfl
  | .conditional _ _ _ none | .whileLoop _ _ _ =>
    rw [Stmt.isCanonical, Bool.and_eq_true] at canonical
    rw [Stmt.terminals, List.all_append, writable_condition canonical.1 rfl,
      writable_block canonical.2]
    rfl
  | .conditional _ condition first (some second) =>
    rw [Stmt.isCanonical, Bool.and_eq_true, Bool.and_eq_true] at canonical
    rw [Stmt.terminals, List.all_append, writable_condition canonical.1.1 rfl, List.all_append,
      writable_block canonical.1.2, List.all_cons, writable_block canonical.2]
    rfl
  | .forLoop _ init condition update body =>
    simp only [Stmt.isCanonical, Bool.and_eq_true] at canonical
    obtain ⟨⟨⟨isInit, whole⟩, isUpdate⟩, isBody⟩ := canonical
    rw [Stmt.terminals, List.all_append, writable_clauses isInit whole isUpdate,
      writable_block isBody]
    rfl

theorem writable_block {body : Block} (canonical : body.isCanonical = true) :
    body.terminals.all Terminal.isWritable = true := by
  match body with
  | .mk _ scope statements =>
    rw [Block.isCanonical, Bool.and_eq_true] at canonical
    rw [Block.terminals, List.all_cons, List.all_append, writable_all canonical.2]
    rfl

theorem writable_all {statements : List Stmt} (canonical : areCanonical statements = true) :
    (terminalsOf statements).all Terminal.isWritable = true := by
  match statements with
  | [] => rfl
  | first :: rest =>
    rw [areCanonical, Bool.and_eq_true] at canonical
    rw [terminalsOf, List.all_append, writable_stmt canonical.1, writable_all canonical.2]
    rfl

end

end PadLang
