/-
This file flattens programs to the terminals of the grammar.

A terminal is what the grammar sees of a token: a mark, a name with its text, a literal with its
value, or a builtin. The flattening of a construct is its concrete syntax written out in order,
with nothing left to choose: a conversion stands behind the expression it applies to, commas stand
between items, and a semicolon ends every simple statement. With it goes the place of each
statement in the flattening of what is around it, counted in terminals.
-/

import PadLang.Grammar.Stmt

namespace PadLang

/-! ### Terminals -/

/-- What the grammar sees of a token. -/
inductive Terminal where
  | mark (mark : Mark)
  | name (text : String)
  | literal (value : Literal)
  | builtin (name : Builtin)
deriving DecidableEq, Repr

/-- The terminal that a token is. -/
def Token.terminal (token : Token) : Terminal :=
  match token.content with
  | .mark .identifier => .name token.lexeme
  | .mark mark => .mark mark
  | .literal value => .literal value
  | .builtin name => .builtin name

/-- The content of the tokens that are a terminal. -/
def Terminal.content : Terminal → Content
  | .mark sign => .mark sign
  | .name _ => .mark .identifier
  | .literal value => .literal value
  | .builtin asked => .builtin asked

theorem Token.content_eq (token : Token) : token.content = token.terminal.content := by
  unfold Token.terminal
  split <;> rename_i found <;> exact found

/-! ### Types and expressions -/

/-- The mark that names a scalar type. -/
def Base.mark : Base → Mark
  | .bool => .boolType
  | .colour => .colourType
  | .float => .floatType
  | .int => .intType

/-- The mark of an operator between two operands. -/
def BinaryOperator.mark : BinaryOperator → Mark
  | .or => .orWord
  | .and => .andWord
  | .equal => .equal
  | .notEqual => .notEqual
  | .less => .less
  | .lessOrEqual => .lessEqual
  | .greater => .greater
  | .greaterOrEqual => .greaterEqual
  | .add => .plus
  | .subtract => .minus
  | .multiply => .star
  | .divide => .slash

/-- The mark of an operator in front of one operand. -/
def UnaryOperator.mark : UnaryOperator → Mark
  | .not => .notWord
  | .negate => .minus

/-- The builtin that asks for a side of the pad. -/
def Side.builtin : Side → Builtin
  | .width => .width
  | .height => .height

/-- The terminals of a type. -/
def Ty.terminals : Ty → List Terminal
  | .base scalar => [.mark scalar.mark]
  | .array size element =>
    element.terminals ++ [.mark .openSquare, .literal (.int size), .mark .closeSquare]

/-- The terminals of the conversion that an expression asks for, if it does. -/
def Note.terminals (note : Note) : List Terminal :=
  match note.cast with
  | none => []
  | some type => .mark .asWord :: type.value.terminals

/-- Items with commas between them. -/
def commas : List (List Terminal) → List Terminal
  | [] => []
  | [last] => last
  | first :: second :: rest => first ++ .mark .comma :: commas (second :: rest)

theorem commas_cons {rest : List (List Terminal)} (more : rest ≠ []) (first : List Terminal) :
    commas (first :: rest) = first ++ .mark .comma :: commas rest := by
  cases rest with
  | nil => exact absurd rfl more
  | cons second others => rfl

mutual

/-- The terminals of an expression, the conversion that it asks for included. -/
def Expr.terminals : Expr → List Terminal
  | .literal note value => .literal value :: note.terminals
  | .array note items =>
    .mark .openSquare :: (commas (eachTerminals items) ++ .mark .closeSquare :: note.terminals)
  | .side note which => .builtin which.builtin :: note.terminals
  | .read note x y =>
    .builtin .read :: (x.terminals ++ .mark .comma :: (y.terminals ++ note.terminals))
  | .randomInt note limit => .builtin .randomInt :: (limit.terminals ++ note.terminals)
  | .var note name => .name name :: note.terminals
  | .index note name offset =>
    .name name.value :: .mark .openSquare ::
      (offset.terminals ++ .mark .closeSquare :: note.terminals)
  | .call note function items =>
    .name function.value :: .mark .openParen ::
      (commas (eachTerminals items) ++ .mark .closeParen :: note.terminals)
  | .group note inner =>
    .mark .openParen :: (inner.terminals ++ .mark .closeParen :: note.terminals)
  | .binary note left operator right =>
    left.terminals ++ .mark operator.mark :: (right.terminals ++ note.terminals)
  | .unary note operator operand =>
    .mark operator.mark :: (operand.terminals ++ note.terminals)

/-- The terminals of each of some expressions. -/
def eachTerminals : List Expr → List (List Terminal)
  | [] => []
  | first :: rest => first.terminals :: eachTerminals rest

end

theorem eachTerminals_eq_map (items : List Expr) :
    eachTerminals items = items.map Expr.terminals := by
  induction items with
  | nil => rfl
  | cons first rest inductionHypothesis => rw [eachTerminals, inductionHypothesis, List.map_cons]

theorem Note.terminals_eq_nil {note : Note} (plain : note.cast = none) : note.terminals = [] := by
  rw [Note.terminals, plain]

/-- A conversion is written behind the expression it applies to. -/
theorem Expr.terminals_withCast (expr : Expr) (plain : expr.note.cast = none) (cast : Located Ty) :
    (expr.withCast cast).terminals = expr.terminals ++ .mark .asWord :: cast.value.terminals := by
  have before : expr.note.terminals = [] := Note.terminals_eq_nil plain
  cases expr <;>
    simp_all [Expr.withCast, Expr.withNote, Expr.note, Expr.terminals, Note.terminals]

/-! ### Statements -/

/-- The terminals of a declaration, its semicolon apart. -/
def Declaration.terminals (made : Declaration) : List Terminal :=
  .mark .letWord :: .name made.name.value :: .mark .colon ::
    (made.type.value.terminals ++ .mark .assign :: made.value.terminals)

/-- The terminals of an index in brackets, if there is one. -/
def indexTerminals : Option Expr → List Terminal
  | none => []
  | some index => .mark .openSquare :: (index.terminals ++ [.mark .closeSquare])

/-- The terminals of an assignment, its semicolon apart. -/
def Assignment.terminals (made : Assignment) : List Terminal :=
  .name made.target.value ::
    (indexTerminals made.index ++ .mark .assign :: made.value.terminals)

/-- The terminals of an action, its semicolon apart. -/
def Action.terminals : Action → List Terminal
  | .print value => .builtin .print :: value.terminals
  | .delay milliseconds => .builtin .delay :: milliseconds.terminals
  | .write x y colour =>
    .builtin .write :: commas [x.terminals, y.terminals, colour.terminals]
  | .writeBox x y width height colour =>
    .builtin .writeBox :: commas [x.terminals, y.terminals, width.terminals, height.terminals,
      colour.terminals]
  | .clear colour => .builtin .clear :: colour.terminals

/-- The terminals of a parameter. -/
def Parameter.terminals (parameter : Parameter) : List Terminal :=
  .name parameter.name.value :: .mark .colon :: parameter.type.value.terminals

/-- The terminals of what a function declares ahead of its body. -/
def Header.terminals (header : Header) : List Terminal :=
  .mark .funWord :: .name header.name.value :: .mark .openParen ::
    (commas (header.parameters.map Parameter.terminals) ++
      .mark .closeParen :: .mark .arrow :: header.returns.value.terminals)

/-- The terminals of a condition, from its keyword to the parenthesis behind it. -/
def conditionTerminals (keyword : Mark) (condition : Expr) : List Terminal :=
  .mark keyword :: .mark .openParen :: (condition.terminals ++ [.mark .closeParen])

/-- The terminals of the clauses of a loop, from its keyword to the parenthesis behind them. -/
def clauseTerminals (init : Option Declaration) (condition : Expr) (update : Option Assignment) :
    List Terminal :=
  .mark .forWord :: .mark .openParen ::
    ((init.map Declaration.terminals).getD [] ++ .mark .semicolon ::
      (condition.terminals ++ .mark .semicolon ::
        ((update.map Assignment.terminals).getD [] ++ [.mark .closeParen])))

mutual

/-- The terminals of a statement. -/
def Stmt.terminals : Stmt → List Terminal
  | .assignment _ made => made.terminals ++ [.mark .semicolon]
  | .declaration _ made => made.terminals ++ [.mark .semicolon]
  | .action _ done => done.terminals ++ [.mark .semicolon]
  | .returnValue _ value => .mark .returnWord :: (value.terminals ++ [.mark .semicolon])
  | .block _ body => body.terminals
  | .function _ header body => header.terminals ++ body.terminals
  | .conditional _ condition first none =>
    conditionTerminals .ifWord condition ++ first.terminals
  | .conditional _ condition first (some second) =>
    conditionTerminals .ifWord condition ++
      (first.terminals ++ .mark .elseWord :: second.terminals)
  | .forLoop _ init condition update body =>
    clauseTerminals init condition update ++ body.terminals
  | .whileLoop _ condition body => conditionTerminals .whileWord condition ++ body.terminals

/-- The terminals of a block. -/
def Block.terminals : Block → List Terminal
  | .mk _ _ body => .mark .openCurly :: (terminalsOf body ++ [.mark .closeCurly])

/-- The terminals of statements that follow one another. -/
def terminalsOf : List Stmt → List Terminal
  | [] => []
  | first :: rest => first.terminals ++ terminalsOf rest

end

/-- Every statement has a terminal. -/
theorem Stmt.terminals_ne_nil (statement : Stmt) : statement.terminals ≠ [] := by
  have block_ne_nil (body : Block) : body.terminals ≠ [] := by
    cases body
    exact List.cons_ne_nil _ _
  fun_cases Stmt.terminals statement <;> simp [block_ne_nil]

/-! ### The places of statements -/

/-- Statements with their places, behind so many more terminals. -/
def shifted (count : Nat) (parts : List (Nat × Stmt)) : List (Nat × Stmt) :=
  parts.map fun part => (count + part.1, part.2)

mutual

/-- The statements inside a statement, each with the number of terminals in front of it. -/
def Stmt.inner : Stmt → List (Nat × Stmt)
  | .assignment _ _ | .declaration _ _ | .action _ _ | .returnValue _ _ => []
  | .block _ body => body.inner
  | .function _ header body => shifted header.terminals.length body.inner
  | .conditional _ condition first none =>
    shifted (conditionTerminals .ifWord condition).length first.inner
  | .conditional _ condition first (some second) =>
    shifted (conditionTerminals .ifWord condition).length
      (first.inner ++ shifted (first.terminals.length + 1) second.inner)
  | .forLoop _ init condition update body =>
    shifted (clauseTerminals init condition update).length body.inner
  | .whileLoop _ condition body =>
    shifted (conditionTerminals .whileWord condition).length body.inner

/-- The statements inside a block, each with the number of terminals in front of it. -/
def Block.inner : Block → List (Nat × Stmt)
  | .mk _ _ body => shifted 1 (placingsOf body)

/-- The statements among and inside statements that follow one another, each with the number of
terminals in front of it. -/
def placingsOf : List Stmt → List (Nat × Stmt)
  | [] => []
  | first :: rest => (0, first) :: (first.inner ++ shifted first.terminals.length (placingsOf rest))

end

end PadLang
