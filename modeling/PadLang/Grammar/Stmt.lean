/-
This file reads statements, blocks and whole programs.

A statement that cannot be read does not end the reading. Its error is recorded, the tokens
up to the next safe place are skipped, and the sequence of statements around it goes on: a
semicolon is skipped too, and a token that can only begin a statement is left in place. So
one reading reports several independent errors, and a program is delivered only if there
are none.
-/

import PadLang.Grammar.Expr

namespace PadLang

namespace Grammar

open Rule

/-! ### Recovery -/

/-- Whether a token can only begin a statement. -/
def beginsStatement (token : Token) : Bool :=
  match token.content with
  | .mark .openCurly | .mark .ifWord | .mark .forWord | .mark .whileWord | .mark .letWord
  | .mark .returnWord | .mark .funWord => true
  | .builtin builtin => builtin.isStatement
  | _ => false

/-- Skips to a safe place: behind a semicolon, or in front of a token that can only begin a
statement or of the end of file. -/
def skip (behind : Position) : List Token → List Token × Position
  | [] => ([], behind)
  | token :: rest =>
    if token.isMark .semicolon then (rest, token.position)
    else if beginsStatement token || token.isMark .endOfFile then (token :: rest, behind)
    else skip token.position rest

/-- The cursor after recovering from an error. -/
def recover (cursor : Cursor) (error : Located ParseError) : Cursor :=
  let (ahead, behind) := skip cursor.behind cursor.ahead
  { cursor with ahead, behind, errors := cursor.errors ++ [error] }

/-- Reads a statement if it can be read, and recovers if not. -/
def attempt (statement : Rule Stmt) : Rule (Option Stmt) := fun cursor =>
  match statement cursor with
  | .done value next => .done (some value) next
  | .refused error next => .done none (recover next error)
  | .exhausted => .exhausted

/-! ### Sequences -/

/-- Reads the statements of a block and its closing brace. -/
def blockRest (statement : Rule Stmt) : (allowance : Nat) → Rule (List Stmt)
  | 0 => exhausted
  | allowance + 1 => do
    if ← sees .closeCurly then
      let _ ← advance
      return []
    else if ← sees .endOfFile then
      let _ ← expect .closeCurly
      return []
    else
      let first ← attempt statement
      let rest ← blockRest statement allowance
      return first.toList ++ rest

/-- Reads a block. -/
def block (statement : Rule Stmt) (allowance : Nat) : Rule Block := do
  let opening ← expect .openCurly
  let statements ← blockRest statement allowance
  return .mk opening.position none statements

/-- Reads statements up to the end of file. -/
def sequence (statement : Rule Stmt) : (allowance : Nat) → Rule (List Stmt)
  | 0 => exhausted
  | allowance + 1 => do
    if ← sees .endOfFile then return []
    else
      let first ← attempt statement
      let rest ← sequence statement allowance
      return first.toList ++ rest

/-! ### Simple statements -/

/-- Reads a declaration, its semicolon apart. -/
def declaration (expr : Rule Expr) : Rule Declaration := do
  let _ ← expect .letWord
  let name ← identifier
  let _ ← expect .colon
  let type ← type
  let _ ← expect .assign
  let value ← expr
  return { name, type, value }

/-- Reads the index in brackets after a name, if there is one. -/
def targetIndex (expr : Rule Expr) : Rule (Option Expr) := do
  if ← sees .openSquare then
    let _ ← advance
    let index ← expr
    let _ ← expect .closeSquare
    return some index
  else
    return none

/-- Reads an assignment, its semicolon apart. -/
def assignment (expr : Rule Expr) : Rule Assignment := do
  let target ← identifier
  let index ← targetIndex expr
  let _ ← expect .assign
  let value ← expr
  return { target, index, value }

/-- Reads an expression and the comma after it. -/
def operand (expr : Rule Expr) : Rule Expr := do
  let value ← expr
  let _ ← expect .comma
  return value

/-- Reads the operands of a builtin that stands as a statement, the builtin being consumed.
The others do not get here. -/
def actionOperands (builtin : Builtin) (expr : Rule Expr) : Rule Action :=
  match builtin with
  | .print => do return .print (← expr)
  | .delay => do return .delay (← expr)
  | .clear => do return .clear (← expr)
  | .write => do
    let x ← operand expr
    let y ← operand expr
    let colour ← expr
    return .write x y colour
  | .writeBox => do
    let x ← operand expr
    let y ← operand expr
    let width ← operand expr
    let height ← operand expr
    let colour ← expr
    return .writeBox x y width height colour
  | .width | .height | .read | .randomInt => refuse (.unexpected .statement)

/-- Reads an action, its semicolon apart. -/
def action (builtin : Builtin) (expr : Rule Expr) : Rule Action :=
  if builtin.isStatement then do
    let _ ← advance
    actionOperands builtin expr
  else refuse (.unexpected .statement)

/-! ### Compound statements -/

/-- Reads a condition in parentheses. -/
def condition (expr : Rule Expr) : Rule Expr := do
  let _ ← expect .openParen
  let condition ← expr
  let _ ← expect .closeParen
  return condition

/-- Reads the branch taken when a condition fails, if there is one. -/
def alternative (block : Rule Block) : Rule (Option Block) := do
  if ← sees .elseWord then
    let _ ← advance
    return some (← block)
  else
    return none

/-- Reads the declaration that opens a loop, if there is one. -/
def loopInit (expr : Rule Expr) : Rule (Option Declaration) := do
  if ← sees .letWord then return some (← declaration expr) else return none

/-- Reads the assignment that ends each round of a loop, if there is one. -/
def loopUpdate (expr : Rule Expr) : Rule (Option Assignment) := do
  if ← sees .closeParen then return none else return some (← assignment expr)

/-- Reads a parameter of a function. -/
def parameter : Rule Parameter := do
  let name ← identifier
  let _ ← expect .colon
  let type ← type
  return { name, type }

/-- Reads what a function declares ahead of its body. -/
def header (allowance : Nat) : Rule Header := do
  let _ ← expect .funWord
  let name ← identifier
  let _ ← expect .openParen
  let parameters ← if ← sees .closeParen then pure [] else commaSeparated parameter allowance
  let _ ← expect .closeParen
  let _ ← expect .arrow
  let returns ← type
  return { name, parameters, returns }

/-! ### Statements -/

/-- Reads what follows the first token of a statement and pairs it with its span. -/
def spanned (first : Position) (build : Rule (Span → Stmt)) : Rule Stmt := do
  let make ← build
  let last ← behind
  return make { first, last }

/-- Reads the parts of a statement, told by its first token. -/
def statementParts (token : Token) (block : Rule Block) (expr : Rule Expr) (allowance : Nat) :
    Rule (Span → Stmt) :=
  match token.content with
  | .mark .letWord => do
    let declaration ← declaration expr
    let _ ← expect .semicolon
    return (Stmt.declaration · declaration)
  | .builtin builtin => do
    let action ← action builtin expr
    let _ ← expect .semicolon
    return (Stmt.action · action)
  | .mark .openCurly => do
    let body ← block
    return (Stmt.block · body)
  | .mark .ifWord => do
    let _ ← expect .ifWord
    let condition ← condition expr
    let consequent ← block
    let alternative ← alternative block
    return (Stmt.conditional · condition consequent alternative)
  | .mark .forWord => do
    let _ ← expect .forWord
    let _ ← expect .openParen
    let init ← loopInit expr
    let _ ← expect .semicolon
    let condition ← expr
    let _ ← expect .semicolon
    let update ← loopUpdate expr
    let _ ← expect .closeParen
    let body ← block
    return (Stmt.forLoop · init condition update body)
  | .mark .whileWord => do
    let _ ← expect .whileWord
    let condition ← condition expr
    let body ← block
    return (Stmt.whileLoop · condition body)
  | .mark .funWord => do
    let header ← header allowance
    let body ← block
    return (Stmt.function · header body)
  | .mark .returnWord => do
    let _ ← advance
    let value ← expr
    let _ ← expect .semicolon
    return (Stmt.returnValue · value)
  | _ => do
    let assignment ← assignment expr
    let _ ← expect .semicolon
    return (Stmt.assignment · assignment)

/-- Reads a statement. The allowance bounds how deep blocks nest. -/
def statement : (allowance : Nat) → Rule Stmt
  | 0 => exhausted
  | allowance + 1 => do
    let token ← peek
    let nested := block (statement allowance) (allowance + 1)
    spanned token.position
      (statementParts token nested (expression (allowance + 1)) (allowance + 1))

/-! ### Programs -/

/-- Reads the statements of a program. -/
def statements (allowance : Nat) : Rule (List Stmt) := sequence (statement allowance) allowance

/-- An allowance that no reading from this place uses up: each nested construct and each
repetition begins after a token of the one before. -/
def allowanceFor (cursor : Cursor) : Nat :=
  cursor.ahead.length + 1

/-- Reads a program, or reports every error found. -/
def program (tokens : List Token) :
    Except Fault (Except (List (Located ParseError)) Program) :=
  let start := Cursor.ofTokens tokens
  match statements (allowanceFor start) start with
  | .done statements cursor =>
    match cursor.errors with
    | [] => .ok (.ok ⟨statements⟩)
    | errors => .ok (.error errors)
  | .refused error cursor => .ok (.error (cursor.errors ++ [error]))
  | .exhausted => .error .exhausted

end Grammar

end PadLang
