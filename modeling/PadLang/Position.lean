/-
This file places things in a source text.

A position is a line and a column, both counted from one. Positions only move forward, one
character at a time: a line feed starts the next line, a tab goes to the next multiple of
four columns, and any other character takes one column.
-/

import PadLang.Fault

namespace PadLang

/-! ### Positions -/

/-- A place in a source text, by line and column. -/
structure Position where
  line : Nat := 1
  column : Nat := 1
deriving DecidableEq, Repr, Inhabited

namespace Position

/-- The columns from one tab stop to the next. -/
def tabStop : Nat := 4

/-- The next column of the same line. -/
def advance (position : Position) : Except Fault Position := do
  let column ← Counter.add position.column 1
  return { position with column }

/-- The first column of the next line. -/
def newline (position : Position) : Except Fault Position := do
  let line ← Counter.add position.line 1
  return { line, column := 1 }

/-- The column after the next tab stop of the same line. -/
def tab (position : Position) : Except Fault Position := do
  let offset ← Counter.subtract position.column 1
  let stops ← Counter.add (offset / tabStop) 1
  let width ← Counter.multiply stops tabStop
  let column ← Counter.add 1 width
  return { position with column }

/-- The position after one character. -/
def after (position : Position) (character : Char) : Except Fault Position :=
  if character = '\n' then position.newline
  else if character = '\t' then position.tab
  else position.advance

/-- The position after a run of characters. -/
def afterAll (position : Position) : List Char → Except Fault Position
  | [] => .ok position
  | character :: rest => do (← position.after character).afterAll rest

/-- The text of a position: line, colon, column. -/
def render (position : Position) : String :=
  toString position.line ++ ":" ++ toString position.column

end Position

/-! ### Located values -/

/-- A value with the position it comes from. -/
structure Located (α : Type) where
  position : Position
  value : α
deriving DecidableEq, Repr

end PadLang
