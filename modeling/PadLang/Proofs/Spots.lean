/-
This file points at single statements of a program.

A spot is the way to a statement: its number in a sequence of statements, or the number of a
statement around it, the block of that statement to go into, and the way from there. The shell of
a statement is the statement without the statements in its blocks, so a program is known by the
shells at its spots.
-/

import PadLang.Syntax.Basic

namespace PadLang

/-! ### Spots -/

/-- The way to a statement from a sequence that it stands in or is nested in. -/
inductive Spot where
  | here (index : Nat)
  | within (index : Nat) (alternative : Bool) (inner : Spot)
deriving DecidableEq, Repr

/-- A block of a statement: the alternative of a conditional, or its only or first block. -/
def Stmt.block? : Stmt → (alternative : Bool) → Option Block
  | .block _ body, false => some body
  | .function _ _ body, false => some body
  | .conditional _ _ consequent _, false => some consequent
  | .conditional _ _ _ alternative, true => alternative
  | .forLoop _ _ _ _ body, false => some body
  | .whileLoop _ _ body, false => some body
  | _, _ => none

namespace Spot

/-- The statement at a spot. -/
def find? : Spot → List Stmt → Option Stmt
  | .here index, statements => statements[index]?
  | .within index alternative inner, statements =>
    (statements[index]?).bind fun statement =>
      (statement.block? alternative).bind fun block => inner.find? block.statements

/-- The same way, from a sequence with one more statement in front. -/
def next : Spot → Spot
  | .here index => .here (index + 1)
  | .within index alternative inner => .within (index + 1) alternative inner

theorem next_injective : Function.Injective next := by
  intro spot other same
  cases spot <;> cases other <;> cases same <;> rfl

theorem within_injective (index : Nat) (alternative : Bool) :
    Function.Injective (within index alternative) := by
  intro inner other same
  cases same
  rfl

@[simp] theorem find?_next (spot : Spot) (first : Stmt) (rest : List Stmt) :
    spot.next.find? (first :: rest) = spot.find? rest := by
  cases spot <;> rfl

/-- A spot is in the first statement or behind it. -/
theorem eq_first_or_next (spot : Spot) :
    spot = .here 0 ∨ (∃ alternative inner, spot = .within 0 alternative inner) ∨
      ∃ earlier : Spot, spot = earlier.next := by
  cases spot with
  | here index =>
    cases index with
    | zero => exact .inl rfl
    | succ index => exact .inr (.inr ⟨.here index, rfl⟩)
  | within index alternative inner =>
    cases index with
    | zero => exact .inr (.inl ⟨alternative, inner, rfl⟩)
    | succ index => exact .inr (.inr ⟨.within index alternative inner, rfl⟩)

end Spot

/-! ### Shells -/

/-- A block without its statements. -/
def Block.emptied : Block → Block
  | .mk position scope _ => .mk position scope []

/-- A statement without the statements in its blocks. -/
def Stmt.shell : Stmt → Stmt
  | .block span body => .block span body.emptied
  | .function span header body => .function span header body.emptied
  | .conditional span condition consequent alternative =>
    .conditional span condition consequent.emptied (alternative.map Block.emptied)
  | .forLoop span init condition update body => .forLoop span init condition update body.emptied
  | .whileLoop span condition body => .whileLoop span condition body.emptied
  | leaf => leaf

end PadLang
