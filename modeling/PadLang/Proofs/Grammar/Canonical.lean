/-
This file says which syntax trees the grammar can write.

In a canonical program every operand stands at the level of its operator or at a tighter one.
Operators associate to the left, except that equality associates to the right. A conversion is
asked for only by an expression that stands on its own, and not by an operand. The operands of a
builtin in an expression are not in parentheses: the last one goes on as far as it can, so nothing
may follow it that it would take for its own. Names are not reserved, arrays have scalars for
elements and a size that can be written, and nothing bears a type or a scope, since only analysis
gives them.

What a tree says apart from where its parts stand is the tree without its positions.
-/

import PadLang.Proofs.Grammar.Terminals

namespace PadLang

/-! ### Levels -/

/-- The level of an operator between two operands, the loosest being zero. -/
def BinaryOperator.level : BinaryOperator → Nat
  | .or => 0
  | .and => 1
  | .equal | .notEqual => 2
  | .less | .lessOrEqual | .greater | .greaterOrEqual => 3
  | .add | .subtract => 4
  | .multiply | .divide => 5

/-- The level of an operator in front of its operand. -/
def unaryLevel : Nat := 6

/-- Whether an operator associates to the right. -/
def BinaryOperator.nestsRight : BinaryOperator → Bool
  | .equal | .notEqual => true
  | .or | .and | .less | .lessOrEqual | .greater | .greaterOrEqual | .add | .subtract | .multiply
  | .divide => false

/-- The loosest level of the left operand of an operator. -/
def BinaryOperator.leftLevel (operator : BinaryOperator) : Nat :=
  if operator.nestsRight then operator.level + 1 else operator.level

/-- The loosest level of the right operand of an operator. -/
def BinaryOperator.rightLevel (operator : BinaryOperator) : Nat :=
  if operator.nestsRight then operator.level else operator.level + 1

namespace Expr

/-- The level of an expression. -/
def level : Expr → Nat
  | .binary _ _ operator _ => operator.level
  | .unary _ _ _ => unaryLevel
  | .literal _ _ | .array _ _ | .side _ _ | .read _ _ _ | .randomInt _ _ | .var _ _ | .index _ _ _
  | .call _ _ _ | .group _ _ => unaryLevel + 1

/-- Whether an expression ends in the operand of a builtin that would take an operator or a
conversion behind it for its own. -/
def absorbs : Expr → Bool
  | .randomInt _ limit => limit.note.cast.isNone
  | .read _ _ y => y.note.cast.isNone
  | .binary _ _ _ right => right.absorbs
  | .unary _ _ operand => operand.absorbs
  | .literal _ _ | .array _ _ | .side _ _ | .var _ _ | .index _ _ _ | .call _ _ _
  | .group _ _ => false

end Expr

/-! ### Canonical programs -/

/-- A name that is not a reserved word. -/
def isName (text : String) : Bool := (TokenKind.reserved.lookup text).isNone

/-- A type that the grammar can write. -/
def Ty.isCanonical : Ty → Bool
  | .base _ => true
  | .array size (.base _) => 0 < size && size < Counter.bound
  | .array _ (.array _ _) => false

/-- Whether an expression may stand on its own, as far as its note goes. -/
def Expr.standsAlone (expr : Expr) : Bool :=
  expr.note.type.isNone &&
    match expr.note.cast with
    | none => true
    | some type => type.value.isCanonical && !expr.absorbs

/-- Whether an expression may be an operand at a level, as far as its note goes. -/
def Expr.standsAt (level : Nat) (expr : Expr) : Bool :=
  decide (level ≤ expr.level) && expr.note.cast.isNone && expr.note.type.isNone

theorem Expr.standsAt_iff {level : Nat} {expr : Expr} :
    expr.standsAt level = true ↔
      level ≤ expr.level ∧ expr.note.cast = none ∧ expr.note.type = none := by
  simp [standsAt, and_assoc]

mutual

/-- Whether an expression is canonical apart from its own note. -/
def Expr.isCanonical : Expr → Bool
  | .literal _ _ | .side _ _ => true
  | .array _ items => allCanonical items
  | .read _ x y => x.isCanonical && x.standsAlone && (y.isCanonical && y.standsAlone)
  | .randomInt _ limit => limit.isCanonical && limit.standsAlone
  | .var _ name => isName name
  | .index _ name offset => isName name.value && (offset.isCanonical && offset.standsAlone)
  | .call _ function items => isName function.value && allCanonical items
  | .group _ inner => inner.isCanonical && inner.standsAlone
  | .binary _ left operator right =>
    left.isCanonical && left.standsAt operator.leftLevel && !left.absorbs &&
      (right.isCanonical && right.standsAt operator.rightLevel)
  | .unary _ _ operand => operand.isCanonical && operand.standsAt unaryLevel

/-- Whether expressions are canonical and stand on their own. -/
def allCanonical : List Expr → Bool
  | [] => true
  | first :: rest => first.isCanonical && first.standsAlone && allCanonical rest

end

/-- Whether an expression is canonical and stands on its own. -/
def Expr.isWhole (expr : Expr) : Bool := expr.isCanonical && expr.standsAlone

/-- Whether a declaration is canonical. -/
def Declaration.isCanonical (made : Declaration) : Bool :=
  isName made.name.value && made.type.value.isCanonical && made.value.isWhole

/-- Whether an assignment is canonical. -/
def Assignment.isCanonical (made : Assignment) : Bool :=
  isName made.target.value && made.index.all Expr.isWhole && made.value.isWhole

/-- Whether an action is canonical. -/
def Action.isCanonical : Action → Bool
  | .print value => value.isWhole
  | .delay milliseconds => milliseconds.isWhole
  | .write x y colour => x.isWhole && y.isWhole && colour.isWhole
  | .writeBox x y width height colour =>
    x.isWhole && y.isWhole && width.isWhole && height.isWhole && colour.isWhole
  | .clear colour => colour.isWhole

/-- Whether a parameter is canonical. -/
def Parameter.isCanonical (parameter : Parameter) : Bool :=
  isName parameter.name.value && parameter.type.value.isCanonical

/-- Whether what a function declares ahead of its body is canonical. -/
def Header.isCanonical (header : Header) : Bool :=
  isName header.name.value && header.parameters.all Parameter.isCanonical &&
    header.returns.value.isCanonical && header.scope.isNone

mutual

/-- Whether a statement is canonical. -/
def Stmt.isCanonical : Stmt → Bool
  | .assignment _ made => made.isCanonical
  | .declaration _ made => made.isCanonical
  | .action _ done => done.isCanonical
  | .returnValue _ value => value.isWhole
  | .block _ body => body.isCanonical
  | .function _ header body => header.isCanonical && body.isCanonical
  | .conditional _ condition first none => condition.isWhole && first.isCanonical
  | .conditional _ condition first (some second) =>
    condition.isWhole && first.isCanonical && second.isCanonical
  | .forLoop _ init condition update body =>
    init.all Declaration.isCanonical && condition.isWhole && update.all Assignment.isCanonical &&
      body.isCanonical
  | .whileLoop _ condition body => condition.isWhole && body.isCanonical

/-- Whether a block is canonical. -/
def Block.isCanonical : Block → Bool
  | .mk _ scope body => scope.isNone && areCanonical body

/-- Whether statements are canonical. -/
def areCanonical : List Stmt → Bool
  | [] => true
  | first :: rest => first.isCanonical && areCanonical rest

end

/-! ### Trees without positions -/

/-- Something without its place. -/
def Located.unplaced {α : Type} (located : Located α) : Located α :=
  { located with position := {} }

/-- A note without positions. -/
def Note.unplaced (note : Note) : Note :=
  { note with position := {}, cast := note.cast.map Located.unplaced }

mutual

/-- An expression without positions. -/
def Expr.unplaced : Expr → Expr
  | .literal note value => .literal note.unplaced value
  | .array note items => .array note.unplaced (unplacedItems items)
  | .side note which => .side note.unplaced which
  | .read note x y => .read note.unplaced x.unplaced y.unplaced
  | .randomInt note limit => .randomInt note.unplaced limit.unplaced
  | .var note name => .var note.unplaced name
  | .index note name offset => .index note.unplaced name.unplaced offset.unplaced
  | .call note function items => .call note.unplaced function.unplaced (unplacedItems items)
  | .group note inner => .group note.unplaced inner.unplaced
  | .binary note left operator right => .binary note.unplaced left.unplaced operator right.unplaced
  | .unary note operator operand => .unary note.unplaced operator operand.unplaced

/-- Expressions without positions. -/
def unplacedItems : List Expr → List Expr
  | [] => []
  | first :: rest => first.unplaced :: unplacedItems rest

end

theorem unplacedItems_eq_map (items : List Expr) :
    unplacedItems items = items.map Expr.unplaced := by
  induction items with
  | nil => rfl
  | cons first rest inductionHypothesis => rw [unplacedItems, inductionHypothesis, List.map_cons]

/-- A declaration without positions. -/
def Declaration.unplaced (made : Declaration) : Declaration :=
  { name := made.name.unplaced, type := made.type.unplaced, value := made.value.unplaced }

/-- An assignment without positions. -/
def Assignment.unplaced (made : Assignment) : Assignment :=
  { target := made.target.unplaced, index := made.index.map Expr.unplaced
    value := made.value.unplaced }

/-- An action without positions. -/
def Action.unplaced : Action → Action
  | .print value => .print value.unplaced
  | .delay milliseconds => .delay milliseconds.unplaced
  | .write x y colour => .write x.unplaced y.unplaced colour.unplaced
  | .writeBox x y width height colour =>
    .writeBox x.unplaced y.unplaced width.unplaced height.unplaced colour.unplaced
  | .clear colour => .clear colour.unplaced

/-- A parameter without positions. -/
def Parameter.unplaced (parameter : Parameter) : Parameter :=
  { name := parameter.name.unplaced, type := parameter.type.unplaced }

/-- What a function declares ahead of its body, without positions. -/
def Header.unplaced (header : Header) : Header :=
  { name := header.name.unplaced, parameters := header.parameters.map Parameter.unplaced
    returns := header.returns.unplaced, scope := header.scope }

mutual

/-- A statement without positions. -/
def Stmt.unplaced : Stmt → Stmt
  | .assignment _ made => .assignment ⟨{}, {}⟩ made.unplaced
  | .declaration _ made => .declaration ⟨{}, {}⟩ made.unplaced
  | .action _ done => .action ⟨{}, {}⟩ done.unplaced
  | .returnValue _ value => .returnValue ⟨{}, {}⟩ value.unplaced
  | .block _ body => .block ⟨{}, {}⟩ body.unplaced
  | .function _ header body => .function ⟨{}, {}⟩ header.unplaced body.unplaced
  | .conditional _ condition first none =>
    .conditional ⟨{}, {}⟩ condition.unplaced first.unplaced none
  | .conditional _ condition first (some second) =>
    .conditional ⟨{}, {}⟩ condition.unplaced first.unplaced (some second.unplaced)
  | .forLoop _ init condition update body =>
    .forLoop ⟨{}, {}⟩ (init.map Declaration.unplaced) condition.unplaced
      (update.map Assignment.unplaced) body.unplaced
  | .whileLoop _ condition body => .whileLoop ⟨{}, {}⟩ condition.unplaced body.unplaced

/-- A block without positions. -/
def Block.unplaced : Block → Block
  | .mk _ scope body => .mk {} scope (unplacedAll body)

/-- Statements without positions. -/
def unplacedAll : List Stmt → List Stmt
  | [] => []
  | first :: rest => first.unplaced :: unplacedAll rest

end

/-- A program without positions. -/
def Program.unplaced (program : Program) : Program := ⟨unplacedAll program.statements⟩

end PadLang
