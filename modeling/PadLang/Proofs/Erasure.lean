/-
This file forgets what analysis adds to a program.

Analysis writes a type on every expression and a scope on every block. Without these an
analysed program is the program that was read, up to the statements that were removed, so
whatever does not depend on them can be carried over from one to the other.
-/

import PadLang.Proofs.Layout

namespace PadLang

/-- What forgetting does not change is the same for pieces that are the same without what is
forgotten. -/
theorem eq_of_erase {α β : Type} {erase : α → α} {look : α → β}
    (kept : ∀ piece, look (erase piece) = look piece) {before after : α}
    (erased : erase after = erase before) : look after = look before := by
  rw [← kept after, erased, kept]

/-! ### Expressions -/

/-- A note without the type that analysis found. -/
def Note.erase (note : Note) : Note := { note with type := none }

mutual

/-- An expression without the types that analysis found. -/
def Expr.erase : Expr → Expr
  | .literal note value => .literal note.erase value
  | .array note items => .array note.erase (eraseItems items)
  | .side note which => .side note.erase which
  | .read note x y => .read note.erase x.erase y.erase
  | .randomInt note limit => .randomInt note.erase limit.erase
  | .var note name => .var note.erase name
  | .index note name offset => .index note.erase name offset.erase
  | .call note function items => .call note.erase function (eraseItems items)
  | .group note inner => .group note.erase inner.erase
  | .binary note left operator right => .binary note.erase left.erase operator right.erase
  | .unary note operator operand => .unary note.erase operator operand.erase

/-- Expressions without the types that analysis found. -/
def eraseItems : List Expr → List Expr
  | [] => []
  | first :: rest => first.erase :: eraseItems rest

end

@[simp] theorem Expr.erase_withType (expr : Expr) (type : Ty) :
    (expr.withType type).erase = expr.erase := by
  cases expr <;> rfl

theorem eraseItems_eq_map (items : List Expr) : eraseItems items = items.map Expr.erase := by
  induction items with
  | nil => rfl
  | cons first rest inductionHypothesis => rw [eraseItems, List.map_cons, inductionHypothesis]

theorem length_eraseItems (items : List Expr) : (eraseItems items).length = items.length := by
  rw [eraseItems_eq_map, List.length_map]

/-! ### Statements -/

def Declaration.erase (made : Declaration) : Declaration := { made with value := made.value.erase }

def Assignment.erase (made : Assignment) : Assignment :=
  { made with index := made.index.map Expr.erase, value := made.value.erase }

def Action.erase : Action → Action
  | .print value => .print value.erase
  | .delay milliseconds => .delay milliseconds.erase
  | .write x y colour => .write x.erase y.erase colour.erase
  | .writeBox x y width height colour =>
    .writeBox x.erase y.erase width.erase height.erase colour.erase
  | .clear colour => .clear colour.erase

mutual

/-- A statement without the types and scopes that analysis found. -/
def Stmt.erase : Stmt → Stmt
  | .assignment span made => .assignment span made.erase
  | .declaration span made => .declaration span made.erase
  | .action span done => .action span done.erase
  | .returnValue span value => .returnValue span value.erase
  | .block span body => .block span body.erase
  | .function span header body => .function span { header with scope := none } body.erase
  | .conditional span condition first none => .conditional span condition.erase first.erase none
  | .conditional span condition first (some second) =>
    .conditional span condition.erase first.erase (some second.erase)
  | .forLoop span init condition update body =>
    .forLoop span (init.map Declaration.erase) condition.erase (update.map Assignment.erase)
      body.erase
  | .whileLoop span condition body => .whileLoop span condition.erase body.erase

/-- A block without the types and scopes that analysis found. -/
def Block.erase : Block → Block
  | .mk position _ body => .mk position none (eraseAll body)

/-- Statements without the types and scopes that analysis found. -/
def eraseAll : List Stmt → List Stmt
  | [] => []
  | first :: rest => first.erase :: eraseAll rest

end

/-! ### What is not erased -/

@[simp] theorem initVars_erase (init : Option Declaration) :
    initVars (init.map Declaration.erase) = initVars init := by
  cases init <;> rfl

@[simp] theorem Stmt.declares_erase (statement : Stmt) :
    statement.erase.declares = statement.declares := by
  fun_cases Stmt.erase statement <;> rfl

@[simp] theorem declaredBy_eraseAll (statements : List Stmt) :
    declaredBy (eraseAll statements) = declaredBy statements := by
  induction statements with
  | nil => rfl
  | cons first rest inductionHypothesis =>
    rw [eraseAll, declaredBy_cons, declaredBy_cons, Stmt.declares_erase, inductionHypothesis]

theorem eraseAll_eq_map (statements : List Stmt) :
    eraseAll statements = statements.map Stmt.erase := by
  induction statements with
  | nil => rfl
  | cons first rest inductionHypothesis => rw [eraseAll, List.map_cons, inductionHypothesis]

/-- Only a function is erased to a function, and it differs in its scope and body at most. -/
theorem Stmt.eq_function_of_erase {statement : Stmt} {span : Span} {header : Header} {body : Block}
    (same : statement.erase = (Stmt.function span header body).erase) :
    ∃ opened inner, statement = .function span { header with scope := opened } inner := by
  fun_cases Stmt.erase statement
  case case6 first other inner =>
    rw [Stmt.erase, Stmt.erase, Stmt.function.injEq, Header.mk.injEq] at same
    obtain ⟨rfl, ⟨sameName, sameParameters, sameReturns, _⟩, _⟩ := same
    refine ⟨other.scope, inner, ?_⟩
    rw [← sameName, ← sameParameters, ← sameReturns]
  all_goals simp [Stmt.erase] at same

end PadLang
