/-
This file shows that code does not depend on the numbers of scopes.

The types that the expressions of a program bear follow from its syntax and from what is visible
around them, so they can be forgotten and written again. And the code that contexts give looks at
the variables of the scopes around a place and not at their numbers. So the code of a program in
which every name denotes something that fits follows from the program without its types and scopes.
-/

import PadLang.Proofs.Code.Lexical
import PadLang.Proofs.Typing.Deciding
import PadLang.Proofs.Typing.Erasure

namespace PadLang

variable {functions : Functions} {context other outer otherOuter : Context}
  {layer otherLayer : Layer} {type : Ty}

/-! ### Types that follow from the syntax -/

/-- The note of an expression that a type was found for, after the conversion it asks for. -/
def Note.annotate (found : Option Ty) (note : Note) : Note :=
  { note with type := found.bind fun type => (Typing.converted note type).toOption }

mutual

/-- An expression with the types that follow from its syntax. -/
def Expr.annotate (functions : Functions) (visible : Visible) : Expr → Expr
  | .literal note value => .literal (note.annotate (some (.base value.base))) value
  | .array note items =>
    let items := annotateItems functions visible items
    .array (note.annotate ((items.head?.bind Expr.type?).map (.array items.length))) items
  | .side note which => .side (note.annotate (some .int)) which
  | .read note x y =>
    .read (note.annotate (some .colour)) (x.annotate functions visible)
      (y.annotate functions visible)
  | .randomInt note limit =>
    .randomInt (note.annotate (some .int)) (limit.annotate functions visible)
  | .var note name => .var (note.annotate (visible.find? name)) name
  | .index note name offset =>
    .index (note.annotate ((visible.find? name.value).bind Ty.element?)) name
      (offset.annotate functions visible)
  | .call note function items =>
    .call (note.annotate ((functions function.value).map Signature.returns)) function
      (annotateItems functions visible items)
  | .group note inner =>
    let inner := inner.annotate functions visible
    .group (note.annotate inner.type?) inner
  | .binary note left operator right =>
    let left := left.annotate functions visible
    .binary (note.annotate (left.type?.map (Typing.operationType operator))) left operator
      (right.annotate functions visible)
  | .unary note operator operand =>
    let operand := operand.annotate functions visible
    .unary (note.annotate operand.type?) operator operand

/-- Expressions with the types that follow from their syntax. -/
def annotateItems (functions : Functions) (visible : Visible) : List Expr → List Expr
  | [] => []
  | first :: rest => first.annotate functions visible :: annotateItems functions visible rest

end

theorem Noted.annotate_eq {note : Note} {found : Ty} (noted : Noted note found type) :
    note.erase.annotate (some found) = note := by
  have converted : Typing.converted note.erase found = .ok type := noted.converted
  rw [Note.annotate, Option.bind_some, converted]
  exact congrArg (Note.mk note.position note.cast) noted.noted.symm

theorem annotateItems_eq {visible : Visible} {items : List Expr}
    (each : ∀ item ∈ items, item.erase.annotate functions visible = item) :
    annotateItems functions visible (eraseItems items) = items := by
  induction items with
  | nil => rfl
  | cons first rest inductionHypothesis =>
    rw [List.forall_mem_cons] at each
    rw [eraseItems, annotateItems, each.1, inductionHypothesis each.2]

/-- The types that a typed expression bears follow from the expression without them. -/
theorem HasType.annotate_eq {expr : Expr} (typed : HasType functions context expr type) :
    expr.erase.annotate functions (context.map Layer.vars) = expr := by
  induction typed with
  | literal noted => rw [Expr.erase, Expr.annotate, noted.annotate_eq]
  | @array _ items _ _ nonempty _ typedItems noted each =>
    obtain ⟨first, rest, rfl⟩ := List.exists_cons_of_ne_nil nonempty
    have typedFirst := (typedItems first List.mem_cons_self).type?_eq
    rw [Expr.erase, Expr.annotate, annotateItems_eq each, List.head?_cons, Option.bind_some,
      typedFirst, Option.map_some, noted.annotate_eq]
  | side noted => rw [Expr.erase, Expr.annotate, noted.annotate_eq]
  | read _ _ noted first second =>
    rw [Expr.erase, Expr.annotate, noted.annotate_eq, first, second]
  | randomInt _ noted inside => rw [Expr.erase, Expr.annotate, noted.annotate_eq, inside]
  | var denotes noted =>
    rw [Expr.erase, Expr.annotate, Context.find?_vars, denotes, Option.map_some, noted.annotate_eq]
  | index denotes isArray _ noted inside =>
    rw [Expr.erase, Expr.annotate, Context.find?_vars, denotes, Option.map_some, Option.bind_some,
      isArray, noted.annotate_eq, inside]
  | call names arity _ noted each =>
    rw [Expr.erase, Expr.annotate, names, Option.map_some, noted.annotate_eq,
      annotateItems_eq (forall_mem_of_zip arity each)]
  | group inner noted inside =>
    rw [Expr.erase, Expr.annotate, inside, inner.type?_eq, noted.annotate_eq]
  | binary _ left _ noted first second =>
    rw [Expr.erase, Expr.annotate, first, left.type?_eq, Option.map_some, noted.annotate_eq, second]
  | unary _ operand noted inside =>
    rw [Expr.erase, Expr.annotate, inside, operand.type?_eq, noted.annotate_eq]

/-! ### Statements with the types that follow from their syntax -/

def Declaration.annotate (functions : Functions) (visible : Visible) (made : Declaration) :
    Declaration :=
  { made with value := made.value.annotate functions visible }

def Assignment.annotate (functions : Functions) (visible : Visible) (made : Assignment) :
    Assignment :=
  { made with
    index := made.index.map (Expr.annotate functions visible)
    value := made.value.annotate functions visible }

def Action.annotate (functions : Functions) (visible : Visible) (done : Action) : Action :=
  let typed := Expr.annotate functions visible
  match done with
  | .print value => .print (typed value)
  | .delay milliseconds => .delay (typed milliseconds)
  | .write x y colour => .write (typed x) (typed y) (typed colour)
  | .writeBox x y width height colour =>
    .writeBox (typed x) (typed y) (typed width) (typed height) (typed colour)
  | .clear colour => .clear (typed colour)

mutual

/-- A statement with the types that follow from its syntax. -/
def Stmt.annotate (functions : Functions) (visible : Visible) : Stmt → Stmt
  | .assignment span made => .assignment span (made.annotate functions visible)
  | .declaration span made => .declaration span (made.annotate functions visible)
  | .action span done => .action span (done.annotate functions visible)
  | .returnValue span value => .returnValue span (value.annotate functions visible)
  | .block span body => .block span (body.annotate functions visible)
  | .function span header body =>
    .function span header (body.annotate functions [parameterVars header.parameters])
  | .conditional span condition first none =>
    .conditional span (condition.annotate functions visible) (first.annotate functions visible) none
  | .conditional span condition first (some second) =>
    .conditional span (condition.annotate functions visible) (first.annotate functions visible)
      (some (second.annotate functions visible))
  | .forLoop span init condition update (.mk position scope body) =>
    let started := initVars init :: visible
    .forLoop span (init.map (Declaration.annotate functions ([] :: visible)))
      (condition.annotate functions started) (update.map (Assignment.annotate functions started))
      (.mk position scope (annotateAll functions started body))
  | .whileLoop span condition body =>
    .whileLoop span (condition.annotate functions visible) (body.annotate functions visible)

/-- A block with the types that follow from its syntax. -/
def Block.annotate (functions : Functions) (visible : Visible) : Block → Block
  | .mk position scope body => .mk position scope (annotateAll functions ([] :: visible) body)

/-- Statements with the types that follow from their syntax. -/
def annotateAll (functions : Functions) (visible : Visible) : List Stmt → List Stmt
  | [] => []
  | first :: rest =>
    first.annotate functions visible ::
      annotateAll functions (visible.declare first.declares) rest

end

theorem Declaration.Scoped.annotate_eq {made : Declaration}
    (inScope : made.Scoped functions context) :
    made.erase.annotate functions (context.map Layer.vars) = made := by
  rw [Declaration.erase, Declaration.annotate, HasType.annotate_eq inScope]

theorem Assignment.Scoped.annotate_eq {made : Assignment}
    (inScope : made.Scoped functions context) :
    made.erase.annotate functions (context.map Layer.vars) = made := by
  obtain ⟨target, index, value⟩ := made
  obtain ⟨found, _, typed⟩ := inScope
  cases index with
  | none =>
    rw [Assignment.erase, Assignment.annotate, typed.annotate_eq]
    rfl
  | some index =>
    obtain ⟨element, _, typedIndex, typedValue⟩ := typed
    rw [Assignment.erase, Assignment.annotate, typedValue.annotate_eq, Option.map_some,
      Option.map_some, typedIndex.annotate_eq]

theorem Action.Scoped.annotate_eq {done : Action} (inScope : done.Scoped functions context) :
    done.erase.annotate functions (context.map Layer.vars) = done := by
  cases done with
  | print value =>
    obtain ⟨type, typed⟩ := inScope
    rw [Action.erase, Action.annotate, typed.annotate_eq]
  | delay value | clear value =>
    rw [Action.erase, Action.annotate, HasType.annotate_eq inScope]
  | write x y colour =>
    obtain ⟨first, second, third⟩ := inScope
    rw [Action.erase, Action.annotate, first.annotate_eq, second.annotate_eq, third.annotate_eq]
  | writeBox x y width height colour =>
    obtain ⟨first, second, third, fourth, fifth⟩ := inScope
    rw [Action.erase, Action.annotate, first.annotate_eq, second.annotate_eq, third.annotate_eq,
      fourth.annotate_eq, fifth.annotate_eq]

theorem declares_annotate (visible : Visible) (statement : Stmt) :
    (statement.annotate functions visible).declares = statement.declares := by
  fun_cases Stmt.annotate functions visible statement <;> rfl

theorem declaredBy_annotateAll (visible : Visible) (statements : List Stmt) :
    declaredBy (annotateAll functions visible statements) = declaredBy statements := by
  induction statements generalizing visible with
  | nil => rfl
  | cons first rest inductionHypothesis =>
    rw [annotateAll, declaredBy_cons, declaredBy_cons, declares_annotate, inductionHypothesis]

theorem map_annotate_eq {α : Type} {erase annotate : α → α} {piece : Option α}
    (each : ∀ one ∈ piece, annotate (erase one) = one) :
    (piece.map erase).map annotate = piece := by
  cases piece with
  | none => rfl
  | some one => rw [Option.map_some, Option.map_some, each one rfl]

/-! ### Code that follows from the variables -/

/-- The place of a variable depends on the variables of the scopes around it alone. -/
theorem Context.placeFrom?_congr (sameVars : context.map Layer.vars = other.map Layer.vars)
    (name : String) (level : Nat) :
    placeFrom? name level context = placeFrom? name level other := by
  induction context generalizing other level with
  | nil =>
    cases other with
    | nil => rfl
    | cons layer outer => cases sameVars
  | cons layer outer inductionHypothesis =>
    cases other with
    | nil => cases sameVars
    | cons otherLayer otherOuter =>
      obtain ⟨sameLayer, sameOuter⟩ := List.cons.inj sameVars
      rw [placeFrom?, placeFrom?, sameLayer, inductionHypothesis sameOuter]

namespace Lexical

theorem atPlace_congr (sameVars : context.map Layer.vars = other.map Layer.vars) (name : String)
    (code : ScopeTree.Resolved → Code) :
    atPlace context name code = atPlace other name code := by
  rw [atPlace, atPlace, Context.place?, Context.place?, Context.placeFrom?_congr sameVars]

mutual

theorem expression_congr (sameVars : context.map Layer.vars = other.map Layer.vars) (expr : Expr) :
    expression functions context expr = expression functions other expr := by
  match expr with
  | .literal _ _ | .side _ .width | .side _ .height => rfl
  | .array _ items => exact backwards_congr sameVars items
  | .read _ x y =>
    rw [expression, expression, expression_congr sameVars x, expression_congr sameVars y]
  | .randomInt _ limit => rw [expression, expression, expression_congr sameVars limit]
  | .var _ name => exact atPlace_congr sameVars name _
  | .index _ name offset =>
    rw [expression, expression, expression_congr sameVars offset, atPlace_congr sameVars]
  | .call _ function items => rw [expression, expression, backwards_congr sameVars items]
  | .group _ inner => exact expression_congr sameVars inner
  | .binary _ left operator right =>
    rw [expression, expression, expression_congr sameVars left, expression_congr sameVars right]
  | .unary _ .not operand | .unary _ .negate operand =>
    rw [expression, expression, expression_congr sameVars operand]

theorem backwards_congr (sameVars : context.map Layer.vars = other.map Layer.vars)
    (items : List Expr) :
    backwards functions context items = backwards functions other items := by
  match items with
  | [] => rfl
  | first :: rest =>
    rw [backwards, backwards, backwards_congr sameVars rest, expression_congr sameVars first]

end

section Congr

variable (sameVars : context.map Layer.vars = other.map Layer.vars)

include sameVars

theorem assignment_congr (made : Assignment) :
    assignment functions context made = assignment functions other made := by
  obtain ⟨target, index, value⟩ := made
  cases index with
  | none =>
    rw [assignment, assignment, atPlace_congr sameVars, expression_congr sameVars value]
  | some index =>
    rw [assignment, assignment, atPlace_congr sameVars]
    simp only [expression_congr sameVars]

theorem action_congr (done : Action) :
    action functions context done = action functions other done := by
  cases done <;> simp only [action, expression_congr sameVars, backwards_congr sameVars]

theorem returnValue_congr (value : Expr) :
    returnValue functions context value = returnValue functions other value := by
  have length : context.length = other.length := by
    simpa using congrArg List.length sameVars
  rw [returnValue, returnValue, expression_congr sameVars, length]

theorem loopUpdate_congr (update : Option Assignment) :
    loopUpdate functions context update = loopUpdate functions other update := by
  cases update with
  | none => rfl
  | some made => exact assignment_congr sameVars made

end Congr

variable (sameVars : (layer :: outer).map Layer.vars = (otherLayer :: otherOuter).map Layer.vars)

include sameVars

theorem declaration_congr (made : Declaration) :
    declaration functions layer outer made = declaration functions otherLayer otherOuter made := by
  rw [declaration, declaration, expression_congr sameVars, (List.cons.inj sameVars).1]

theorem loopInit_congr (init : Option Declaration) :
    loopInit functions layer outer init = loopInit functions otherLayer otherOuter init := by
  cases init with
  | none => rfl
  | some made => exact declaration_congr sameVars made

end Lexical

/-! ### Statements that differ in the numbers of their scopes -/

namespace Lexical

variable {before after : List Stmt}

theorem vars_cons_congr (sameVars : context.map Layer.vars = other.map Layer.vars)
    (scope otherScope : ScopeId) (vars : Vars) :
    (({ scope, vars } : Layer) :: context).map Layer.vars =
      (({ scope := otherScope, vars } : Layer) :: other).map Layer.vars := by
  rw [List.map_cons, sameVars]
  rfl

theorem vars_declare_congr
    (sameVars : (layer :: outer).map Layer.vars = (otherLayer :: otherOuter).map Layer.vars)
    (added : Vars) :
    (({ layer with vars := layer.vars ++ added } : Layer) :: outer).map Layer.vars =
      (({ otherLayer with vars := otherLayer.vars ++ added } : Layer) :: otherOuter).map
        Layer.vars := by
  obtain ⟨sameLayer, sameOuter⟩ := List.cons.inj sameVars
  rw [List.map_cons, List.map_cons, sameLayer, sameOuter]

mutual

/-- The code of a well-scoped statement follows from the statement without its types and scopes. -/
theorem statement_annotate {returns : Option Ty} {layer otherLayer : Layer}
    {outer otherOuter : Context}
    (sameVars : (layer :: outer).map Layer.vars = (otherLayer :: otherOuter).map Layer.vars)
    {written : Stmt} (inScope : written.Scoped functions returns (layer :: outer)) :
    statement functions otherLayer otherOuter
        (written.erase.annotate functions ((layer :: outer).map Layer.vars)) =
      statement functions layer outer written := by
  match written with
  | .declaration _ made =>
    rw [Stmt.erase, Stmt.annotate, Declaration.Scoped.annotate_eq inScope]
    exact (declaration_congr sameVars made).symm
  | .assignment _ made =>
    rw [Stmt.erase, Stmt.annotate, Assignment.Scoped.annotate_eq inScope]
    exact (assignment_congr sameVars made).symm
  | .action _ done =>
    rw [Stmt.erase, Stmt.annotate, Action.Scoped.annotate_eq inScope]
    exact (action_congr sameVars done).symm
  | .returnValue _ value =>
    obtain ⟨type, _, typed⟩ := inScope
    rw [Stmt.erase, Stmt.annotate, typed.annotate_eq]
    exact (returnValue_congr sameVars value).symm
  | .block _ body => exact block_annotate sameVars inScope
  | .function _ header body =>
    obtain ⟨opened, isOpened, inside⟩ := inScope
    have sameBody := block_annotate (vars_cons_congr rfl opened ScopeTree.global _) inside
    rw [Stmt.erase, Stmt.annotate, statement, statement, isOpened]
    exact congrArg (Instruction.label header.name.value :: ·) sameBody
  | .conditional _ condition first none =>
    rw [Stmt.erase, Stmt.annotate, statement, statement, inScope.1.annotate_eq,
      expression_congr sameVars, block_annotate sameVars inScope.2]
  | .conditional _ condition first (some second) =>
    rw [Stmt.erase, Stmt.annotate, statement, statement, inScope.1.annotate_eq,
      expression_congr sameVars, block_annotate sameVars inScope.2.1,
      block_annotate sameVars inScope.2.2]
  | .whileLoop _ condition body =>
    rw [Stmt.erase, Stmt.annotate, statement, statement, inScope.1.annotate_eq,
      expression_congr sameVars, block_annotate sameVars inScope.2]
  | .forLoop _ init condition update (.mk _ _ body) =>
    obtain ⟨opened, rfl, typedInit, typedCondition, typedUpdate, inside⟩ := inScope
    have inner (vars : Vars) := vars_cons_congr sameVars opened ScopeTree.global vars
    have sameInit := map_annotate_eq fun made isInit => (typedInit made isInit).annotate_eq
    have sameUpdate := map_annotate_eq fun made isUpdate => (typedUpdate made isUpdate).annotate_eq
    have sameTest := typedCondition.annotate_eq
    have sameBody := statements_annotate (inner (initVars init)) inside
    rw [List.map_cons] at sameInit sameTest sameUpdate sameBody
    simp only [Stmt.erase, Block.erase, Stmt.annotate, statement, initVars_erase, sameInit,
      sameTest, sameUpdate, declaredBy_annotateAll, declaredBy_eraseAll, Option.getD_none,
      Option.getD_some]
    rw [sameBody, loopInit_congr (inner []), expression_congr (inner (initVars init)),
      loopUpdate_congr (inner (initVars init ++ declaredBy body))]

theorem block_annotate {returns : Option Ty} {context other : Context}
    (sameVars : context.map Layer.vars = other.map Layer.vars) {written : Block}
    (inScope : written.Scoped functions returns context) :
    block functions other (written.erase.annotate functions (context.map Layer.vars)) =
      block functions context written := by
  match written with
  | .mk _ _ body =>
    obtain ⟨opened, rfl, inside⟩ := inScope
    have inner := vars_cons_congr sameVars opened ScopeTree.global []
    have sameBody := statements_annotate inner inside
    rw [Block.erase, Block.annotate, block, block, declaredBy_annotateAll, declaredBy_eraseAll]
    exact congrArg (_ ++ · ++ _) sameBody

theorem statements_annotate {returns : Option Ty} {layer otherLayer : Layer}
    {outer otherOuter : Context}
    (sameVars : (layer :: outer).map Layer.vars = (otherLayer :: otherOuter).map Layer.vars)
    {written : List Stmt} (inScope : allScoped functions returns (layer :: outer) written) :
    statements functions otherLayer otherOuter
        (annotateAll functions ((layer :: outer).map Layer.vars) (eraseAll written)) =
      statements functions layer outer written := by
  match written with
  | [] => rfl
  | first :: rest =>
    rw [eraseAll, annotateAll, statements, statements, statement_annotate sameVars inScope.1,
      declares_annotate, Stmt.declares_erase, ← Context.vars_declare]
    exact congrArg _
      (statements_annotate (vars_declare_congr sameVars first.declares) inScope.2)

end

section Erased

variable {returns : Option Ty}

/-- Well-scoped statements that are the same up to types and scopes have the same code. -/
theorem statement_eq_of_erase {before after : Stmt}
    (inScope : before.Scoped functions returns (layer :: outer))
    (inScopeAfter : after.Scoped functions returns (layer :: outer))
    (erased : before.erase = after.erase) :
    statement functions layer outer before = statement functions layer outer after := by
  rw [← statement_annotate rfl inScope, erased, statement_annotate rfl inScopeAfter]

theorem statements_eq_of_erase (inScope : allScoped functions returns (layer :: outer) before)
    (inScopeAfter : allScoped functions returns (layer :: outer) after)
    (erased : eraseAll before = eraseAll after) :
    statements functions layer outer before = statements functions layer outer after := by
  rw [← statements_annotate rfl inScope, erased, statements_annotate rfl inScopeAfter]

end Erased

theorem filter_eq_of_eraseAll (erased : eraseAll before = eraseAll after) {selected : Stmt → Bool}
    (stable : ∀ statement : Stmt, selected statement.erase = selected statement) :
    eraseAll (before.filter selected) = eraseAll (after.filter selected) := by
  rw [eraseAll_filter stable, eraseAll_filter stable, erased]

/-- Well-scoped programs that are the same up to types and scopes have the same code. -/
theorem program_eq_of_erase
    (inScope : allScoped functions none [{ scope := ScopeTree.global, vars := [] }] before)
    (inScopeAfter : allScoped functions none [{ scope := ScopeTree.global, vars := [] }] after)
    (erased : eraseAll before = eraseAll after) :
    program functions before = program functions after := by
  have declared : declaredBy before = declaredBy after := by
    rw [← declaredBy_eraseAll, erased, declaredBy_eraseAll]
  rw [program, program, declared,
    statements_eq_of_erase inScope.filter_isFunction inScopeAfter.filter_isFunction
      (filter_eq_of_eraseAll erased Stmt.isFunction_erase),
    statements_eq_of_erase inScope.filter_not_isFunction inScopeAfter.filter_not_isFunction
      (filter_eq_of_eraseAll erased fun statement =>
        congrArg (!·) statement.isFunction_erase)]

end Lexical

end PadLang
