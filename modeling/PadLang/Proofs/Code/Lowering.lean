/-
This file gives the code of checked expressions by rules.

The checker writes types on an expression, and the generator reads some of them off again. The
rules put both together: an expression, the type that was found for it, and its code. They ask
for the places of variables and for the interfaces of functions, but not for the tree of scopes
that these were found in. Whatever holds of the code of every checked expression can be shown by
induction over the rules.
-/

import PadLang.Proofs.Code.Emission
import PadLang.Proofs.Typing.Expr
import PadLang.Proofs.Uses

namespace PadLang

variable {type : Ty} {expr : Expr} {items : List Expr}

/-! ### Nodes -/

mutual

/-- The expressions that an expression is made of, itself first. -/
def Expr.nodes : Expr → List Expr
  | .literal note value => [.literal note value]
  | .array note items => .array note items :: nodesOf items
  | .side note which => [.side note which]
  | .read note x y => .read note x y :: (x.nodes ++ y.nodes)
  | .randomInt note limit => .randomInt note limit :: limit.nodes
  | .var note name => [.var note name]
  | .index note name offset => .index note name offset :: offset.nodes
  | .call note function items => .call note function items :: nodesOf items
  | .group note inner => .group note inner :: inner.nodes
  | .binary note left operator right =>
    .binary note left operator right :: (left.nodes ++ right.nodes)
  | .unary note operator operand => .unary note operator operand :: operand.nodes

/-- The expressions that expressions are made of. -/
def nodesOf : List Expr → List Expr
  | [] => []
  | first :: rest => first.nodes ++ nodesOf rest

end

theorem nodesOf_eq_flatMap (items : List Expr) : nodesOf items = items.flatMap Expr.nodes := by
  induction items with
  | nil => rfl
  | cons first rest inductionHypothesis => rw [nodesOf, inductionHypothesis, List.flatMap_cons]

/-- What holds of all nodes of expressions holds of all nodes of each of them. -/
theorem forall_mem_nodesOf {good : Expr → Prop} :
    (∀ node ∈ nodesOf items, good node) ↔ ∀ item ∈ items, ∀ node ∈ item.nodes, good node := by
  rw [nodesOf_eq_flatMap]
  simp only [List.mem_flatMap, forall_exists_index, and_imp]
  exact ⟨fun all item isItem node isNode => all node item isItem isNode,
    fun all node item isItem isNode => all item isItem node isNode⟩

/-- The variable that a node itself names. -/
def Expr.name? : Expr → Option String
  | .var _ name => some name
  | .index _ name _ => some name.value
  | _ => none

mutual

theorem Expr.forall_name? {good : String → Prop} {expr : Expr}
    (all : ∀ name ∈ expr.names, good name) :
    ∀ node ∈ expr.nodes, ∀ name ∈ node.name?, good name := by
  match expr with
  | .literal _ _ | .side _ _ => simp [Expr.nodes, Expr.name?]
  | .array _ items | .call _ _ items =>
    simpa [Expr.nodes, Expr.name?] using forall_name?_of all
  | .read _ x y | .binary _ x _ y =>
    rw [Expr.names, List.forall_mem_append] at all
    rw [Expr.nodes, List.forall_mem_cons, List.forall_mem_append]
    exact ⟨by rintro _ ⟨⟩, Expr.forall_name? all.1, Expr.forall_name? all.2⟩
  | .randomInt _ inner | .group _ inner | .unary _ _ inner =>
    rw [Expr.nodes, List.forall_mem_cons]
    exact ⟨by rintro _ ⟨⟩, Expr.forall_name? all⟩
  | .var _ name => simpa [Expr.nodes, Expr.names, Expr.name?] using all
  | .index _ name offset =>
    rw [Expr.names, List.forall_mem_cons] at all
    rw [Expr.nodes, List.forall_mem_cons]
    exact ⟨by simpa [Expr.name?] using all.1, Expr.forall_name? all.2⟩

theorem forall_name?_of {good : String → Prop} {items : List Expr}
    (all : ∀ name ∈ namesOf items, good name) :
    ∀ node ∈ nodesOf items, ∀ name ∈ node.name?, good name := by
  match items with
  | [] => exact List.forall_mem_nil _
  | first :: rest =>
    rw [namesOf, List.forall_mem_append] at all
    rw [nodesOf, List.forall_mem_append]
    exact ⟨Expr.forall_name? all.1, forall_name?_of all.2⟩

end

/-! ### Rules -/

/-- An expression with its type and its code. -/
structure Lowered where
  expr : Expr
  type : Ty
  code : Code

/-- The code of expressions from the last to the first. -/
def stacked : List Lowered → Code
  | [] => []
  | first :: rest => stacked rest ++ first.code

/-- The opcode that asks for a side of the pad. -/
def Side.opcode : Side → Opcode
  | .width => .width
  | .height => .height

/-- The instructions that apply an operator to the operand on the stack. -/
def UnaryOperator.code : UnaryOperator → Code
  | .not => [.op .not]
  | .negate => [Code.pushInt 0, .op .sub]

/-- An expression bears its type at every node and has its code, where names are resolved to
these places and functions have these interfaces. -/
inductive Lowers (places : String → Option ScopeTree.Resolved) (functions : Functions) :
    Expr → Ty → Code → Prop where
  | literal {note value type} (noted : Noted note (.base value.base) type) :
      Lowers places functions (.literal note value) type [.push (Code.literalOperand value)]
  | array {note parts element type} (nonempty : parts ≠ []) (scalar : element.isArray = false)
      (each : ∀ part ∈ parts, Lowers places functions part.expr part.type part.code)
      (same : ∀ part ∈ parts, part.type = element)
      (noted : Noted note (.array parts.length element) type) :
      Lowers places functions (.array note (parts.map Lowered.expr)) type (stacked parts)
  | side {note which type} (noted : Noted note .int type) :
      Lowers places functions (.side note which) type [.op which.opcode]
  | read {note x y type codeX codeY} (first : Lowers places functions x .int codeX)
      (second : Lowers places functions y .int codeY) (noted : Noted note .colour type) :
      Lowers places functions (.read note x y) type (codeY ++ codeX ++ [.op .read])
  | randomInt {note limit type code} (inside : Lowers places functions limit .int code)
      (noted : Noted note .int type) :
      Lowers places functions (.randomInt note limit) type (code ++ [.op .irnd])
  | var {note name place type} (placed : places name = some place)
      (noted : Noted note place.type type) :
      Lowers places functions (.var note name) type (Lexical.readVariable place)
  | index {note name offset place element type code} (placed : places name.value = some place)
      (isArray : place.type.element? = some element)
      (inside : Lowers places functions offset .int code) (noted : Noted note element type) :
      Lowers places functions (.index note name offset) type (code ++ [.pushIndexed place.slot])
  | call {note function parts signature cells type}
      (names : functions function.value = some signature)
      (parameters : signature.parameters = parts.map Lowered.type)
      (counted : signature.argumentSlots? = .ok (some cells))
      (each : ∀ part ∈ parts, Lowers places functions part.expr part.type part.code)
      (noted : Noted note signature.returns type) :
      Lowers places functions (.call note function (parts.map Lowered.expr)) type
        (stacked parts ++ [Code.pushInt cells, .push (.label function.value), .op .call])
  | group {note inner found type code} (inside : Lowers places functions inner found code)
      (noted : Noted note found type) : Lowers places functions (.group note inner) type code
  | binary {note left operator right operand type codeLeft codeRight}
      (takes : Typing.takesOperand operator operand = true)
      (first : Lowers places functions left operand codeLeft)
      (second : Lowers places functions right operand codeRight)
      (noted : Noted note (Typing.operationType operator operand) type) :
      Lowers places functions (.binary note left operator right) type
        (Code.combine operator operand codeLeft codeRight)
  | unary {note operator operand found type code}
      (takes : Typing.takesUnaryOperand operator found = true)
      (inside : Lowers places functions operand found code) (noted : Noted note found type) :
      Lowers places functions (.unary note operator operand) type (code ++ operator.code)

theorem Lowers.type?_eq {places : String → Option ScopeTree.Resolved} {functions : Functions}
    {code : Code} (lowers : Lowers places functions expr type code) : expr.type? = some type := by
  cases lowers <;> exact Noted.noted (by assumption)

/-! ### Scalar operands -/

theorem Typing.isArray_eq_false_of_takesOperand {operator : BinaryOperator}
    (takes : takesOperand operator type = true) : type.isArray = false := by
  cases type with
  | base _ => rfl
  | array _ _ => cases operator <;> cases takes

theorem Typing.isArray_eq_false_of_takesUnaryOperand {operator : UnaryOperator}
    (takes : takesUnaryOperand operator type = true) : type.isArray = false := by
  cases type with
  | base _ => rfl
  | array _ _ => cases operator <;> cases takes

/-! ### The checker and the generator -/

/-- The generator finds the variables of an expression with the types that the checker gave them,
and functions under their names. -/
structure Code.Follows (emitting checking : ScopeTree) (scope : ScopeId) (names : List String) :
    Prop where
  types : ∀ name ∈ names, (emitting.resolve? scope name).map ScopeTree.Resolved.type =
    (checking.lookupVariable? scope name).map Variable.type
  labels : ∀ name, emitting.lookupFunction? name =
    (checking.lookupFunction? name).map fun signature => { signature with label := some name }

namespace Code

variable {tree : ScopeTree} {scope : ScopeId} {context : Context} {functions : Functions}
  {name : String}

/-- A variable that the generator resolved has the type that it has in the context. -/
theorem resolve_eq_ok {denoted : Denoted} {place : ScopeTree.Resolved}
    (types : (tree.resolve? scope name).map ScopeTree.Resolved.type =
      (context.find? name).map Denoted.type) (denotes : context.find? name = some denoted)
    (resolved : resolve tree scope name = .ok place) :
    tree.resolve? scope name = some place ∧ place.type = denoted.type := by
  rw [resolve] at resolved
  split at resolved
  · next isPlace =>
    cases resolved
    rw [isPlace, denotes] at types
    exact ⟨isPlace, Option.some.inj types⟩
  · cases resolved

theorem typeOf_eq_ok (found : typeOf expr = .ok type) : expr.type? = some type := by
  rw [typeOf] at found
  split at found
  · next isType =>
    cases found
    exact isType
  · cases found

/-- A call that was emitted passes on as many cells as the parameters have. -/
theorem call_eq_ok {signature : Signature} {jump : Code} (labelled : tree.lookupFunction? name =
      (functions name).map fun signature => { signature with label := some name })
    (named : functions name = some signature) (emitted : call tree name = .ok jump) :
    ∃ cells : Nat, signature.argumentSlots? = .ok (some cells) ∧
      jump = [pushInt cells, .push (.label name), .op .call] := by
  rw [call, labelled, named, Option.map_some] at emitted
  obtain ⟨counted, isCounted, emitted⟩ := bind_eq_ok_iff.mp emitted
  cases counted with
  | none => cases emitted
  | some cells =>
    cases emitted
    exact ⟨cells, isCounted, rfl⟩

/-- The code of expressions is made of the code of each of them. -/
theorem backwards_lowers {types : List Ty} {code : Code} (arity : types.length = items.length)
    (each : ∀ pair ∈ items.zip types, ∀ code, expression tree scope pair.1 = .ok code →
      Lowers (tree.resolve? scope) functions pair.1 pair.2 code)
    (emitted : backwards tree scope items = .ok code) :
    ∃ parts : List Lowered, items = parts.map Lowered.expr ∧ types = parts.map Lowered.type ∧
      code = stacked parts ∧
      ∀ part ∈ parts, Lowers (tree.resolve? scope) functions part.expr part.type part.code := by
  induction items generalizing types code with
  | nil =>
    cases List.length_eq_zero_iff.mp arity
    cases emitted
    exact ⟨[], rfl, rfl, rfl, List.forall_mem_nil _⟩
  | cons item rest inductionHypothesis =>
    obtain ⟨type, others, rfl⟩ := List.exists_cons_of_length_eq_add_one arity
    rw [List.zip_cons_cons, List.forall_mem_cons] at each
    obtain ⟨below, emittedBelow, emitted⟩ := bind_eq_ok_iff.mp emitted
    obtain ⟨top, emittedTop, emitted⟩ := bind_eq_ok_iff.mp emitted
    cases emitted
    obtain ⟨parts, rfl, rfl, rfl, lowers⟩ :=
      inductionHypothesis (Nat.succ.inj arity) each.2 emittedBelow
    exact ⟨⟨item, type, top⟩ :: parts, rfl, rfl, rfl,
      List.forall_mem_cons.mpr ⟨each.1 top emittedTop, lowers⟩⟩

/-- A typed expression whose code is generated has its code by the rules. -/
theorem lowers_of_hasType {code : Code} (labels : ∀ name, tree.lookupFunction? name =
      (functions name).map fun signature => { signature with label := some name })
    (typed : HasType functions context expr type)
    (types : ∀ name ∈ expr.names, (tree.resolve? scope name).map ScopeTree.Resolved.type =
      (context.find? name).map Denoted.type) (emitted : expression tree scope expr = .ok code) :
    Lowers (tree.resolve? scope) functions expr type code := by
  induction typed generalizing code with
  | literal noted =>
    cases emitted
    exact .literal noted
  | @array note items element type nonempty scalar _ noted each =>
    have arity : (List.replicate items.length element).length = items.length :=
      List.length_replicate
    obtain ⟨parts, rfl, same, rfl, lowers⟩ := backwards_lowers arity (fun pair isPair code => by
      obtain ⟨isItem, isElement⟩ := List.of_mem_zip isPair
      rw [List.eq_of_mem_replicate isElement]
      exact each pair.1 isItem fun name inside =>
        types name (mem_namesOf.mpr ⟨_, isItem, inside⟩)) emitted
    rw [List.length_map] at noted
    refine .array (fun none_left => nonempty (by rw [none_left]; rfl)) scalar lowers
      (fun part member => ?_) noted
    exact List.eq_of_mem_replicate (same ▸ List.mem_map_of_mem member)
  | @side note which type noted =>
    cases which <;> cases emitted <;> exact .side noted
  | read _ _ noted first second =>
    rw [Expr.names, List.forall_mem_append] at types
    obtain ⟨codeY, emittedY, emitted⟩ := bind_eq_ok_iff.mp emitted
    obtain ⟨codeX, emittedX, emitted⟩ := bind_eq_ok_iff.mp emitted
    cases emitted
    exact .read (first types.1 emittedX) (second types.2 emittedY) noted
  | randomInt _ noted inside =>
    obtain ⟨inner, emittedInner, emitted⟩ := bind_eq_ok_iff.mp emitted
    cases emitted
    exact .randomInt (inside types emittedInner) noted
  | var denotes noted =>
    obtain ⟨place, resolved, emitted⟩ := bind_eq_ok_iff.mp emitted
    obtain ⟨placed, same⟩ := resolve_eq_ok (types _ List.mem_cons_self) denotes resolved
    obtain ⟨rfl, _⟩ := Meets.good_of_ok (readVariable_emits place) emitted
    exact .var placed (same ▸ noted)
  | index denotes isArray _ noted inside =>
    rw [Expr.names, List.forall_mem_cons] at types
    obtain ⟨place, resolved, emitted⟩ := bind_eq_ok_iff.mp emitted
    obtain ⟨inner, emittedInner, emitted⟩ := bind_eq_ok_iff.mp emitted
    cases emitted
    obtain ⟨placed, same⟩ := resolve_eq_ok types.1 denotes resolved
    exact .index placed (same ▸ isArray) (inside types.2 emittedInner) noted
  | call names arity _ noted each =>
    obtain ⟨below, emittedItems, emitted⟩ := bind_eq_ok_iff.mp emitted
    obtain ⟨jump, emittedJump, emitted⟩ := bind_eq_ok_iff.mp emitted
    cases emitted
    obtain ⟨cells, counted, rfl⟩ := call_eq_ok (labels _) names emittedJump
    obtain ⟨parts, rfl, parameters, rfl, lowers⟩ := backwards_lowers arity (fun pair isPair code =>
      each pair isPair fun name inside =>
        types name (mem_namesOf.mpr ⟨_, (List.of_mem_zip isPair).1, inside⟩)) emittedItems
    exact .call names parameters counted lowers noted
  | group _ noted inside => exact .group (inside types emitted) noted
  | binary takes typedLeft _ noted first second =>
    rw [Expr.names, List.forall_mem_append] at types
    obtain ⟨operand, isOperand, emitted⟩ := bind_eq_ok_iff.mp emitted
    obtain ⟨codeRight, emittedRight, emitted⟩ := bind_eq_ok_iff.mp emitted
    obtain ⟨codeLeft, emittedLeft, emitted⟩ := bind_eq_ok_iff.mp emitted
    cases emitted
    cases typedLeft.type?_eq.symm.trans (typeOf_eq_ok isOperand)
    exact .binary takes (first types.1 emittedLeft) (second types.2 emittedRight) noted
  | @unary note operator operand found type takes _ noted inside =>
    cases operator with
    | not | negate =>
      obtain ⟨inner, emittedInner, emitted⟩ := bind_eq_ok_iff.mp emitted
      cases emitted
      exact .unary takes (inside types emittedInner) noted

/-- What the checker passes and the generator emits follows the rules. -/
theorem expression_lowers {emitting checking : ScopeTree} {typed : Expr} {code : Code}
    (follows : Follows emitting checking scope typed.names)
    (found : Typing.expression checking scope expr = .ok (typed, type))
    (emitted : expression emitting scope typed = .ok code) :
    Lowers (emitting.resolve? scope) checking.lookupFunction? typed type code := by
  obtain ⟨context, agrees⟩ := Typing.exists_agreesOn checking scope typed.names
  refine lowers_of_hasType follows.labels ((Typing.expression_passed found).typedOn agrees) ?_
    emitted
  exact fun name member => (follows.types name member).trans (agrees name member)

end Code

end PadLang
