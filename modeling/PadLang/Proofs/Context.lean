/-
This file describes what is visible at a place of a program without the tree of scopes.

A context lists the scopes around a place, from the innermost to the one where visibility
ends, each with the variables declared in it so far. A name denotes the first variable that
bears it. The storage of a variable follows from the context alone: its level is the position
of its scope, and its first cell comes after the cells of the variables declared before it
in the same scope.

The checker and the code generator both work on the tree of scopes, at different times and
on different contents. Each of them sees the same thing at the same place, because the tree
of each matches the context of that place.
-/

import PadLang.Typing.Stmt
import PadLang.Proofs.Scope.Symbols

namespace PadLang

variable {name : String} {vars : Vars} {expr : Expr} {type : Ty} {offset : Nat}

/-! ### Contexts -/

/-- A scope as seen from inside: the variables declared in it so far. -/
structure Layer where
  scope : ScopeId
  vars : Vars
deriving DecidableEq, Repr

/-- The scopes whose variables are visible, from the innermost outwards. -/
abbrev Context := List Layer

/-- The variable that a name denotes: the scope that declares it, and its type. -/
structure Denoted where
  scope : ScopeId
  type : Ty
deriving DecidableEq, Repr

/-- The first cell and the type of a variable, where the first variable is at a given cell. -/
def Vars.place? (name : String) : Nat → Vars → Option (Nat × Ty)
  | _, [] => none
  | offset, entry :: rest =>
    if name = entry.1 then some (offset, entry.2)
    else Vars.place? name (offset + entry.2.size) rest

namespace Context

/-- The context after declarations in the innermost scope. -/
def declare (vars : Vars) : Context → Context
  | [] => []
  | layer :: outer => { layer with vars := layer.vars ++ vars } :: outer

/-- The variable that a name denotes. -/
def find? (name : String) : Context → Option Denoted
  | [] => none
  | layer :: outer =>
    match layer.vars.lookup name with
    | some type => some { scope := layer.scope, type }
    | none => find? name outer

/-- The place of the variable that a name denotes, the innermost scope being at a given
level. -/
def placeFrom? (name : String) : Nat → Context → Option ScopeTree.Resolved
  | _, [] => none
  | level, layer :: outer =>
    match Vars.place? name 0 layer.vars with
    | some (index, type) => some { slot := { index, level }, type }
    | none => placeFrom? name (level + 1) outer

/-- The place of the variable that a name denotes. -/
def place? (context : Context) (name : String) : Option ScopeTree.Resolved :=
  placeFrom? name 0 context

@[simp] theorem declare_nil (context : Context) : context.declare [] = context := by
  cases context <;> simp [declare]

theorem declare_append (context : Context) (first second : Vars) :
    context.declare (first ++ second) = (context.declare first).declare second := by
  cases context <;> simp [declare]

@[simp] theorem scopes_declare (context : Context) (vars : Vars) :
    (context.declare vars).map Layer.scope = context.map Layer.scope := by
  cases context <;> rfl

end Context

namespace Vars

/-- A variable is found at its place with its type. -/
theorem lookup_eq_map_place? (name : String) (offset : Nat) (vars : Vars) :
    vars.lookup name = (vars.place? name offset).map Prod.snd := by
  induction vars generalizing offset with
  | nil => rfl
  | cons entry rest inductionHypothesis =>
    rw [place?, List.lookup_cons]
    by_cases same : name = entry.1
    · simp [same]
    · have differs : (name == entry.1) = false := by simpa using same
      rw [if_neg same, differs]
      exact inductionHypothesis _

theorem place?_eq_none_iff : vars.place? name offset = none ↔ vars.lookup name = none := by
  rw [lookup_eq_map_place? name offset, Option.map_eq_none_iff]

theorem lookup_of_place? {index : Nat} (found : vars.place? name offset = some (index, type)) :
    vars.lookup name = some type := by
  rw [lookup_eq_map_place? name offset, found]
  rfl

theorem mem_of_lookup (found : vars.lookup name = some type) : (name, type) ∈ vars := by
  obtain ⟨before, after, rfl, _⟩ := List.lookup_eq_some_iff.mp found
  exact List.mem_append_right _ List.mem_cons_self

/-- Later variables come behind the cells of those before them. -/
theorem place?_append (name : String) (offset : Nat) (first second : Vars) :
    (first ++ second).place? name offset =
      (first.place? name offset).or (second.place? name (offset + first.cells)) := by
  induction first generalizing offset with
  | nil => rfl
  | cons entry rest inductionHypothesis =>
    rw [List.cons_append, place?, place?, cells_cons, inductionHypothesis, Nat.add_assoc]
    split <;> rfl

end Vars

namespace Context

/-- A name has a place just if it denotes something, and both are of one type. The level of
the place leads to the scope that declares the variable. -/
theorem placeFrom?_eq (name : String) (level : Nat) (context : Context) :
    (placeFrom? name level context = none ∧ find? name context = none) ∨
    ∃ index depth layer type, placeFrom? name level context =
        some { slot := { index, level := level + depth }, type } ∧
      find? name context = some { scope := layer.scope, type } ∧
      context[depth]? = some layer ∧ layer.vars.place? name 0 = some (index, type) := by
  induction context generalizing level with
  | nil => exact .inl ⟨rfl, rfl⟩
  | cons layer outer inductionHypothesis =>
    rw [placeFrom?, find?]
    match placed : Vars.place? name 0 layer.vars with
    | some (index, type) =>
      rw [Vars.lookup_of_place? placed]
      exact .inr ⟨index, 0, layer, type, rfl, rfl, rfl, placed⟩
    | none =>
      rw [Vars.place?_eq_none_iff.mp placed]
      rcases inductionHypothesis (level + 1) with
        absent | ⟨index, depth, inner, type, place, denoted, up⟩
      · exact .inl absent
      · refine .inr ⟨index, depth + 1, inner, type, ?_, denoted, up⟩
        simp only [place, Nat.add_assoc, Nat.add_comm 1 depth]

/-- What a name denotes is declared in a layer of the context. -/
theorem exists_layer_of_find? {context : Context} {found : Denoted}
    (denotes : context.find? name = some found) :
    ∃ layer ∈ context, layer.scope = found.scope ∧ (name, found.type) ∈ layer.vars := by
  rcases placeFrom?_eq name 0 context with
    ⟨_, absent⟩ | ⟨_, _, layer, _, _, isFound, isLayer, isPlace⟩
  · cases absent.symm.trans denotes
  · cases isFound.symm.trans denotes
    exact ⟨layer, List.mem_of_getElem? isLayer, rfl,
      Vars.mem_of_lookup (Vars.lookup_of_place? isPlace)⟩

/-- The level of a place leads to the layer that declares the variable. -/
theorem exists_layer {context : Context} {place : ScopeTree.Resolved}
    (found : context.place? name = some place) :
    ∃ layer, context[place.slot.level]? = some layer ∧
      layer.vars.place? name 0 = some (place.slot.index, place.type) := by
  rcases placeFrom?_eq name 0 context with
    ⟨absent, _⟩ | ⟨_, depth, layer, _, placed, _, isLayer, isPlace⟩
  · cases absent.symm.trans found
  · cases placed.symm.trans found
    rw [Nat.zero_add]
    exact ⟨layer, isLayer, isPlace⟩

end Context

/-! ### Types in a context -/

/-- Functions by their names. -/
abbrev Functions := String → Option Signature

/-- The note of an expression bears its type, which is the type found for it after the
conversion it asks for. -/
structure Noted (note : Note) (found type : Ty) : Prop where
  noted : note.type = some type
  converted : Typing.converted note found = .ok type

/-- An expression bears its type at every node, and all its names denote something. -/
inductive HasType (functions : Functions) (context : Context) : Expr → Ty → Prop where
  | literal {note value type} (noted : Noted note (.base value.base) type) :
      HasType functions context (.literal note value) type
  | array {note items element type} (nonempty : items ≠ []) (scalar : element.isArray = false)
      (each : ∀ item ∈ items, HasType functions context item element)
      (noted : Noted note (.array items.length element) type) :
      HasType functions context (.array note items) type
  | side {note which type} (noted : Noted note .int type) :
      HasType functions context (.side note which) type
  | read {note x y type} (first : HasType functions context x .int)
      (second : HasType functions context y .int) (noted : Noted note .colour type) :
      HasType functions context (.read note x y) type
  | randomInt {note limit type} (bound : HasType functions context limit .int)
      (noted : Noted note .int type) : HasType functions context (.randomInt note limit) type
  | var {note name found type} (denotes : context.find? name = some found)
      (noted : Noted note found.type type) : HasType functions context (.var note name) type
  | index {note name offset found element type}
      (denotes : context.find? name.value = some found)
      (isArray : found.type.element? = some element)
      (inside : HasType functions context offset .int) (noted : Noted note element type) :
      HasType functions context (.index note name offset) type
  | call {note function items signature type}
      (names : functions function.value = some signature)
      (arity : signature.parameters.length = items.length)
      (each : ∀ pair ∈ items.zip signature.parameters, HasType functions context pair.1 pair.2)
      (noted : Noted note signature.returns type) :
      HasType functions context (.call note function items) type
  | group {note inner found type} (inside : HasType functions context inner found)
      (noted : Noted note found type) : HasType functions context (.group note inner) type
  | binary {note left operator right operand type}
      (takes : Typing.takesOperand operator operand = true)
      (first : HasType functions context left operand)
      (second : HasType functions context right operand)
      (noted : Noted note (Typing.operationType operator operand) type) :
      HasType functions context (.binary note left operator right) type
  | unary {note operator operand found type}
      (takes : Typing.takesUnaryOperand operator found = true)
      (inside : HasType functions context operand found) (noted : Noted note found type) :
      HasType functions context (.unary note operator operand) type

namespace HasType

variable {functions : Functions} {context : Context} {expr : Expr} {type : Ty}

/-- A typed expression bears its type. -/
theorem type?_eq (typed : HasType functions context expr type) : expr.type? = some type := by
  cases typed <;> exact Noted.noted (by assumption)

end HasType

/-! ### Bound names -/

/-- Every name in an expression denotes something, and the operands whose types decide about
the code bear a type. -/
inductive Bound (functions : Functions) (context : Context) : Expr → Prop where
  | literal {note value} : Bound functions context (.literal note value)
  | array {note items} (each : ∀ item ∈ items, Bound functions context item) :
      Bound functions context (.array note items)
  | side {note which} : Bound functions context (.side note which)
  | read {note x y} (first : Bound functions context x) (second : Bound functions context y) :
      Bound functions context (.read note x y)
  | randomInt {note limit} (inside : Bound functions context limit) :
      Bound functions context (.randomInt note limit)
  | var {note name found} (denotes : context.find? name = some found) :
      Bound functions context (.var note name)
  | index {note name offset found} (denotes : context.find? name.value = some found)
      (inside : Bound functions context offset) : Bound functions context (.index note name offset)
  | call {note function items signature} (names : functions function.value = some signature)
      (each : ∀ item ∈ items, Bound functions context item) :
      Bound functions context (.call note function items)
  | group {note inner} (inside : Bound functions context inner) :
      Bound functions context (.group note inner)
  | binary {note left operator right operand} (typed : left.type? = some operand)
      (first : Bound functions context left) (second : Bound functions context right) :
      Bound functions context (.binary note left operator right)
  | unary {note operator operand} (inside : Bound functions context operand) :
      Bound functions context (.unary note operator operand)

/-- What holds of the first of every pair holds of everything that is paired up. -/
theorem forall_mem_of_zip {α β : Type} {items : List α} {partners : List β}
    (sameLength : partners.length = items.length) {holds : α → Prop}
    (each : ∀ pair ∈ items.zip partners, holds pair.1) : ∀ item ∈ items, holds item := by
  intro item member
  rw [← List.map_fst_zip (Nat.le_of_eq sameLength.symm)] at member
  obtain ⟨pair, isPair, rfl⟩ := List.mem_map.mp member
  exact each pair isPair

variable {context : Context} {functions : Functions}

theorem HasType.bound (typed : HasType functions context expr type) :
    Bound functions context expr := by
  induction typed with
  | literal _ => exact .literal
  | array _ _ _ _ each => exact .array each
  | side _ => exact .side
  | read _ _ _ first second => exact .read first second
  | randomInt _ _ inside => exact .randomInt inside
  | var denotes _ => exact .var denotes
  | index denotes _ _ _ inside => exact .index denotes inside
  | call names arity _ _ each => exact .call names (forall_mem_of_zip arity each)
  | group _ _ inside => exact .group inside
  | binary _ left _ _ first second => exact .binary left.type?_eq first second
  | unary _ _ _ inside => exact .unary inside

/-- More declarations leave no name without a meaning. -/
theorem Context.exists_find?_declare {found : Denoted} (denotes : context.find? name = some found)
    (more : Vars) : ∃ other, (context.declare more).find? name = some other := by
  cases context with
  | nil => cases denotes
  | cons layer outer =>
    rw [find?] at denotes
    rw [declare, find?, List.lookup_append]
    cases here : layer.vars.lookup name with
    | some type => exact ⟨_, rfl⟩
    | none =>
      rw [here] at denotes
      cases more.lookup name with
      | some type => exact ⟨_, rfl⟩
      | none => exact ⟨found, denotes⟩

theorem Bound.declare (bound : Bound functions context expr) (more : Vars) :
    Bound functions (context.declare more) expr := by
  induction bound with
  | literal => exact .literal
  | array _ each => exact .array each
  | side => exact .side
  | read _ _ first second => exact .read first second
  | randomInt _ inside => exact .randomInt inside
  | var denotes =>
    obtain ⟨other, found⟩ := Context.exists_find?_declare denotes more
    exact .var found
  | index denotes _ inside =>
    obtain ⟨other, found⟩ := Context.exists_find?_declare denotes more
    exact .index found inside
  | call names _ each => exact .call names each
  | group _ inside => exact .group inside
  | binary typed _ _ first second => exact .binary typed first second
  | unary _ inside => exact .unary inside

end PadLang
