/-
This file shows that expressions and simple statements get the code that their context gives.

Where names are resolved as the context says, the generator emits the code that is generated
from the context alone. It asks for types only where they decide about the code, so it is enough
that every name denotes something. It faults just if a level in that code cannot be counted.
-/

import PadLang.Proofs.Code.Addressing
import PadLang.Proofs.Scope.Storage

namespace PadLang

namespace Code

/-! ### Expressions -/

/-- Functions bear their names as labels, and their arguments fit in a frame. -/
structure Linked (functions : Functions) (tree : ScopeTree) : Prop where
  labels : ∀ name, tree.lookupFunction? name =
    (functions name).map fun signature => { signature with label := some name }
  fits : ∀ name signature, functions name = some signature →
    signature.argumentSlots? = .ok (some signature.cells)

/-- Names are resolved as the context says. -/
structure Resolves (functions : Functions) (tree : ScopeTree) (scope : ScopeId)
    (context : Context) : Prop extends Linked functions tree where
  places : ∀ name, tree.resolve? scope name = context.place? name

section Expressions

variable {functions : Functions} {tree : ScopeTree} {scope : ScopeId} {context : Context}
  {safe : Prop} {name : String} {code : Code}

/-- A name that denotes something has a place of the same type. -/
theorem exists_place {found : Denoted} (denotes : context.find? name = some found) :
    ∃ place, context.place? name = some place ∧ place.type = found.type := by
  rcases context.placeFrom?_eq name 0 with ⟨_, absent⟩ | ⟨_, _, _, _, place, same, _⟩
  · rw [absent] at denotes
    cases denotes
  · rw [same] at denotes
    cases denotes
    exact ⟨_, place, rfl⟩

theorem resolve_meets (resolves : Resolves functions tree scope context)
    {place : ScopeTree.Resolved} (found : context.place? name = some place) :
    Meets safe (· = place) (resolve tree scope name) := by
  rw [resolve, resolves.places, found]
  exact Meets.ok rfl

theorem typeOf_meets {expr : Expr} {type : Ty} (typed : expr.type? = some type) :
    Meets safe (· = type) (typeOf expr) := by
  rw [typeOf, typed]
  exact Meets.ok rfl

/-- A step emits some code, just if all levels in it can be counted. -/
def Emits (code : Code) (step : Except Fault Code) : Prop :=
  Meets (Addressable code) (fun emitted => emitted = code ∧ Addressable code) step

theorem Emits.ok (fits : Addressable code) : Emits code (.ok code) := ⟨rfl, fits⟩

/-- A step that emits a part of the code, and what is made of it. -/
theorem Emits.bind {part : Code} {first : Except Fault Code} {next : Code → Except Fault Code}
    (start : Emits part first) (needs : Addressable code → Addressable part)
    (rest : Addressable part → Emits code (next part)) : Emits code (first >>= next) := by
  refine Meets.bind (Meets.weaken start needs) ?_
  rintro _ ⟨rfl, fits⟩
  exact rest fits

/-- A step that emits the part of the code that the rest is put around. -/
theorem Emits.map {part : Code} {step : Except Fault Code} {make : Code → Code}
    (emits : Emits part step) (needs : Addressable (make part) ↔ Addressable part) :
    Emits (make part) (do return make (← step)) :=
  emits.bind needs.mp fun fits => .ok (needs.mpr fits)

/-- Two steps that emit the parts which the code is put together from. -/
theorem Emits.both {below above : Code} {first second : Except Fault Code}
    {make : Code → Code → Code} (emitsBelow : Emits below first) (emitsAbove : Emits above second)
    (needs : Addressable (make below above) ↔ Addressable below ∧ Addressable above) :
    Emits (make below above) (do return make (← first) (← second)) :=
  emitsBelow.bind (fun fits => (needs.mp fits).1) fun fitsBelow =>
    emitsAbove.bind (fun fits => (needs.mp fits).2) fun fitsAbove =>
      .ok (needs.mpr ⟨fitsBelow, fitsAbove⟩)

theorem readVariable_emits (place : ScopeTree.Resolved) :
    Emits (Lexical.readVariable place) (readVariable place) := by
  obtain ⟨slot, type⟩ := place
  cases type with
  | base scalar => exact .ok (by simp [Lexical.readVariable])
  | array size element =>
    have counted : Addressable (Lexical.readVariable ⟨slot, .array size element⟩) ↔
        slot.level + 1 < Counter.bound := by
      simp [Lexical.readVariable, Counter.bound]
    refine Meets.bind (Counter.add_meets counted.mp) ?_
    rintro level ⟨rfl, small⟩
    exact Meets.pure ⟨rfl, counted.mpr small⟩

theorem call_emits (resolves : Resolves functions tree scope context) {signature : Signature}
    (named : functions name = some signature) :
    Emits (Lexical.call functions name) (call tree name) := by
  have slots : ({ signature with label := some name } : Signature).argumentSlots? =
      .ok (some signature.cells) := resolves.fits name signature named
  rw [call, resolves.labels, named, Option.map_some]
  dsimp only
  rw [slots, Lexical.call, named]
  exact .ok (by simp)

mutual

theorem expression_emits (resolves : Resolves functions tree scope context) {expr : Expr}
    (bound : Bound functions context expr) :
    Emits (Lexical.expression functions context expr) (expression tree scope expr) := by
  match expr with
  | .literal _ _ | .side _ .width | .side _ .height =>
    rw [expression, Lexical.expression]
    exact .ok (by simp)
  | .array _ items =>
    cases bound with
    | array each =>
      rw [expression, Lexical.expression]
      exact backwards_emits resolves each
  | .read _ x y =>
    cases bound with
    | read first second =>
      rw [expression, Lexical.expression]
      exact (expression_emits resolves second).both (expression_emits resolves first) (by simp)
  | .randomInt _ limit =>
    cases bound with
    | randomInt inside =>
      rw [expression, Lexical.expression]
      exact (expression_emits resolves inside).map (by simp)
  | .var _ name =>
    cases bound with
    | var denotes =>
      obtain ⟨place, placed, _⟩ := exists_place denotes
      rw [expression]
      refine Meets.bind (resolve_meets resolves placed) ?_
      rintro _ rfl
      rw [Lexical.expression, Lexical.atPlace, placed]
      exact readVariable_emits _
  | .index _ name offset =>
    cases bound with
    | index denotes inside =>
      obtain ⟨place, placed, _⟩ := exists_place denotes
      rw [expression]
      refine Meets.bind (resolve_meets resolves placed) ?_
      rintro _ rfl
      rw [Lexical.expression, Lexical.atPlace, placed, Option.map_some, Option.getD_some]
      exact (expression_emits resolves inside).map (by simp)
  | .call _ function items =>
    cases bound with
    | call names each =>
      rw [expression, Lexical.expression]
      exact (backwards_emits resolves each).both (call_emits resolves names) (by simp)
  | .group _ inner =>
    cases bound with
    | group inside =>
      rw [expression, Lexical.expression]
      exact expression_emits resolves inside
  | .binary _ left operator right =>
    cases bound with
    | binary typed first second =>
      rw [expression, Lexical.expression, typed, Option.map_some, Option.getD_some]
      refine Meets.bind (typeOf_meets typed) ?_
      rintro _ rfl
      exact (expression_emits resolves second).both (expression_emits resolves first)
        (by simp [and_comm])
  | .unary _ .not operand | .unary _ .negate operand =>
    cases bound with
    | unary inside =>
      rw [expression, Lexical.expression]
      exact (expression_emits resolves inside).map (by simp)

theorem backwards_emits (resolves : Resolves functions tree scope context) {items : List Expr}
    (bound : ∀ item ∈ items, Bound functions context item) :
    Emits (Lexical.backwards functions context items) (backwards tree scope items) := by
  match items with
  | [] => exact .ok addressable_nil
  | first :: rest =>
    rw [List.forall_mem_cons] at bound
    rw [backwards, Lexical.backwards]
    exact (backwards_emits resolves bound.2).both (expression_emits resolves bound.1) (by simp)

end

/-! ### Simple statements -/

variable (resolves : Resolves functions tree scope context)

include resolves

theorem assignment_emits {made : Assignment} (bound : made.Bound functions context) :
    Emits (Lexical.assignment functions context made) (assignment tree scope made) := by
  obtain ⟨target, index, value⟩ := made
  obtain ⟨⟨found, denotes⟩, boundIndex, boundValue⟩ := bound
  obtain ⟨place, placed, _⟩ := exists_place denotes
  refine Meets.bind (resolve_meets resolves placed) ?_
  rintro _ rfl
  rw [Lexical.assignment, Lexical.atPlace, placed, Option.map_some, Option.getD_some]
  cases index with
  | none =>
    exact (expression_emits resolves boundValue).map (by simp)
  | some index =>
    exact (expression_emits resolves boundValue).both
      (expression_emits resolves (boundIndex index rfl)) (by simp)

theorem action_emits {done : Action} (inScope : done.Scoped functions context) :
    Emits (Lexical.action functions context done) (action tree scope done) := by
  cases done with
  | print value =>
    obtain ⟨type, typed⟩ := inScope
    rw [Lexical.action, typed.type?_eq]
    refine (expression_emits resolves typed.bound).bind (by simp) fun fits => ?_
    refine Meets.bind (typeOf_meets typed.type?_eq) ?_
    rintro _ rfl
    exact Emits.ok (by simp [fits])
  | delay value | clear value =>
    rw [Lexical.action]
    exact (expression_emits resolves (HasType.bound inScope)).map (by simp)
  | write _ _ _ | writeBox _ _ _ _ _ =>
    have bound := inScope.bound
    rw [Action.expressions] at bound
    rw [Lexical.action]
    exact (backwards_emits resolves bound).map (by simp)

theorem loopUpdate_emits {update : Option Assignment}
    (bound : ∀ made ∈ update, made.Bound functions context) :
    Emits (Lexical.loopUpdate functions context update) (loopUpdate tree scope update) := by
  cases update with
  | none => exact .ok addressable_nil
  | some made => exact assignment_emits resolves (bound made rfl)

end Expressions

end Code

end PadLang
