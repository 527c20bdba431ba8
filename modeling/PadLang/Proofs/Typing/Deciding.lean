/-
This file shows that the checker decides the rules for expressions and simple statements.

Where lookups in the tree of scopes find the variables that are visible, the checker passes an
expression with a type just if the expression is of that type by the rules. In one direction the
expression comes out with its types, which are those of the rules; the other direction goes through
the rules one by one. What simple statements ask for is then a conjunction of what is asked of the
expressions in them, because a chain of checks succeeds just if each of them does.
-/

import PadLang.Proofs.Typing.Rules
import PadLang.Proofs.Typing.Stmt

namespace PadLang

variable {found type : Ty} {expr : Expr} {name : Ident} {position : Position} {context : Context}

/-! ### Contexts without scopes -/

theorem Context.find?_vars (context : Context) (name : String) :
    Visible.find? name (context.map Layer.vars) = (context.find? name).map Denoted.type := by
  induction context with
  | nil => rfl
  | cons layer outer inductionHypothesis =>
    rw [List.map_cons, Visible.find?, Context.find?]
    cases layer.vars.lookup name with
    | some type => rfl
    | none => exact inductionHypothesis

theorem Context.vars_declare (context : Context) (added : Vars) :
    (context.declare added).map Layer.vars = Visible.declare added (context.map Layer.vars) := by
  cases context <;> rfl

/-! ### Expressions that bear their types -/

theorem Noted.gives {note other : Note} (noted : Noted note found type)
    (same : note.erase = other.erase) : other.Gives found type := by
  obtain ⟨_, _, _⟩ := note
  obtain ⟨_, _, _⟩ := other
  cases same
  exact Note.gives_iff.mpr noted.converted

/-- An expression that bears its types has them by the rules, and so has every expression that is
the same without them. -/
theorem HasType.ofType {functions : Functions} {before : Expr}
    (typed : HasType functions context expr type) (same : expr.erase = before.erase) :
    OfType functions (context.map Layer.vars) before type := by
  have declared {name : String} {found : Denoted} (denotes : context.find? name = some found) :
      Visible.find? name (context.map Layer.vars) = some found.type := by
    rw [Context.find?_vars, denotes, Option.map_some]
  induction typed generalizing before with
  | literal noted =>
    cases before with
    | literal =>
      obtain ⟨sameNote, rfl⟩ := Expr.literal.inj same
      exact .literal (noted.gives sameNote)
    | _ => cases same
  | @array _ items element _ nonempty scalar _ noted each =>
    cases before with
    | array _ others =>
      obtain ⟨sameNote, sameItems⟩ := Expr.array.inj same
      rw [eraseItems_eq_map, eraseItems_eq_map] at sameItems
      have sameLength := congrArg List.length sameItems
      rw [List.length_map, List.length_map] at sameLength
      cases element with
      | base element =>
        refine .array ?_ (fun other isOther => ?_) (sameLength ▸ noted.gives sameNote)
        · rintro rfl
          exact nonempty (List.length_eq_zero_iff.mp sameLength)
        · have isErased := List.mem_map_of_mem (f := Expr.erase) isOther
          rw [← sameItems] at isErased
          obtain ⟨item, isItem, sameItem⟩ := List.mem_map.mp isErased
          exact each item isItem sameItem
      | array size element => cases scalar
    | _ => cases same
  | side noted =>
    cases before with
    | side =>
      obtain ⟨sameNote, rfl⟩ := Expr.side.inj same
      exact .side (noted.gives sameNote)
    | _ => cases same
  | read _ _ noted first second =>
    cases before with
    | read =>
      obtain ⟨sameNote, sameX, sameY⟩ := Expr.read.inj same
      exact .read (first sameX) (second sameY) (noted.gives sameNote)
    | _ => cases same
  | randomInt _ noted bound =>
    cases before with
    | randomInt =>
      obtain ⟨sameNote, sameLimit⟩ := Expr.randomInt.inj same
      exact .randomInt (bound sameLimit) (noted.gives sameNote)
    | _ => cases same
  | var denotes noted =>
    cases before with
    | var =>
      obtain ⟨sameNote, rfl⟩ := Expr.var.inj same
      exact .var (declared denotes) (noted.gives sameNote)
    | _ => cases same
  | @index _ _ _ found element _ denotes isArray _ noted inside =>
    cases before with
    | index =>
      obtain ⟨sameNote, rfl, sameOffset⟩ := Expr.index.inj same
      obtain ⟨scope, array⟩ := found
      cases array with
      | base scalar => cases isArray
      | array size inner =>
        cases isArray
        exact .index (declared denotes) (inside sameOffset) (noted.gives sameNote)
    | _ => cases same
  | @call _ _ items signature _ names arity _ noted each =>
    cases before with
    | call _ _ others =>
      obtain ⟨sameNote, rfl, sameItems⟩ := Expr.call.inj same
      rw [eraseItems_eq_map, eraseItems_eq_map] at sameItems
      have sameLength := congrArg List.length sameItems
      rw [List.length_map, List.length_map] at sameLength
      refine .call names (sameLength.symm.trans arity.symm) ?_ (noted.gives sameNote)
      rintro ⟨other, expected⟩ isPair
      have isErased := List.mem_map_of_mem (f := Prod.map Expr.erase id) isPair
      rw [← List.zip_map_left, ← sameItems, List.zip_map_left] at isErased
      obtain ⟨⟨item, _⟩, isItem, samePair⟩ := List.mem_map.mp isErased
      obtain ⟨sameItem, rfl⟩ := Prod.mk.inj samePair
      exact each _ isItem sameItem
    | _ => cases same
  | group _ noted inside =>
    cases before with
    | group =>
      obtain ⟨sameNote, sameInner⟩ := Expr.group.inj same
      exact .group (inside sameInner) (noted.gives sameNote)
    | _ => cases same
  | binary takes _ _ noted first second =>
    cases before with
    | binary =>
      obtain ⟨sameNote, sameLeft, rfl, sameRight⟩ := Expr.binary.inj same
      exact .binary (first sameLeft) (second sameRight) (operates_iff.mpr ⟨takes, rfl⟩)
        (noted.gives sameNote)
    | _ => cases same
  | unary takes _ noted inside =>
    cases before with
    | unary =>
      obtain ⟨sameNote, rfl, sameOperand⟩ := Expr.unary.inj same
      exact .unary (inside sameOperand) (operatesOn_iff.mpr takes) (noted.gives sameNote)
    | _ => cases same

namespace Typing

variable {tree : ScopeTree} {scope : ScopeId} {visible : Visible} {items : List Expr}
  {typed : Typed}

/-- Lookups in the tree find the variables that are visible. -/
def Sees (tree : ScopeTree) (scope : ScopeId) (visible : Visible) : Prop :=
  ∀ name, tree.lookupVariable? scope name = (visible.find? name).map fun type => { type }

theorem sees_of_shows (shows : tree.Shows scope context) (tidy : tree.Tidy) :
    Sees tree scope (context.map Layer.vars) := by
  intro name
  rw [shows.lookupVariable?_eq tidy, Context.find?_vars, Option.map_map]
  rfl

/-! ### Checks that succeed -/

/-- A check ends without a complaint. -/
def Succeeds {α : Type} (result : Except Complaints α) : Prop := ∃ value, result = .ok value

section Succeeds

variable {α β : Type}

theorem succeeds_ok (value : α) : Succeeds (.ok value) := ⟨value, rfl⟩

/-- A chain of two checks succeeds just if both do, where what the second finds does not depend
on the result of the first. -/
theorem succeeds_bind_iff {first : Except Complaints α} {second : α → Except Complaints β}
    {rest : Prop} (each : ∀ value, first = .ok value → (Succeeds (second value) ↔ rest)) :
    Succeeds (first >>= second) ↔ Succeeds first ∧ rest := by
  constructor
  · rintro ⟨result, ended⟩
    obtain ⟨value, isValue, goesOn⟩ := bind_eq_ok_iff.mp ended
    exact ⟨⟨value, isValue⟩, (each value isValue).mp ⟨result, goesOn⟩⟩
  · rintro ⟨⟨value, isValue⟩, holds⟩
    obtain ⟨result, goesOn⟩ := (each value isValue).mpr holds
    exact ⟨result, bind_eq_ok_iff.mpr ⟨value, isValue, goesOn⟩⟩

/-- A check that does nothing more after another. -/
theorem succeeds_bind_pure_iff {first : Except Complaints α} {change : α → β} :
    Succeeds (first >>= fun value => .ok (change value)) ↔ Succeeds first := by
  have each (value : α) (_ : first = .ok value) : Succeeds (.ok (change value)) ↔ True :=
    iff_true_intro (succeeds_ok _)
  rw [succeeds_bind_iff each, and_true]

theorem succeeds_map_iff {result : Except Complaints α} {change : α → β} :
    Succeeds (result.map change) ↔ Succeeds result := by
  cases result with
  | ok value => exact iff_of_true (succeeds_ok _) (succeeds_ok _)
  | error complaints => exact iff_of_false nofun nofun

theorem Sincere.complaintsOf_eq_nil_iff {result : Except Complaints α} (sincere : Sincere result) :
    complaintsOf result = [] ↔ Succeeds result := by
  refine ⟨sincere.eq_ok, ?_⟩
  rintro ⟨value, rfl⟩
  rfl

end Succeeds

/-! ### The parts of the checker -/

theorem variableType_eq_ok_iff (sees : Sees tree scope visible) :
    variableType tree scope name = .ok type ↔ visible.find? name.value = some type := by
  rw [variableType, sees]
  cases visible.find? name.value with
  | some found => simp
  | none =>
    refine iff_of_false ?_ (Option.some_ne_none type).symm
    rw [Option.map_none]
    dsimp only
    split <;> exact error_ne_ok

theorem elementType_eq_ok_iff {element : Ty} :
    elementType name type = .ok element ↔ ∃ size, type = .array size element := by
  cases type with
  | base scalar => exact iff_of_false nofun nofun
  | array size found => simp [elementType, Ty.element?]

theorem callee_eq_ok_iff {signature : Signature} :
    callee tree scope name = .ok signature ↔
      tree.lookupFunction? name.value = some signature := by
  refine ⟨callee_eq_ok, fun found => ?_⟩
  rw [callee, found]

theorem operation_eq_ok_iff {operator : BinaryOperator} {leftPosition rightPosition : Position}
    {left right : Ty} :
    operation operator leftPosition left rightPosition right = .ok type ↔
      right = left ∧ Operates operator left type := by
  rw [operates_iff]
  constructor
  · intro found
    obtain ⟨takes, same, isType⟩ := operation_eq_ok found
    exact ⟨same, takes, isType⟩
  · rintro ⟨rfl, takes, rfl⟩
    simp [operation, takes]

theorem finish_eq_ok_iff (expr : Expr) :
    (∃ after, finish expr found = .ok (after, type)) ↔ expr.note.Gives found type := by
  rw [Note.gives_iff]
  constructor
  · rintro ⟨after, finished⟩
    obtain ⟨target, isConverted, same⟩ := bind_eq_ok_iff.mp finished
    cases same
    exact isConverted
  · intro isConverted
    exact ⟨expr.withType type, bind_eq_ok_iff.mpr ⟨type, isConverted, rfl⟩⟩

theorem require_of_ok {expected : Ty} (found : typed = .ok (expr, expected)) :
    require typed position expected = .ok expr := by
  subst found
  exact if_pos rfl

theorem fits_of_ok {target : Ty} (found : typed = .ok (expr, target)) :
    fits typed position target = .ok expr := by
  subst found
  exact if_pos rfl

/-- The first element of an array literal may be any scalar, and the others have to be like it. -/
theorem agree_eq_ok_iff {first : Option Ty} :
    agree first position found = .ok type ↔
      type = found ∧ (∃ scalar, found = .base scalar) ∧ ∀ expected ∈ first, expected = found := by
  constructor
  · intro agreed
    obtain ⟨same, notArray, matching⟩ := agree_eq_ok agreed
    refine ⟨same, ?_, fun expected isFirst => (matching expected isFirst).symm⟩
    cases found with
    | base scalar => exact ⟨scalar, rfl⟩
    | array size element => cases notArray
  · rintro ⟨rfl, ⟨scalar, rfl⟩, matching⟩
    cases first with
    | none => rfl
    | some expected =>
      rw [matching expected rfl]
      simp [agree, Ty.isArray]

/-! ### What the checker passes is well typed -/

theorem expression_ofType (sees : Sees tree scope visible) {after : Expr}
    (found : expression tree scope expr = .ok (after, type)) :
    OfType tree.lookupFunction? visible expr type := by
  -- no rule asks which scopes the variables are in
  let context : Context := visible.map (Layer.mk 0)
  have vars : context.map Layer.vars = visible := by
    rw [List.map_map]
    exact List.map_id visible
  have agrees : Agrees tree scope context := fun name => by
    rw [sees, ← vars, Context.find?_vars, Option.map_map]
    rfl
  have passed := expression_passed found
  exact vars ▸ (passed.typed agrees).ofType passed.erased

/-! ### What is well typed passes -/

/-- Elements that pass with one scalar type pass together, after elements of that type. -/
theorem elements_eq_ok {element : Base} (first : Option Ty)
    (matching : ∀ expected ∈ first, expected = .base element) (decided : items = [] → first ≠ none)
    (each : ∀ item ∈ items, ∃ after, expression tree scope item = .ok (after, .base element)) :
    ∃ after, elements tree scope first items = .ok (after, some (.base element)) ∧
      after.length = items.length := by
  induction items generalizing first with
  | nil =>
    cases first with
    | none => exact absurd rfl (decided rfl)
    | some expected =>
      rw [matching expected rfl]
      exact ⟨[], rfl, rfl⟩
  | cons item rest inductionHypothesis =>
    obtain ⟨typed, itemFound⟩ := each item List.mem_cons_self
    have agreed : agree first item.position (.base element) = .ok (.base element) :=
      agree_eq_ok_iff.mpr ⟨rfl, ⟨element, rfl⟩, matching⟩
    obtain ⟨others, othersFound, length⟩ := inductionHypothesis (some (.base element))
      (by simp) nofun fun other isOther => each other (List.mem_cons_of_mem _ isOther)
    refine ⟨typed :: others, ?_, by rw [List.length_cons, List.length_cons, length]⟩
    rw [elements]
    exact bind_eq_ok_iff.mpr ⟨_, itemFound, bind_eq_ok_iff.mpr ⟨_, agreed,
      bind_eq_ok_iff.mpr ⟨_, othersFound, rfl⟩⟩⟩

/-- Arguments that pass with the types of the parameters pass together. -/
theorem arguments_eq_ok (function : String) (index : Nat) {parameters : List Ty}
    (each : ∀ pair ∈ items.zip parameters,
      ∃ after, expression tree scope pair.1 = .ok (after, pair.2)) :
    ∃ after, arguments tree scope function index parameters items = .ok after := by
  induction items generalizing parameters index with
  | nil => cases parameters <;> exact ⟨[], rfl⟩
  | cons item rest inductionHypothesis =>
    cases parameters with
    | nil => exact ⟨[], rfl⟩
    | cons expected parameters =>
      rw [List.zip_cons_cons] at each
      obtain ⟨typed, itemFound⟩ := each (item, expected) List.mem_cons_self
      obtain ⟨others, othersFound⟩ := @inductionHypothesis (index + 1) parameters
        fun pair isPair => each pair (List.mem_cons_of_mem _ isPair)
      refine ⟨typed :: others, ?_⟩
      rw [arguments]
      refine bind_eq_ok_iff.mpr ⟨_, itemFound, ?_⟩
      dsimp only
      rw [if_pos rfl]
      exact bind_eq_ok_iff.mpr ⟨_, othersFound, rfl⟩

variable (sees : Sees tree scope visible)

include sees

theorem expression_eq_ok (typed : OfType tree.lookupFunction? visible expr type) :
    ∃ after, expression tree scope expr = .ok (after, type) := by
  induction typed with
  | literal gives | side gives => exact (finish_eq_ok_iff _).mpr gives
  | @array note items type element nonempty _ gives each =>
    obtain ⟨others, elementsFound, length⟩ :=
      elements_eq_ok none nofun (fun empty => absurd empty nonempty) each
    rw [← length] at gives
    obtain ⟨after, finished⟩ := (finish_eq_ok_iff (.array note others)).mpr gives
    refine ⟨after, ?_⟩
    rw [expression]
    exact bind_eq_ok_iff.mpr ⟨_, elementsFound, bind_eq_ok_iff.mpr ⟨_, rfl, finished⟩⟩
  | @read note _ _ _ _ _ gives first second =>
    obtain ⟨x, foundX⟩ := first
    obtain ⟨y, foundY⟩ := second
    obtain ⟨after, finished⟩ := (finish_eq_ok_iff (.read note x y)).mpr gives
    refine ⟨after, ?_⟩
    rw [expression]
    exact bind_eq_ok_iff.mpr ⟨_, require_of_ok foundX,
      bind_eq_ok_iff.mpr ⟨_, require_of_ok foundY, finished⟩⟩
  | @randomInt note _ _ _ gives bound =>
    obtain ⟨limit, foundLimit⟩ := bound
    obtain ⟨after, finished⟩ := (finish_eq_ok_iff (.randomInt note limit)).mpr gives
    refine ⟨after, ?_⟩
    rw [expression]
    exact bind_eq_ok_iff.mpr ⟨_, require_of_ok foundLimit, finished⟩
  | @var note name found _ declared gives =>
    obtain ⟨after, finished⟩ := (finish_eq_ok_iff (.var note name)).mpr gives
    refine ⟨after, ?_⟩
    rw [expression]
    exact bind_eq_ok_iff.mpr ⟨found, (variableType_eq_ok_iff sees).mpr declared, finished⟩
  | @index note name _ size element _ declared _ gives place =>
    obtain ⟨offset, foundOffset⟩ := place
    obtain ⟨after, finished⟩ := (finish_eq_ok_iff (.index note name offset)).mpr gives
    refine ⟨after, ?_⟩
    rw [expression]
    exact bind_eq_ok_iff.mpr ⟨.array size element, (variableType_eq_ok_iff sees).mpr declared,
      bind_eq_ok_iff.mpr ⟨element, rfl,
        bind_eq_ok_iff.mpr ⟨_, require_of_ok foundOffset, finished⟩⟩⟩
  | @call note function items signature _ names arity _ gives each =>
    obtain ⟨others, itemsFound⟩ := arguments_eq_ok function.value 1 each
    obtain ⟨after, finished⟩ := (finish_eq_ok_iff (.call note function others)).mpr gives
    refine ⟨after, ?_⟩
    rw [expression]
    refine bind_eq_ok_iff.mpr ⟨signature, callee_eq_ok_iff.mpr names, ?_⟩
    rw [if_neg (not_not.mpr arity.symm)]
    exact bind_eq_ok_iff.mpr ⟨_, itemsFound, finished⟩
  | @group note _ found _ _ gives inside =>
    obtain ⟨inner, foundInner⟩ := inside
    obtain ⟨after, finished⟩ := (finish_eq_ok_iff (.group note inner)).mpr gives
    refine ⟨after, ?_⟩
    rw [expression]
    exact bind_eq_ok_iff.mpr ⟨_, foundInner, finished⟩
  | @binary note _ operator _ operand result _ _ _ operates gives first second =>
    obtain ⟨left, foundLeft⟩ := first
    obtain ⟨right, foundRight⟩ := second
    obtain ⟨after, finished⟩ :=
      (finish_eq_ok_iff (.binary note left operator right)).mpr gives
    refine ⟨after, ?_⟩
    rw [expression, foundLeft, foundRight]
    exact bind_eq_ok_iff.mpr ⟨_, rfl,
      bind_eq_ok_iff.mpr ⟨result, operation_eq_ok_iff.mpr ⟨rfl, operates⟩, finished⟩⟩
  | @unary note operator _ found _ _ operates gives inside =>
    obtain ⟨operand, foundOperand⟩ := inside
    obtain ⟨after, finished⟩ := (finish_eq_ok_iff (.unary note operator operand)).mpr gives
    refine ⟨after, ?_⟩
    rw [expression]
    refine bind_eq_ok_iff.mpr ⟨_, foundOperand, ?_⟩
    dsimp only
    rw [if_pos (operatesOn_iff.mp operates)]
    exact finished

/-- The checker passes an expression with the types that the rules give it. -/
theorem expression_eq_ok_iff :
    (∃ after, expression tree scope expr = .ok (after, type)) ↔
      OfType tree.lookupFunction? visible expr type :=
  ⟨fun ⟨_, found⟩ => expression_ofType sees found, expression_eq_ok sees⟩

/-! ### Simple statements -/

theorem expect_succeeds_iff :
    Succeeds (expect tree scope expr type) ↔ OfType tree.lookupFunction? visible expr type := by
  rw [← expression_eq_ok_iff sees]
  constructor
  · rintro ⟨after, found⟩
    exact ⟨after, require_eq_ok found⟩
  · rintro ⟨after, found⟩
    exact ⟨after, require_of_ok found⟩

theorem fits_succeeds_iff :
    Succeeds (fits (expression tree scope expr) position type) ↔
      OfType tree.lookupFunction? visible expr type := by
  rw [← expression_eq_ok_iff sees]
  constructor
  · rintro ⟨after, found⟩
    exact ⟨after, fits_eq_ok found⟩
  · rintro ⟨after, found⟩
    exact ⟨after, fits_of_ok found⟩

theorem assignment_succeeds_iff {made : Assignment} :
    Succeeds (assignment tree scope made) ↔ made.WellTyped tree.lookupFunction? visible := by
  obtain ⟨target, index, value⟩ := made
  unfold assignment Assignment.WellTyped
  cases index with
  | none =>
    constructor
    · rintro ⟨after, found⟩
      obtain ⟨type, isVariable, found⟩ := bind_eq_ok_iff.mp found
      obtain ⟨value, valueFound, _⟩ := bind_eq_ok_iff.mp found
      exact ⟨type, (variableType_eq_ok_iff sees).mp isVariable,
        (fits_succeeds_iff sees).mp ⟨value, valueFound⟩⟩
    · rintro ⟨type, declared, typed⟩
      obtain ⟨value, valueFound⟩ := (fits_succeeds_iff sees).mpr typed
      exact ⟨_, bind_eq_ok_iff.mpr ⟨type, (variableType_eq_ok_iff sees).mpr declared,
        bind_eq_ok_iff.mpr ⟨value, valueFound, rfl⟩⟩⟩
  | some index =>
    constructor
    · rintro ⟨after, found⟩
      obtain ⟨type, isVariable, found⟩ := bind_eq_ok_iff.mp found
      obtain ⟨element, isArray, found⟩ := bind_eq_ok_iff.mp found
      obtain ⟨offset, offsetFound, found⟩ := bind_eq_ok_iff.mp found
      obtain ⟨value, valueFound, _⟩ := bind_eq_ok_iff.mp found
      obtain ⟨size, rfl⟩ := elementType_eq_ok_iff.mp isArray
      exact ⟨size, element, (variableType_eq_ok_iff sees).mp isVariable,
        (expect_succeeds_iff sees).mp ⟨offset, offsetFound⟩,
        (fits_succeeds_iff sees).mp ⟨value, valueFound⟩⟩
    · rintro ⟨size, element, declared, typedIndex, typed⟩
      obtain ⟨offset, offsetFound⟩ := (expect_succeeds_iff sees).mpr typedIndex
      obtain ⟨value, valueFound⟩ := (fits_succeeds_iff sees).mpr typed
      exact ⟨_, bind_eq_ok_iff.mpr ⟨.array size element,
        (variableType_eq_ok_iff sees).mpr declared, bind_eq_ok_iff.mpr ⟨element, rfl,
          bind_eq_ok_iff.mpr ⟨offset, offsetFound, bind_eq_ok_iff.mpr ⟨value, valueFound, rfl⟩⟩⟩⟩⟩

theorem action_succeeds_iff {done : Action} :
    Succeeds (action tree scope done) ↔ done.WellTyped tree.lookupFunction? visible := by
  have expected (expr : Expr) (type : Ty) : Succeeds (expect tree scope expr type) ↔
      OfType tree.lookupFunction? visible expr type := expect_succeeds_iff sees
  cases done with
  | print value =>
    rw [action, Action.WellTyped]
    simp only [← expression_eq_ok_iff sees]
    constructor
    · rintro ⟨after, found⟩
      obtain ⟨⟨typed, type⟩, valueFound, _⟩ := bind_eq_ok_iff.mp found
      exact ⟨type, typed, valueFound⟩
    · rintro ⟨type, typed, valueFound⟩
      exact ⟨_, bind_eq_ok_iff.mpr ⟨_, valueFound, rfl⟩⟩
  | delay _ | clear _ => exact succeeds_bind_pure_iff.trans (expected _ _)
  | write x y colour =>
    rw [action, Action.WellTyped, ← expected, ← expected, ← expected]
    refine succeeds_bind_iff fun _ _ => succeeds_bind_iff fun _ _ => ?_
    exact succeeds_bind_pure_iff
  | writeBox x y width height colour =>
    rw [action, Action.WellTyped, ← expected, ← expected, ← expected, ← expected, ← expected]
    refine succeeds_bind_iff fun _ _ => succeeds_bind_iff fun _ _ => ?_
    refine succeeds_bind_iff fun _ _ => succeeds_bind_iff fun _ _ => ?_
    exact succeeds_bind_pure_iff

theorem returnedValue_succeeds_iff {enclosing : Enclosing} {value : Expr} :
    Succeeds (returnedValue tree scope enclosing position value) ↔
      ∃ type, enclosing.map Prod.snd = some type ∧
        OfType tree.lookupFunction? visible value type := by
  match enclosing with
  | none => exact iff_of_false nofun nofun
  | some (function, returns) =>
    simp only [Option.map_some, Option.some.injEq, exists_eq_left', ← expression_eq_ok_iff sees]
    constructor
    · rintro ⟨after, found⟩
      obtain ⟨⟨typed, type⟩, valueFound, checked⟩ := bind_eq_ok_iff.mp found
      simp only at checked
      split at checked
      · rename_i same
        exact ⟨typed, same ▸ valueFound⟩
      · cases checked
    · rintro ⟨typed, valueFound⟩
      exact ⟨typed, bind_eq_ok_iff.mpr ⟨_, valueFound, if_pos rfl⟩⟩

theorem loopUpdate_succeeds_iff {update : Option Assignment} :
    Succeeds (loopUpdate tree scope update) ↔
      ∀ made ∈ update, made.WellTyped tree.lookupFunction? visible := by
  cases update with
  | none => exact iff_of_true (succeeds_ok _) nofun
  | some made =>
    refine succeeds_bind_pure_iff.trans ((assignment_succeeds_iff sees).trans ?_)
    simp

end Typing

end PadLang
