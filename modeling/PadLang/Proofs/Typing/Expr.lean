/-
This file shows that the checker finds the types of expressions.

An expression that the checker passes has the type found for it, in any context that the tree
shows at its place, and it is the expression that was read with types written on it.
-/

import PadLang.Proofs.Uses
import PadLang.Proofs.Views

namespace PadLang

namespace Typing

variable {tree : ScopeTree} {scope : ScopeId} {context : Context} {type expected : Ty}
  {name : Ident} {position : Position} {expr after : Expr}

/-- Lookups in the tree find what the context lists. -/
def Agrees (tree : ScopeTree) (scope : ScopeId) (context : Context) : Prop :=
  ∀ name, tree.lookupVariable? scope name =
    (context.find? name).map fun found => { type := found.type }

/-- Lookups of some names in the tree find types that the context lists. -/
def AgreesOn (names : List String) (tree : ScopeTree) (scope : ScopeId) (context : Context) :
    Prop :=
  ∀ name ∈ names, (tree.lookupVariable? scope name).map Variable.type =
    (context.find? name).map Denoted.type

theorem Agrees.on (agrees : Agrees tree scope context) (names : List String) :
    AgreesOn names tree scope context := by
  intro name _
  rw [agrees, Option.map_map]
  rfl

theorem AgreesOn.mono {part whole : List String} (agrees : AgreesOn whole tree scope context)
    (among : part ⊆ whole) : AgreesOn part tree scope context :=
  fun name member => agrees name (among member)

theorem AgreesOn.item {items : List Expr} {item : Expr}
    (agrees : AgreesOn (namesOf items) tree scope context) (member : item ∈ items) :
    AgreesOn item.names tree scope context :=
  agrees.mono fun _ inside => mem_namesOf.mpr ⟨item, member, inside⟩

/-- Some context lists what is found under some names. -/
theorem exists_agreesOn (tree : ScopeTree) (scope : ScopeId) (names : List String) :
    ∃ context, AgreesOn names tree scope context := by
  have listed : ∃ vars : Vars, ∀ name, vars.lookup name =
      if name ∈ names then (tree.lookupVariable? scope name).map Variable.type else none := by
    induction names with
    | nil => exact ⟨[], fun _ => rfl⟩
    | cons first rest inductionHypothesis =>
      obtain ⟨vars, looked⟩ := inductionHypothesis
      cases found : tree.lookupVariable? scope first with
      | none => exact ⟨vars, fun name => by by_cases same : name = first <;> simp_all⟩
      | some info =>
        refine ⟨(first, info.type) :: vars, fun name => ?_⟩
        rw [List.lookup_cons]
        by_cases same : name = first
        · simp_all
        · simp [looked, same, beq_false_of_ne same]
  obtain ⟨vars, looked⟩ := listed
  refine ⟨[{ scope := ScopeTree.global, vars }], fun name member => ?_⟩
  rw [Context.find?, looked, if_pos member]
  cases tree.lookupVariable? scope name <;> rfl

/-! ### The parts of the checker -/

theorem variableType_eq_ok {names : List String} (agrees : AgreesOn names tree scope context)
    (member : name.value ∈ names) (found : variableType tree scope name = .ok type) :
    ∃ denoted, context.find? name.value = some denoted ∧ denoted.type = type := by
  have same := agrees name.value member
  rw [variableType] at found
  split at found
  · next isVariable =>
    cases found
    rw [isVariable] at same
    exact Option.map_eq_some_iff.mp same.symm
  · split at found <;> cases found

theorem elementType_eq_ok {element : Ty} (found : elementType name type = .ok element) :
    type.element? = some element := by
  rw [elementType] at found
  split at found
  · rename_i same
    cases found
    exact same
  · cases found

theorem callee_eq_ok {signature : Signature} (found : callee tree scope name = .ok signature) :
    tree.lookupFunction? name.value = some signature := by
  rw [callee] at found
  split at found
  · rename_i same
    cases found
    exact same
  · split at found <;> cases found

theorem operation_eq_ok {operator : BinaryOperator} {leftPosition rightPosition : Position}
    {left right : Ty}
    (found : operation operator leftPosition left rightPosition right = .ok type) :
    takesOperand operator left = true ∧ right = left ∧ type = operationType operator left := by
  rw [operation] at found
  split at found
  · cases found
  split at found
  · cases found
  split at found
  · cases found
  · rename_i takes _ same
    cases found
    exact ⟨by simpa using takes, (not_not.mp same).symm, rfl⟩

theorem both_eq_ok {α β : Type} {first : Except Complaints α} {second : Except Complaints β}
    {value : α × β} (found : both first second = .ok value) :
    first = .ok value.1 ∧ second = .ok value.2 := by
  cases first <;> cases second <;> cases found
  exact ⟨rfl, rfl⟩

theorem agree_eq_ok {first : Option Ty} {found : Ty}
    (agreed : agree first position found = .ok type) :
    type = found ∧ found.isArray = false ∧
      ∀ expected, first = some expected → found = expected := by
  unfold agree at agreed
  split at agreed
  · cases agreed
  rename_i scalar
  refine ⟨?_, by simpa using scalar, ?_⟩
  all_goals
    split at agreed
    · cases agreed
      simp
    · split at agreed
      · cases agreed
        simp_all
      · cases agreed

/-- An expression that is finished bears its type and its conversion. -/
theorem finish_eq_ok {final : Ty} (finished : finish expr type = .ok (after, final)) :
    after = expr.withType final ∧ Noted { expr.note with type := some final } type final := by
  obtain ⟨target, isConverted, same⟩ := bind_eq_ok_iff.mp finished
  cases same
  exact ⟨rfl, rfl, isConverted⟩

theorem require_eq_ok {typed : Typed} (required : require typed position expected = .ok expr) :
    typed = .ok (expr, expected) := by
  obtain ⟨⟨found, type⟩, same, rest⟩ := bind_eq_ok_iff.mp required
  simp only at rest
  split at rest
  · rename_i equal
    cases rest
    rw [same, equal]
  · cases rest

/-! ### Expressions -/

/-- What the checker makes of an expression: it is the same up to the types written on it,
and it has its type in every context that the tree shows. -/
structure Passed (tree : ScopeTree) (scope : ScopeId) (before after : Expr) (type : Ty) :
    Prop where
  typedOn : ∀ {context}, AgreesOn after.names tree scope context →
    HasType tree.lookupFunction? context after type
  erased : after.erase = before.erase

theorem Passed.typed {before : Expr} (passed : Passed tree scope before after type)
    (agrees : Agrees tree scope context) : HasType tree.lookupFunction? context after type :=
  passed.typedOn (agrees.on _)

/-- The type of the first element stays that of the whole literal. -/
theorem elements_decided {items after : List Expr} {element : Option Ty}
    (found : elements tree scope (some expected) items = .ok (after, element)) :
    element = some expected := by
  induction items generalizing after element with
  | nil =>
    cases found
    rfl
  | cons item rest inductionHypothesis =>
    rw [elements] at found
    obtain ⟨⟨typed, itemType⟩, _, found⟩ := bind_eq_ok_iff.mp found
    obtain ⟨agreed, isAgreed, found⟩ := bind_eq_ok_iff.mp found
    obtain ⟨⟨others, last⟩, othersFound, found⟩ := bind_eq_ok_iff.mp found
    cases found
    obtain ⟨rfl, _, same⟩ := agree_eq_ok isAgreed
    rw [same expected rfl] at othersFound
    exact inductionHypothesis othersFound

mutual

theorem expression_passed {expr after : Expr} {type : Ty}
    (found : expression tree scope expr = .ok (after, type)) :
    Passed tree scope expr after type := by
  match expr with
  | .literal note value =>
    obtain ⟨rfl, noted⟩ := finish_eq_ok found
    exact ⟨fun _ => .literal noted, rfl⟩
  | .array note items =>
    rw [expression] at found
    obtain ⟨⟨others, element⟩, elementsFound, found⟩ := bind_eq_ok_iff.mp found
    obtain ⟨array, isArray, found⟩ := bind_eq_ok_iff.mp found
    obtain ⟨each, nonempty, erased⟩ := elements_passed elementsFound
    obtain ⟨rfl, noted⟩ := finish_eq_ok found
    cases element with
    | none => cases isArray
    | some element =>
      cases isArray
      have some_items : others ≠ [] := fun none_left => by
        have unchanged := nonempty none_left
        cases unchanged
      obtain ⟨item, isItem⟩ := List.exists_mem_of_ne_nil _ some_items
      obtain ⟨_, same, scalar, _⟩ := each item isItem
      cases same
      refine ⟨fun agrees => .array some_items scalar ?_ noted, ?_⟩
      · intro other isOther
        obtain ⟨_, same, _, typed⟩ := each other isOther
        cases same
        exact typed (agrees.item isOther)
      · rw [Expr.erase_withType, Expr.erase, Expr.erase, erased]
  | .side note which =>
    obtain ⟨rfl, noted⟩ := finish_eq_ok found
    exact ⟨fun _ => .side noted, rfl⟩
  | .read note x y =>
    rw [expression] at found
    obtain ⟨first, firstFound, found⟩ := bind_eq_ok_iff.mp found
    obtain ⟨second, secondFound, found⟩ := bind_eq_ok_iff.mp found
    have passedX := expression_passed (require_eq_ok firstFound)
    have passedY := expression_passed (require_eq_ok secondFound)
    obtain ⟨rfl, noted⟩ := finish_eq_ok found
    exact ⟨fun agrees => .read (passedX.typedOn (agrees.mono (List.subset_append_left _ _)))
      (passedY.typedOn (agrees.mono (List.subset_append_right _ _))) noted, by
      rw [Expr.erase_withType, Expr.erase, Expr.erase, passedX.erased, passedY.erased]⟩
  | .randomInt note limit =>
    rw [expression] at found
    obtain ⟨bound, boundFound, found⟩ := bind_eq_ok_iff.mp found
    have passed := expression_passed (require_eq_ok boundFound)
    obtain ⟨rfl, noted⟩ := finish_eq_ok found
    exact ⟨fun agrees => .randomInt (passed.typedOn agrees) noted, by
      rw [Expr.erase_withType, Expr.erase, Expr.erase, passed.erased]⟩
  | .var note name =>
    rw [expression] at found
    obtain ⟨declared, isVariable, found⟩ := bind_eq_ok_iff.mp found
    obtain ⟨rfl, noted⟩ := finish_eq_ok found
    refine ⟨fun agrees => ?_, rfl⟩
    obtain ⟨denoted, denotes, rfl⟩ := variableType_eq_ok agrees List.mem_cons_self isVariable
    exact .var denotes noted
  | .index note name offset =>
    rw [expression] at found
    obtain ⟨declared, isVariable, found⟩ := bind_eq_ok_iff.mp found
    obtain ⟨element, isArray, found⟩ := bind_eq_ok_iff.mp found
    obtain ⟨place, placeFound, found⟩ := bind_eq_ok_iff.mp found
    have passed := expression_passed (require_eq_ok placeFound)
    obtain ⟨rfl, noted⟩ := finish_eq_ok found
    refine ⟨fun agrees => ?_, by
      rw [Expr.erase_withType, Expr.erase, Expr.erase, passed.erased]⟩
    obtain ⟨denoted, denotes, rfl⟩ := variableType_eq_ok agrees List.mem_cons_self isVariable
    exact .index denotes (elementType_eq_ok isArray)
      (passed.typedOn (agrees.mono (List.subset_cons_self _ _))) noted
  | .call note function items =>
    rw [expression] at found
    obtain ⟨signature, named, found⟩ := bind_eq_ok_iff.mp found
    split at found
    · cases found
    rename_i sameLength
    have arity := not_not.mp sameLength
    obtain ⟨others, itemsFound, found⟩ := bind_eq_ok_iff.mp found
    obtain ⟨length, each, erased⟩ := arguments_passed arity itemsFound
    obtain ⟨rfl, noted⟩ := finish_eq_ok found
    exact ⟨fun agrees => .call (callee_eq_ok named) (arity.trans length.symm)
      (fun pair isPair => each pair isPair (agrees.item (List.of_mem_zip isPair).1)) noted, by
      rw [Expr.erase_withType, Expr.erase, Expr.erase, erased]⟩
  | .group note inner =>
    rw [expression] at found
    obtain ⟨⟨other, innerType⟩, innerFound, found⟩ := bind_eq_ok_iff.mp found
    have passed := expression_passed innerFound
    obtain ⟨rfl, noted⟩ := finish_eq_ok found
    exact ⟨fun agrees => .group (passed.typedOn agrees) noted, by
      rw [Expr.erase_withType, Expr.erase, Expr.erase, passed.erased]⟩
  | .binary note left operator right =>
    rw [expression] at found
    obtain ⟨⟨⟨first, firstType⟩, ⟨second, secondType⟩⟩, bothFound, found⟩ :=
      bind_eq_ok_iff.mp found
    obtain ⟨result, isOperation, found⟩ := bind_eq_ok_iff.mp found
    obtain ⟨firstFound, secondFound⟩ := both_eq_ok bothFound
    obtain ⟨takes, rfl, rfl⟩ := operation_eq_ok isOperation
    have passedLeft := expression_passed firstFound
    have passedRight := expression_passed secondFound
    obtain ⟨rfl, noted⟩ := finish_eq_ok found
    refine ⟨fun agrees => ?_, by
      rw [Expr.erase_withType, Expr.erase, Expr.erase, passedLeft.erased, passedRight.erased]⟩
    exact .binary takes (passedLeft.typedOn (agrees.mono (List.subset_append_left _ _)))
      (passedRight.typedOn (agrees.mono (List.subset_append_right _ _))) noted
  | .unary note operator operand =>
    rw [expression] at found
    obtain ⟨⟨other, operandType⟩, operandFound, found⟩ := bind_eq_ok_iff.mp found
    have passed := expression_passed operandFound
    simp only at found
    split at found
    · rename_i takes
      obtain ⟨rfl, noted⟩ := finish_eq_ok found
      exact ⟨fun agrees => .unary takes (passed.typedOn agrees) noted, by
        rw [Expr.erase_withType, Expr.erase, Expr.erase, passed.erased]⟩
    · cases found

theorem elements_passed {first element : Option Ty} {items after : List Expr}
    (found : elements tree scope first items = .ok (after, element)) :
    (∀ item ∈ after, ∃ type, element = some type ∧ type.isArray = false ∧
      ∀ {context}, AgreesOn item.names tree scope context →
        HasType tree.lookupFunction? context item type) ∧
    (after = [] → element = first) ∧ eraseItems after = eraseItems items := by
  match items with
  | [] =>
    cases found
    exact ⟨nofun, fun _ => rfl, rfl⟩
  | item :: rest =>
    rw [elements] at found
    obtain ⟨⟨typed, itemType⟩, itemFound, found⟩ := bind_eq_ok_iff.mp found
    obtain ⟨agreed, isAgreed, found⟩ := bind_eq_ok_iff.mp found
    obtain ⟨⟨others, last⟩, othersFound, found⟩ := bind_eq_ok_iff.mp found
    cases found
    obtain ⟨rfl, scalar, _⟩ := agree_eq_ok isAgreed
    have passed := expression_passed itemFound
    obtain ⟨each, unchanged, erased⟩ := elements_passed othersFound
    refine ⟨?_, nofun, by rw [eraseItems, eraseItems, passed.erased, erased]⟩
    have decided : element = some agreed := elements_decided othersFound
    intro other isOther
    rcases List.mem_cons.mp isOther with rfl | later
    · exact ⟨agreed, decided, scalar, passed.typedOn⟩
    · exact each other later

theorem arguments_passed {function : String} {index : Nat} {parameters : List Ty}
    {items after : List Expr} (arity : parameters.length = items.length)
    (found : arguments tree scope function index parameters items = .ok after) :
    after.length = items.length ∧
    (∀ pair ∈ after.zip parameters, ∀ {context}, AgreesOn pair.1.names tree scope context →
      HasType tree.lookupFunction? context pair.1 pair.2) ∧
    eraseItems after = eraseItems items := by
  match parameters, items with
  | [], [] =>
    cases found
    exact ⟨rfl, nofun, rfl⟩
  | expected :: parameters, item :: rest =>
    rw [arguments] at found
    obtain ⟨⟨typed, itemType⟩, itemFound, checked⟩ := bind_eq_ok_iff.mp found
    have passed := expression_passed itemFound
    simp only at checked
    split at checked
    · rename_i same
      subst same
      obtain ⟨others, othersFound, ended⟩ := bind_eq_ok_iff.mp checked
      cases ended
      obtain ⟨length, each, erased⟩ := arguments_passed (Nat.succ.inj arity) othersFound
      refine ⟨by rw [List.length_cons, List.length_cons, length], ?_,
        by rw [eraseItems, eraseItems, passed.erased, erased]⟩
      intro pair isPair
      rw [List.zip_cons_cons] at isPair
      rcases List.mem_cons.mp isPair with rfl | later
      · exact passed.typedOn
      · exact each pair later
    · cases checked

end

/-! ### Complaints -/

/-- A result is sincere if it says what it complains about. -/
def Sincere {α : Type} (result : Except Complaints α) : Prop := result ≠ .error []

namespace Sincere

variable {α β : Type}

theorem ok (value : α) : Sincere (.ok value) := nofun

theorem complain (position : Position) (complaint : Complaint) :
    Sincere (complain position complaint : Except Complaints α) := nofun

theorem bind {first : Except Complaints α} {second : α → Except Complaints β}
    (start : Sincere first) (next : ∀ value, Sincere (second value)) :
    Sincere (first >>= second) := by
  cases first with
  | ok value => exact next value
  | error complaints => exact fun empty => start (by cases empty; rfl)

theorem both {first : Except Complaints α} {second : Except Complaints β}
    (left : Sincere first) (right : Sincere second) : Sincere (both first second) := by
  cases first <;> cases second <;> simp_all [Sincere, Typing.both]

theorem map {result : Except Complaints α} (sincere : Sincere result) (change : α → β) :
    Sincere (result.map change) := by
  cases result with
  | ok value => exact ok _
  | error complaints => exact fun empty => sincere (by cases empty; rfl)

/-- Only a good result has no complaints. -/
theorem eq_ok {result : Except Complaints α} (sincere : Sincere result)
    (fine : complaintsOf result = []) : ∃ value, result = .ok value := by
  cases result with
  | ok value => exact ⟨value, rfl⟩
  | error complaints => exact absurd (congrArg Except.error fine) sincere

end Sincere

theorem variableType_sincere (name : Ident) : Sincere (variableType tree scope name) := by
  unfold variableType
  split
  · exact .ok _
  · split <;> exact .complain _ _

theorem elementType_sincere (name : Ident) (type : Ty) : Sincere (elementType name type) := by
  unfold elementType
  split
  · exact .ok _
  · exact .complain _ _

theorem finish_sincere (expr : Expr) (type : Ty) : Sincere (finish expr type) := by
  refine Sincere.bind ?_ fun _ => .ok _
  unfold converted
  split
  · exact .ok _
  · split
    · exact .ok _
    · exact .complain _ _

theorem require_sincere {typed : Typed} (sincere : Sincere typed) (position : Position)
    (expected : Ty) : Sincere (require typed position expected) := by
  refine sincere.bind fun found => ?_
  dsimp only
  split
  · exact .ok _
  · exact .complain _ _

theorem fits_sincere {typed : Typed} (sincere : Sincere typed) (position : Position)
    (target : Ty) : Sincere (fits typed position target) := by
  refine sincere.bind fun found => ?_
  dsimp only
  split
  · exact .ok _
  · exact .complain _ _

mutual

theorem expression_sincere (expr : Expr) : Sincere (expression tree scope expr) := by
  match expr with
  | .literal _ _ | .side _ _ => exact finish_sincere _ _
  | .array _ items =>
    rw [expression]
    refine (elements_sincere none items).bind fun found => ?_
    refine Sincere.bind ?_ fun _ => finish_sincere _ _
    unfold arrayType
    split
    · exact .ok _
    · exact .complain _ _
  | .read _ x y =>
    rw [expression]
    refine (require_sincere (expression_sincere x) _ _).bind fun _ => ?_
    exact (require_sincere (expression_sincere y) _ _).bind fun _ => finish_sincere _ _
  | .randomInt _ limit =>
    rw [expression]
    exact (require_sincere (expression_sincere limit) _ _).bind fun _ => finish_sincere _ _
  | .var _ name =>
    rw [expression]
    exact (variableType_sincere _).bind fun _ => finish_sincere _ _
  | .index _ name offset =>
    rw [expression]
    refine (variableType_sincere _).bind fun _ => ?_
    refine (elementType_sincere _ _).bind fun _ => ?_
    exact (require_sincere (expression_sincere offset) _ _).bind fun _ => finish_sincere _ _
  | .call _ function items =>
    rw [expression]
    refine Sincere.bind ?_ fun signature => ?_
    · unfold callee
      split
      · exact .ok _
      · split <;> exact .complain _ _
    · split
      · exact .complain _ _
      · exact (arguments_sincere _ _ _ items).bind fun _ => finish_sincere _ _
  | .group _ inner =>
    rw [expression]
    exact (expression_sincere inner).bind fun _ => finish_sincere _ _
  | .binary _ left operator right =>
    rw [expression]
    refine ((expression_sincere left).both (expression_sincere right)).bind fun _ => ?_
    refine Sincere.bind ?_ fun _ => finish_sincere _ _
    unfold operation
    repeat' split
    all_goals first | exact .complain _ _ | exact .ok _
  | .unary _ operator operand =>
    rw [expression]
    refine (expression_sincere operand).bind fun _ => ?_
    dsimp only
    split
    · exact finish_sincere _ _
    · exact .complain _ _

theorem elements_sincere (first : Option Ty) (items : List Expr) :
    Sincere (elements tree scope first items) := by
  match items with
  | [] => exact .ok _
  | item :: rest =>
    rw [elements]
    refine (expression_sincere item).bind fun _ => ?_
    refine Sincere.bind ?_ fun _ => ?_
    · unfold agree
      repeat' split
      all_goals first | exact .complain _ _ | exact .ok _
    · exact (elements_sincere _ rest).bind fun _ => .ok _

theorem arguments_sincere (function : String) (index : Nat) (parameters : List Ty)
    (items : List Expr) : Sincere (arguments tree scope function index parameters items) := by
  match parameters, items with
  | expected :: parameters, item :: rest =>
    rw [arguments]
    refine (expression_sincere item).bind fun _ => ?_
    dsimp only
    split
    · exact (arguments_sincere _ _ parameters rest).bind fun _ => .ok _
    · exact .complain _ _
  | [], [] | [], _ :: _ | _ :: _, [] => exact .ok _

end

theorem expect_sincere (expr : Expr) (expected : Ty) : Sincere (expect tree scope expr expected) :=
  require_sincere (expression_sincere expr) _ _

end Typing

end PadLang
