/-
This file shows what the checker does to programs.

Whatever it complains about, the checker leaves a sound tree in which every scope it wrote on
the program exists. If it has nothing to complain about, the checked program is well scoped
in the context of its place and laid out by the tree, and it is the program that was read up
to types and scopes. It faults only on a type whose cells no counter can hold.
-/

import PadLang.Proofs.Typing.Expr

namespace PadLang

namespace Typing

variable {tree : ScopeTree} {scope : ScopeId} {context : Context} {position : Position}
  {expr after : Expr} {α : Type}

/-! ### Simple statements -/

theorem fits_eq_ok {typed : Typed} {target : Ty} (fitting : fits typed position target = .ok expr) :
    typed = .ok (expr, target) := by
  obtain ⟨⟨found, type⟩, same, rest⟩ := bind_eq_ok_iff.mp fitting
  simp only at rest
  split at rest
  · rename_i equal
    cases rest
    rw [same, equal]
  · cases rest

/-- What holds of a value that was there before and of one that is found holds in the end. -/
theorem valueOr_cases (holds : α → Prop) {before : α} {result : Except Complaints α}
    (kept : holds before) (passed : ∀ after, result = .ok after → holds after) :
    holds (valueOr before result) := by
  cases result with
  | error complaints => exact kept
  | ok after => exact passed after rfl

theorem expect_passed {type : Ty} (found : expect tree scope expr type = .ok after) :
    Passed tree scope expr after type :=
  expression_passed (require_eq_ok found)

theorem expect_erased (expr : Expr) (type : Ty) :
    (valueOr expr (expect tree scope expr type)).erase = expr.erase :=
  valueOr_cases (Expr.erase · = expr.erase) rfl fun _ found => (expect_passed found).erased

theorem assignment_sincere (made : Assignment) : Sincere (assignment tree scope made) := by
  unfold assignment
  refine (variableType_sincere _).bind fun target => ?_
  split
  · exact (fits_sincere (expression_sincere _) _ _).bind fun _ => .ok _
  · refine (elementType_sincere _ _).bind fun _ => ?_
    refine (expect_sincere _ _).bind fun _ => ?_
    exact (fits_sincere (expression_sincere _) _ _).bind fun _ => .ok _

theorem assignment_passed {made after : Assignment}
    (found : assignment tree scope made = .ok after) :
    (∀ {context}, Agrees tree scope context → after.Scoped tree.lookupFunction? context) ∧
      after.erase = made.erase := by
  obtain ⟨name, index, value⟩ := made
  obtain ⟨target, isVariable, found⟩ := bind_eq_ok_iff.mp found
  cases index with
  | none =>
    obtain ⟨value, valueFound, found⟩ := bind_eq_ok_iff.mp found
    cases found
    have passed := expression_passed (fits_eq_ok valueFound)
    refine ⟨fun agrees => ?_, by rw [Assignment.erase, Assignment.erase, passed.erased]⟩
    obtain ⟨denoted, denotes, rfl⟩ :=
      variableType_eq_ok (agrees.on [_]) List.mem_cons_self isVariable
    exact ⟨denoted, denotes, passed.typed agrees⟩
  | some index =>
    obtain ⟨element, isArray, found⟩ := bind_eq_ok_iff.mp found
    obtain ⟨offset, offsetFound, found⟩ := bind_eq_ok_iff.mp found
    obtain ⟨value, valueFound, found⟩ := bind_eq_ok_iff.mp found
    cases found
    have passedIndex := expect_passed offsetFound
    have passed := expression_passed (fits_eq_ok valueFound)
    refine ⟨fun agrees => ?_, by
      rw [Assignment.erase, Assignment.erase, passed.erased, Option.map_some, Option.map_some,
        passedIndex.erased]⟩
    obtain ⟨denoted, denotes, rfl⟩ :=
      variableType_eq_ok (agrees.on [_]) List.mem_cons_self isVariable
    exact ⟨denoted, denotes, element, elementType_eq_ok isArray, passedIndex.typed agrees,
      passed.typed agrees⟩

theorem action_sincere (done : Action) : Sincere (action tree scope done) := by
  cases done with
  | print value => exact (expression_sincere value).bind fun _ => .ok _
  | delay _ | clear _ => exact (expect_sincere _ _).bind fun _ => .ok _
  | write x y colour =>
    refine (expect_sincere _ _).bind fun _ => ?_
    refine (expect_sincere _ _).bind fun _ => ?_
    exact (expect_sincere _ _).bind fun _ => .ok _
  | writeBox x y width height colour =>
    refine (expect_sincere _ _).bind fun _ => ?_
    refine (expect_sincere _ _).bind fun _ => ?_
    refine (expect_sincere _ _).bind fun _ => ?_
    refine (expect_sincere _ _).bind fun _ => ?_
    exact (expect_sincere _ _).bind fun _ => .ok _

theorem action_passed {done after : Action} (found : action tree scope done = .ok after) :
    (∀ {context}, Agrees tree scope context → after.Scoped tree.lookupFunction? context) ∧
      after.erase = done.erase := by
  cases done with
  | print value =>
    obtain ⟨⟨value, type⟩, valueFound, found⟩ := bind_eq_ok_iff.mp found
    cases found
    have passed := expression_passed valueFound
    exact ⟨fun agrees => ⟨type, passed.typed agrees⟩, by
      rw [Action.erase, Action.erase, passed.erased]⟩
  | delay _ | clear _ =>
    obtain ⟨value, valueFound, found⟩ := bind_eq_ok_iff.mp found
    cases found
    have passed := expect_passed valueFound
    exact ⟨passed.typed, by rw [Action.erase, Action.erase, passed.erased]⟩
  | write x y colour =>
    obtain ⟨first, foundX, found⟩ := bind_eq_ok_iff.mp found
    obtain ⟨second, foundY, found⟩ := bind_eq_ok_iff.mp found
    obtain ⟨paint, foundColour, found⟩ := bind_eq_ok_iff.mp found
    cases found
    have passedX := expect_passed foundX
    have passedY := expect_passed foundY
    have passed := expect_passed foundColour
    exact ⟨fun agrees => ⟨passedX.typed agrees, passedY.typed agrees, passed.typed agrees⟩, by
      rw [Action.erase, Action.erase, passedX.erased, passedY.erased, passed.erased]⟩
  | writeBox x y width height colour =>
    obtain ⟨first, foundX, found⟩ := bind_eq_ok_iff.mp found
    obtain ⟨second, foundY, found⟩ := bind_eq_ok_iff.mp found
    obtain ⟨third, foundWidth, found⟩ := bind_eq_ok_iff.mp found
    obtain ⟨fourth, foundHeight, found⟩ := bind_eq_ok_iff.mp found
    obtain ⟨paint, foundColour, found⟩ := bind_eq_ok_iff.mp found
    cases found
    have passedX := expect_passed foundX
    have passedY := expect_passed foundY
    have passedWidth := expect_passed foundWidth
    have passedHeight := expect_passed foundHeight
    have passed := expect_passed foundColour
    exact ⟨fun agrees => ⟨passedX.typed agrees, passedY.typed agrees, passedWidth.typed agrees,
      passedHeight.typed agrees, passed.typed agrees⟩, by
      rw [Action.erase, Action.erase, passedX.erased, passedY.erased, passedWidth.erased,
        passedHeight.erased, passed.erased]⟩

theorem returnedValue_sincere (enclosing : Enclosing) (position : Position) (value : Expr) :
    Sincere (returnedValue tree scope enclosing position value) := by
  unfold returnedValue
  split
  · exact .complain _ _
  · refine (expression_sincere value).bind fun _ => ?_
    dsimp only
    split
    · exact .ok _
    · exact .complain _ _

theorem returnedValue_passed {enclosing : Enclosing} {value : Expr}
    (found : returnedValue tree scope enclosing position value = .ok after) :
    ∃ type, enclosing.map Prod.snd = some type ∧ Passed tree scope value after type := by
  unfold returnedValue at found
  split at found
  · cases found
  · rename_i function returns
    obtain ⟨⟨typed, type⟩, valueFound, checked⟩ := bind_eq_ok_iff.mp found
    simp only at checked
    split at checked
    · rename_i same
      cases checked
      exact ⟨returns, rfl, expression_passed (same ▸ valueFound)⟩
    · cases checked

theorem loopUpdate_sincere (update : Option Assignment) :
    Sincere (loopUpdate tree scope update) := by
  cases update with
  | none => exact .ok _
  | some made => exact (assignment_sincere made).bind fun _ => .ok _

theorem loopUpdate_passed {update after : Option Assignment}
    (found : loopUpdate tree scope update = .ok after) :
    (∀ {context}, Agrees tree scope context →
      ∀ made ∈ after, made.Scoped tree.lookupFunction? context) ∧
      after.map Assignment.erase = update.map Assignment.erase := by
  cases update with
  | none =>
    cases found
    exact ⟨fun _ => nofun, rfl⟩
  | some made =>
    obtain ⟨checked, isChecked, same⟩ := bind_eq_ok_iff.mp found
    cases same
    obtain ⟨inScope, erased⟩ := assignment_passed isChecked
    refine ⟨fun agrees other isOther => ?_, by rw [Option.map_some, Option.map_some, erased]⟩
    cases isOther
    exact inScope agrees

theorem loopUpdate_erased (update : Option Assignment) :
    (valueOr update (loopUpdate tree scope update)).map Assignment.erase =
      update.map Assignment.erase :=
  valueOr_cases (Option.map Assignment.erase · = update.map Assignment.erase) rfl
    fun _ found => (loopUpdate_passed found).2

theorem map_eq_ok {β : Type} {result : Except Complaints α} {change : α → β} {value : β}
    (found : result.map change = .ok value) :
    ∃ inner, result = .ok inner ∧ change inner = value := by
  cases result with
  | error complaints => cases found
  | ok inner => exact ⟨inner, rfl, by cases found; rfl⟩

/-! ### Declarations -/

theorem declareVariable_meets (sound : tree.Sound) (inside : scope < tree.size) (name : Ident)
    (type : Ty) :
    Meets type.Sized
      (fun result => result.1.Sound ∧ result.1.size = tree.size ∧
        (result.2 = [] → ScopeTree.Evolves scope [(name.value, type)] tree result.1))
      (declareVariable tree scope name type) := by
  unfold declareVariable
  split
  · exact Meets.pure ⟨sound, rfl, nofun⟩
  obtain ⟨row, found⟩ := ScopeTree.exists_row? inside
  refine Meets.bind (ScopeTree.declare_var_meets found id) fun result made => ?_
  cases result with
  | error conflict => exact Meets.pure ⟨sound, rfl, nofun⟩
  | ok after =>
    obtain ⟨absent, sized, fits, size, rows⟩ := made after rfl
    have tidy := (sound.tidy found).declaring absent sized fits
    refine Meets.pure ⟨sound.update found rows rfl rfl rfl tidy, size, fun _ => ?_⟩
    refine ⟨Nat.le_of_eq size.symm, ?_, ?_⟩
    · intro id _ other
      rw [rows, Function.update_of_ne other]
    · intro old foundOld
      rw [found] at foundOld
      cases foundOld
      rw [rows, Function.update_self]

theorem parameters_meets (sound : tree.Sound) (inside : scope < tree.size)
    (params : List Parameter) :
    Meets (∀ parameter ∈ params, parameter.type.value.Sized)
      (fun result => result.1.Sound ∧ result.1.size = tree.size ∧
        (result.2 = [] → ScopeTree.Evolves scope (parameterVars params) tree result.1))
      (parameters tree scope params) := by
  induction params generalizing tree with
  | nil => exact Meets.ok ⟨sound, rfl, fun _ => .refl⟩
  | cons parameter rest inductionHypothesis =>
    refine Meets.bind ((declareVariable_meets sound inside _ _).weaken
      fun sized => sized parameter List.mem_cons_self) ?_
    rintro ⟨declared, first⟩ ⟨soundDeclared, size, evolves⟩
    refine Meets.bind ((inductionHypothesis soundDeclared (by rw [size]; exact inside)).weaken
      fun sized other isOther => sized other (List.mem_cons_of_mem _ isOther)) ?_
    rintro ⟨grown, others⟩ ⟨soundGrown, sameSize, evolvesMore⟩
    refine Meets.pure ⟨soundGrown, sameSize.trans size, fun fine => ?_⟩
    obtain ⟨firstFine, othersFine⟩ := List.append_eq_nil_iff.mp fine
    exact (evolves firstFine).trans (evolvesMore othersFine)

/-- What checking a declaration does. -/
theorem declaration_meets (sound : tree.Sound) (inside : scope < tree.size) (made : Declaration) :
    Meets made.type.value.Sized
      (fun checked => checked.tree.Sound ∧ checked.tree.size = tree.size ∧
        checked.value.erase = made.erase ∧
        (checked.complaints = [] →
          ScopeTree.Evolves scope (initVars (some made)) tree checked.tree ∧
          ∀ context, Agrees tree scope context →
            checked.value.Scoped tree.lookupFunction? context))
      (declaration tree scope made) := by
  refine Meets.bind (declareVariable_meets sound inside _ _) ?_
  rintro ⟨declared, conflicts⟩ ⟨soundDeclared, size, evolves⟩
  have erased : (valueOr made.value ((expression tree scope made.value).map Prod.fst)).erase =
      made.value.erase := by
    refine valueOr_cases (Expr.erase · = made.value.erase) rfl fun after found => ?_
    obtain ⟨typed, isTyped, rfl⟩ := map_eq_ok found
    exact (expression_passed isTyped).erased
  refine Meets.pure ⟨soundDeclared, size, congrArg (Declaration.mk _ _) erased, fun fine => ?_⟩
  by_cases clear : conflicts = []
  · rw [if_pos clear] at fine
    obtain ⟨value, fitting⟩ := (fits_sincere (expression_sincere made.value) _ _).eq_ok fine
    have typed := fits_eq_ok fitting
    refine ⟨evolves clear, fun context agrees => ?_⟩
    have passed := expression_passed typed
    have changed :
        valueOr made.value ((expression tree scope made.value).map Prod.fst) = value := by
      rw [typed]
      rfl
    rw [changed]
    exact passed.typed agrees
  · rw [if_neg clear] at fine
    exact absurd (List.append_eq_nil_iff.mp fine).2 clear

theorem loopInit_meets (sound : tree.Sound) (inside : scope < tree.size)
    (init : Option Declaration) :
    Meets (∀ made ∈ init, made.type.value.Sized)
      (fun checked => checked.tree.Sound ∧ checked.tree.size = tree.size ∧
        checked.value.map Declaration.erase = init.map Declaration.erase ∧
        (checked.complaints = [] →
          ScopeTree.Evolves scope (initVars init) tree checked.tree ∧
          ∀ context, Agrees tree scope context →
            ∀ made ∈ checked.value, made.Scoped tree.lookupFunction? context))
      (loopInit tree scope init) := by
  cases init with
  | none => exact Meets.ok ⟨sound, rfl, rfl, fun _ => ⟨.refl, fun _ _ => nofun⟩⟩
  | some made =>
    refine Meets.bind ((declaration_meets sound inside made).weaken fun sized => sized made rfl) ?_
    rintro checked ⟨soundChecked, size, erased, accepted⟩
    refine Meets.pure ⟨soundChecked, size, congrArg some erased, fun fine => ?_⟩
    obtain ⟨evolves, passed⟩ := accepted fine
    refine ⟨evolves, fun context agrees other isOther => ?_⟩
    cases isOther
    exact passed context agrees

end Typing

end PadLang
