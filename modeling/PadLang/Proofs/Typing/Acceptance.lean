/-
This file shows that the checker decides the rules for statements and programs.

The checker declares names one at a time and complains about the first that a scope cannot hold;
the rules ask whether a scope can hold all of its variables. Both come to the same because a
scope that can hold variables can hold any number of the first of them. As long as there is
nothing to complain about, the tree shows what is visible by the rules, so the induction over the
checker gives an equivalence for each statement. After a complaint the tree may show anything,
but then the rules do not hold either.
-/

import PadLang.Proofs.Typing.Deciding
import PadLang.Proofs.Typing.Program

namespace PadLang

variable {name : String} {functions : Functions} {kind : ScopeKind} {vars : Vars} {row : Scope}
  {returns : Option Ty} {visible : Visible} {safe : Prop}

/-! ### Functions around a scope -/

namespace ScopeTree

variable {tree after : ScopeTree} {scope : ScopeId} {id : Nat}

theorem Rooted.mem_ancestors_self (rooted : tree.Rooted) (inside : id < tree.size) :
    id ∈ tree.ancestors id := by
  obtain ⟨row, found⟩ := exists_row? inside
  by_cases isRoot : id = global
  · subst isRoot
    rw [rooted.ancestors_global]
    exact List.mem_cons_self
  · obtain ⟨parent, child, _⟩ := rooted.above found isRoot
    rw [rooted.ancestors_child found child]
    exact List.mem_cons_self

/-- The functions around an old scope stay the same if old scopes keep their functions. -/
theorem functionInChain_congr (rooted : tree.Rooted) (inside : id < tree.size)
    (shape : ∀ old : Nat, old < tree.size → after.outline? old = tree.outline? old)
    (same : ∀ old : Nat, old < tree.size → after.functionIn? name old = tree.functionIn? name old) :
    after.functionInChain id name = tree.functionInChain id name := by
  have closed := rooted.parent_lt_of_outline? tree.size
  have walk : after.ancestors id = tree.ancestors id := ancestors_congr shape closed inside
  rw [functionInChain, functionInChain, walk, Bool.eq_iff_iff, List.any_eq_true, List.any_eq_true]
  refine exists_congr fun ancestor => and_congr_right fun member => ?_
  rw [same ancestor (mem_of_mem_climb (fun old => (old : Nat) < tree.size) closed _ inside
    ancestor member)]

/-- These functions can be called, and no others are declared around a scope. -/
structure Knows (functions : Functions) (tree : ScopeTree) (scope : ScopeId) : Prop where
  calls : tree.lookupFunction? = functions
  around : ∀ name, tree.functionInChain scope name = (functions name).isSome

theorem Knows.evolves {functions : Functions} {added : Vars} (knows : Knows functions tree scope)
    (rooted : tree.Rooted) (inside : scope < tree.size)
    (evolves : Evolves scope added tree after) : Knows functions after scope where
  calls := (funext fun name => evolves.lookupFunction?_eq rooted name).trans knows.calls
  around name := by
    rw [← knows.around name]
    refine functionInChain_congr rooted inside (fun _ old => evolves.outline?_eq old) ?_
    intro old isOld
    rw [functionIn?_eq, functionIn?_eq]
    by_cases same : old = scope
    · subst same
      obtain ⟨row, found⟩ := exists_row? isOld
      rw [found, evolves.here found]
      exact Scope.findFunction?_declaring added name
    · rw [evolves.kept isOld same]

/-- A scope that was just opened declares no functions. -/
theorem Knows.open {parent : Nat} {called : Option String} (knows : Knows functions tree parent)
    (sound : tree.Sound) (opened : tree.Opened parent kind called after) :
    Knows functions after tree.size where
  calls := by
    have evolves : Evolves parent [] tree after := .enclose opened .refl
    exact (funext fun name => evolves.lookupFunction?_eq sound.rooted name).trans knows.calls
  around name := by
    have fresh : after.functionIn? name tree.size = none := by
      rw [functionIn?_eq, opened.row?_new]
      rfl
    have outer : after.functionInChain parent name = tree.functionInChain parent name := by
      refine functionInChain_congr sound.rooted opened.inside (fun _ => opened.outline?_old) ?_
      intro id isOld
      rw [functionIn?_eq, functionIn?_eq, opened.row?_old isOld]
    rw [functionInChain, (opened.sound sound).rooted.ancestors_child opened.row?_new rfl,
      List.any_cons, fresh, Option.isSome_none, Bool.false_or, ← knows.around name, ← outer]
    rfl

/-- A place that the checker comes to while it has nothing to complain about: these functions are
known there, and this is visible. -/
structure Stands (functions : Functions) (tree : ScopeTree) (scope : ScopeId)
    (context : Context) : Prop where
  sound : tree.Sound
  inside : scope < tree.size
  knows : tree.Knows functions scope
  shows : tree.Shows scope context

namespace Stands

variable {context : Context}

variable (place : Stands functions tree scope context)

include place

/-- More variables are declared in the same scope. -/
theorem evolves {added : Vars} (sound : after.Sound) (size : tree.size ≤ after.size)
    (evolves : Evolves scope added tree after) :
    Stands functions after scope (context.declare added) where
  sound := sound
  inside := Nat.lt_of_lt_of_le place.inside size
  knows := place.knows.evolves place.sound.rooted place.inside evolves
  shows := evolves.shows place.sound.rooted place.inside place.shows

/-- A scope is opened that shows something. -/
theorem opened {called : Option String} {inner : Context}
    (opened : tree.Opened scope kind called after) (shows : after.Shows tree.size inner) :
    Stands functions after tree.size inner where
  sound := opened.sound place.sound
  inside := opened.lt_size
  knows := place.knows.open place.sound opened
  shows := shows

theorem sees : Typing.Sees tree scope (context.map Layer.vars) :=
  Typing.sees_of_shows place.shows place.sound.tidy

end Stands

end ScopeTree

/-! ### Variables that one scope may hold -/

theorem declarable_append_singleton {type : Ty} :
    Declarable functions (vars ++ [(name, type)]) ↔
      Declarable functions vars ∧ functions name = none ∧ name ∉ vars.map Prod.fst ∧
        vars.cells + type.size < Counter.bound := by
  have keys : (vars ++ [(name, type)]).map Prod.fst = vars.map Prod.fst ++ [name] := by simp
  have cells : Vars.cells (vars ++ [(name, type)]) = vars.cells + type.size := by simp
  constructor
  · rintro ⟨distinct, unshared, fits⟩
    rw [keys] at distinct unshared
    rw [cells] at fits
    rw [List.nodup_append] at distinct
    rw [List.forall_mem_append] at unshared
    refine ⟨⟨distinct.1, unshared.1, by omega⟩, unshared.2 name List.mem_cons_self, ?_, fits⟩
    exact fun member => distinct.2.2 name member name List.mem_cons_self rfl
  · rintro ⟨declarable, unshared, absent, fits⟩
    refine ⟨?_, ?_, by rw [cells]; exact fits⟩
    · rw [keys, List.nodup_append]
      refine ⟨declarable.distinct, by simp, ?_⟩
      rintro other member _ isName rfl
      exact absent (List.mem_singleton.mp isName ▸ member)
    · rw [keys, List.forall_mem_append]
      refine ⟨declarable.unshared, fun other isName => ?_⟩
      rw [List.mem_singleton.mp isName]
      exact unshared

/-- A scope that may hold variables may hold some of them. -/
theorem Declarable.sublist {fewer : Vars} (declarable : Declarable functions vars)
    (part : fewer.Sublist vars) : Declarable functions fewer where
  distinct := declarable.distinct.sublist (part.map _)
  unshared name member := declarable.unshared name ((part.map _).subset member)
  fits := by
    refine Nat.lt_of_le_of_lt ?_ declarable.fits
    exact (part.map fun entry => entry.2.size).sum_le_sum fun _ _ => Nat.zero_le _

/-- A scope that can hold variables can hold the first of them. -/
theorem Declarable.of_append {more : Vars} (declarable : Declarable functions (vars ++ more)) :
    Declarable functions vars :=
  declarable.sublist (List.sublist_append_left _ _)

theorem declarable_nil (functions : Functions) : Declarable functions [] where
  distinct := List.nodup_nil
  unshared := nofun
  fits := by
    rw [Vars.cells_nil, Counter.bound]
    omega

namespace Typing

variable {tree : ScopeTree} {scope : ScopeId} {layer : Layer} {outer : Context}

/-! ### Declarations -/

/-- A scope does not have a name just if none of its variables does, where no function does. -/
theorem find?_eq_none_iff_of_locals (distinct : (row.symbols.map Prod.fst).Nodup)
    (localsOf : row.locals = unplaced vars) (unshared : row.findFunction? name = none) :
    row.find? name = none ↔ name ∉ vars.map Prod.fst := by
  have keys : row.locals.map Prod.fst = vars.map Prod.fst := by
    rw [localsOf, unplaced, List.map_map]
    rfl
  rw [← keys, ← lookup_eq_none_iff_notMem_keys, ← Scope.findVariable?_eq_lookup distinct,
    Scope.findVariable?]
  cases found : row.find? name with
  | none => exact iff_of_true rfl rfl
  | some symbol =>
    rw [Scope.findFunction?, found] at unshared
    cases symbol with
    | var info => simp [Symbol.asVariable?]
    | function signature => cases unshared

/-- The innermost scope of what a scope shows is the scope itself. -/
theorem scope_eq_of_shows (rooted : tree.Rooted) (inside : scope < tree.size)
    (shows : tree.Shows scope (layer :: outer)) : layer.scope = scope := by
  obtain ⟨rest, visible, _⟩ := rooted.visible_eq_cons inside
  have scopes := shows.visible.symm.trans visible
  rw [List.map_cons, List.cons.injEq] at scopes
  exact scopes.1

section Declarations

variable (place : tree.Stands functions scope (layer :: outer))
  (declarable : Declarable functions layer.vars)

include place declarable

theorem declareVariable_decides (name : Ident) (type : Ty) :
    Meets type.Sized
      (fun result => result.2 = [] ↔ Declarable functions (layer.vars ++ [(name.value, type)]))
      (declareVariable tree scope name type) := by
  rw [declarable_append_singleton]
  unfold declareVariable
  split
  · rename_i shared
    rw [place.knows.around] at shared
    refine Meets.pure (iff_of_false (List.cons_ne_nil _ _) ?_)
    rintro ⟨_, unshared, _⟩
    rw [unshared] at shared
    cases shared
  rename_i unshared
  obtain ⟨row, found, localsOf⟩ := place.shows.rows layer List.mem_cons_self
  rw [scope_eq_of_shows place.sound.rooted place.inside place.shows] at found
  have tidy := place.sound.tidy found
  have noFunction : functions name.value = none := by simpa [place.knows.around] using unshared
  have noFunctionHere : row.findFunction? name.value = none := by
    have none_around := unshared
    rw [ScopeTree.functionInChain, List.any_eq_true, not_exists] at none_around
    have none_here := none_around scope
    rw [ScopeTree.functionIn?_eq, found, Option.bind_some] at none_here
    simpa [place.sound.rooted.mem_ancestors_self place.inside] using none_here
  have absentIff := find?_eq_none_iff_of_locals tidy.distinct localsOf noFunctionHere
  have slots : row.declaredSlots = layer.vars.cells := by
    rw [tidy.counted, localsOf, unplaced, List.map_map]
    rfl
  have counted : Meets type.Sized _ (Symbol.var { type }).slots := Ty.slots_meets id
  refine Meets.bind (ScopeTree.declare_meets found counted) ?_
  rintro result ⟨decides, _⟩
  rw [slots, absentIff] at decides
  cases result with
  | error conflict =>
    refine Meets.pure (iff_of_false (List.cons_ne_nil _ _) ?_)
    rintro ⟨_, _, room⟩
    cases decides.mpr room with
    | intro declared same => cases same
  | ok declared => exact Meets.pure (iff_of_true rfl ⟨declarable, noFunction, decides.mp ⟨_, rfl⟩⟩)

theorem parameters_decides (params : List Parameter) :
    Meets (∀ parameter ∈ params, parameter.type.value.Sized)
      (fun result => result.2 = [] ↔ Declarable functions (layer.vars ++ parameterVars params))
      (parameters tree scope params) := by
  induction params generalizing tree layer with
  | nil =>
    rw [parameterVars, List.map_nil, List.append_nil]
    exact Meets.ok (iff_of_true rfl declarable)
  | cons parameter rest inductionHypothesis =>
    have split : layer.vars ++ parameterVars (parameter :: rest) =
        (layer.vars ++ [(parameter.name.value, parameter.type.value)]) ++ parameterVars rest := by
      simp [parameterVars]
    rw [split, List.forall_mem_cons]
    refine Meets.bind
      (((declareVariable_decides place declarable parameter.name parameter.type.value).and
        (declareVariable_meets place.sound place.inside _ _)).weaken And.left) ?_
    rintro ⟨declared, conflicts⟩ ⟨decides, sound, size, evolves⟩
    dsimp only at decides size evolves
    refine Meets.bind (((parameters_meets sound (size ▸ place.inside) rest).only_if fun fine =>
      inductionHypothesis (place.evolves sound size.ge (evolves fine))
        (decides.mp fine)).weaken And.right) ?_
    rintro ⟨grown, others⟩ ⟨_, decidesRest⟩
    refine Meets.pure ?_
    rw [List.append_eq_nil_iff, and_congr_right decidesRest, decides]
    exact and_iff_right_of_imp Declarable.of_append

theorem declaration_decides (made : Declaration) :
    Meets made.type.value.Sized
      (fun checked => checked.complaints = [] ↔
        made.WellTyped functions ((layer :: outer).map Layer.vars) ∧
          Declarable functions (layer.vars ++ initVars (some made)))
      (declaration tree scope made) := by
  refine Meets.bind (declareVariable_decides place declarable made.name made.type.value) ?_
  rintro ⟨declared, conflicts⟩ decides
  refine Meets.pure ?_
  dsimp only at decides ⊢
  by_cases clear : conflicts = []
  · rw [if_pos clear, (fits_sincere (expression_sincere made.value) _ _).complaintsOf_eq_nil_iff,
      fits_succeeds_iff place.sees, place.knows.calls]
    exact (and_iff_left (decides.mp clear)).symm
  · rw [if_neg clear]
    refine iff_of_false ?_ fun both => clear (decides.mpr both.2)
    exact fun none_left => clear (List.append_eq_nil_iff.mp none_left).2

theorem loopInit_decides (init : Option Declaration) :
    Meets (∀ made ∈ init, made.type.value.Sized)
      (fun checked => checked.complaints = [] ↔
        (∀ made ∈ init, made.WellTyped functions ((layer :: outer).map Layer.vars)) ∧
          Declarable functions (layer.vars ++ initVars init))
      (loopInit tree scope init) := by
  cases init with
  | none =>
    rw [initVars, List.append_nil]
    exact Meets.ok (iff_of_true rfl ⟨nofun, declarable⟩)
  | some made =>
    refine Meets.bind ((declaration_decides place declarable made).weaken
      fun sized => sized made rfl) fun checked decides => ?_
    refine Meets.pure (decides.trans (and_congr_left' ?_))
    simp

end Declarations

/-! ### Statements -/

/-- What the checker asks of a statement: functions stand at the top level, everything else is
well typed where it stands. -/
def Passes (functions : Functions) (returns : Option Ty) (visible : Visible) (atTop : Prop) :
    Stmt → Prop
  | .function _ header body =>
    atTop ∧ Declarable functions (parameterVars header.parameters) ∧
      body.WellTyped functions (some header.returns.value) [parameterVars header.parameters]
  | statement => statement.WellTyped functions returns visible

/-- What the checker asks of statements that follow one another. -/
def allPass (functions : Functions) (returns : Option Ty) (visible : Visible) (atTop : Prop) :
    List Stmt → Prop
  | [] => True
  | first :: rest =>
    Passes functions returns visible atTop first ∧
      allPass functions returns (visible.declare first.declares) atTop rest

theorem passes_below_iff {statement : Stmt} :
    Passes functions returns visible False statement ↔
      statement.WellTyped functions returns visible := by
  cases statement with
  | function span header body => simp [Passes, Stmt.WellTyped]
  | _ => rfl

theorem allPass_below_iff {statements : List Stmt} :
    allPass functions returns visible False statements ↔
      allWellTyped functions returns visible statements := by
  induction statements generalizing visible with
  | nil => rfl
  | cons first rest inductionHypothesis =>
    rw [allPass, allWellTyped, passes_below_iff, inductionHypothesis]

/-- At the top level functions can be asked apart from the other statements. -/
theorem allPass_top_iff {statements : List Stmt} :
    allPass functions returns visible True statements ↔
      (∀ span header body, .function span header body ∈ statements →
        Declarable functions (parameterVars header.parameters) ∧
          body.WellTyped functions (some header.returns.value)
            [parameterVars header.parameters]) ∧
        allWellTyped functions returns visible
          (statements.filter fun statement => !statement.isFunction) := by
  induction statements generalizing visible with
  | nil => simp [allPass, allWellTyped]
  | cons first rest inductionHypothesis =>
    rw [allPass, inductionHypothesis]
    by_cases isFunction : first.isFunction = true
    · obtain ⟨span, header, body, rfl⟩ := Stmt.exists_eq_function isFunction
      have unchanged : visible.declare (Stmt.function span header body).declares = visible := by
        cases visible <;> simp [Visible.declare, Stmt.declares]
      rw [List.filter_cons_of_neg (by simp [isFunction]), unchanged, Passes, true_and, ← and_assoc]
      refine and_congr_left' ⟨?_, ?_⟩
      · rintro ⟨firstPasses, restPass⟩ otherSpan otherHeader otherBody member
        rcases List.mem_cons.mp member with same | later
        · cases same
          exact firstPasses
        · exact restPass otherSpan otherHeader otherBody later
      · intro each
        refine ⟨each span header body List.mem_cons_self, ?_⟩
        intro otherSpan otherHeader otherBody later
        exact each otherSpan otherHeader otherBody (List.mem_cons_of_mem _ later)
    · have noFunction {span header body} : first ≠ .function span header body := by
        rintro rfl
        exact isFunction rfl
      have asTyped : Passes functions returns visible True first ↔
          first.WellTyped functions returns visible := by
        cases first with
        | function span header body => exact absurd rfl isFunction
        | _ => rfl
      rw [List.filter_cons_of_pos (by simp [isFunction]), allWellTyped, asTyped]
      simp only [List.mem_cons, noFunction.symm, false_or]
      exact and_left_comm

section Clauses

/-- A check without declarations succeeds just if the rules hold. -/
theorem pureCheck_decides {α : Type} {before : Stmt} {result : Except Complaints α}
    {change : α → Stmt} {holds : Prop} (declarable : Declarable functions vars)
    (declaresNone : before.declares = []) (sincere : Sincere result)
    (decides : Succeeds result ↔ holds) :
    Meets safe
      (fun checked : Checked Stmt => checked.complaints = [] ↔
        holds ∧ Declarable functions (vars ++ before.declares))
      (.ok (pureCheck tree before (result.map change))) := by
  refine Meets.ok ?_
  rw [declaresNone, List.append_nil, and_iff_left declarable, ← decides, pureCheck,
    (sincere.map change).complaintsOf_eq_nil_iff, succeeds_map_iff]

theorem expect_decides (place : tree.Stands functions scope outer) (condition : Expr) (type : Ty) :
    complaintsOf (expect tree scope condition type) = [] ↔
      OfType functions (outer.map Layer.vars) condition type := by
  rw [(expect_sincere condition type).complaintsOf_eq_nil_iff, expect_succeeds_iff place.sees,
    place.knows.calls]

end Clauses

/-! ### Blocks and statements -/

/-- The checker decides about a block wherever it stands. -/
def DecidesBlock (functions : Functions) (enclosing : Enclosing) (kind : ScopeKind)
    (before : Block) : Prop :=
  ∀ ⦃tree : ScopeTree⦄ ⦃scope : ScopeId⦄ ⦃context : Context⦄, tree.Stands functions scope context →
    Meets before.Sized
      (fun checked => checked.complaints = [] ↔
        before.WellTyped functions (enclosing.map Prod.snd) (context.map Layer.vars))
      (block tree scope enclosing kind before)

/-- The checker decides about statements that follow one another, wherever they stand. -/
def DecidesAll (functions : Functions) (enclosing : Enclosing) (before : List Stmt) : Prop :=
  ∀ ⦃tree : ScopeTree⦄ ⦃scope : ScopeId⦄ ⦃layer : Layer⦄ ⦃outer : Context⦄,
    tree.Stands functions scope (layer :: outer) → Declarable functions layer.vars →
    Meets (allSized before)
      (fun checked => checked.complaints = [] ↔
        allPass functions (enclosing.map Prod.snd) ((layer :: outer).map Layer.vars)
            (scope = ScopeTree.global) before ∧
          Declarable functions (layer.vars ++ declaredBy before))
      (statements tree scope enclosing before)

/-- The checker decides about a statement wherever it stands. -/
def DecidesStmt (functions : Functions) (enclosing : Enclosing) (before : Stmt) : Prop :=
  ∀ ⦃tree : ScopeTree⦄ ⦃scope : ScopeId⦄ ⦃layer : Layer⦄ ⦃outer : Context⦄,
    tree.Stands functions scope (layer :: outer) → Declarable functions layer.vars →
    Meets before.Sized
      (fun checked => checked.complaints = [] ↔
        Passes functions (enclosing.map Prod.snd) ((layer :: outer).map Layer.vars)
            (scope = ScopeTree.global) before ∧
          Declarable functions (layer.vars ++ before.declares))
      (statement tree scope enclosing before)

section Nesting

variable {enclosing : Enclosing} {span : Span} {old : Option ScopeId} {position : Position}
  {body : List Stmt} {condition : Expr}

theorem DecidesAll.block (decidesBody : DecidesAll functions enclosing body)
    (notFunction : kind ≠ .function) :
    DecidesBlock functions enclosing kind (.mk position old body) := by
  intro tree scope context place
  rw [Typing.block]
  refine ScopeTree.openScope_meets place.inside (absurd · notFunction) fun inner opened => ?_
  have below : (tree.size = ScopeTree.global) = False :=
    eq_false (Nat.ne_of_gt place.sound.rooted.global_lt)
  have shown := place.shows.open place.sound opened notFunction
  refine Meets.bind (decidesBody (place.opened opened shown) (declarable_nil functions))
    fun checked decides => ?_
  rw [below, allPass_below_iff, List.nil_append] at decides
  exact Meets.pure (decides.trans and_comm)

/-- A function may stand at the top level only. Its parameters are declared before its body is
checked. -/
theorem DecidesBlock.function {header : Header} {body : Block}
    (decidesBody : DecidesBlock functions (some (header.name.value, header.returns.value)) .block
      body) : DecidesStmt functions enclosing (.function span header body) := by
  intro tree scope layer outer place declarable
  rw [statement]
  split
  · rename_i below
    exact Meets.ok (iff_of_false (List.cons_ne_nil _ _) fun both => below both.1.1)
  rename_i atTop
  refine ScopeTree.openScope_meets place.inside (fun _ => Option.some_ne_none _)
    fun inner opened => ?_
  have entered := place.opened opened (ScopeTree.Shows.openFunction place.sound opened rfl)
  refine Meets.bind (((parameters_decides entered (declarable_nil functions) header.parameters).and
    (parameters_meets entered.sound entered.inside header.parameters)).weaken And.left) ?_
  rintro ⟨declared, conflicts⟩ ⟨decides, sound, sameSize, evolves⟩
  dsimp only at decides sound sameSize evolves
  refine Meets.bind (((block_meets sound (sameSize ▸ entered.inside) _ .block (by decide)
    body).only_if fun fine => decidesBody (entered.evolves sound sameSize.ge
      (evolves fine))).weaken And.right) ?_
  rintro checked ⟨_, decidesBody⟩
  refine Meets.pure ?_
  rw [Stmt.declares, List.append_nil, and_iff_left declarable, List.append_eq_nil_iff,
    and_congr_right decidesBody, decides]
  exact (and_iff_right (not_not.mp atTop)).symm

/-- The second branch is checked in the tree that the first one leaves. -/
theorem DecidesBlock.conditional {first second : Block}
    (decidesFirst : DecidesBlock functions enclosing .consequent first)
    (decidesSecond : DecidesBlock functions enclosing .alternative second) :
    DecidesStmt functions enclosing (.conditional span condition first (some second)) := by
  intro tree scope layer outer place declarable
  rw [statement]
  refine Meets.bind (((decidesFirst place).and
    (block_meets place.sound place.inside enclosing .consequent (by decide) first)).weaken
      And.left) ?_
  rintro checked ⟨decides, steady, _, accepted⟩
  have next (fine : checked.complaints = []) :
      checked.tree.Stands functions scope (layer :: outer) := by
    have evolved := place.evolves steady.sound steady.size
      (accepted fine _ place.shows).grows.toEvolves
    rw [Context.declare_nil] at evolved
    exact evolved
  refine Meets.bind (((block_meets steady.sound (Nat.lt_of_lt_of_le place.inside steady.size)
    enclosing .alternative (by decide) second).only_if fun fine =>
      decidesSecond (next fine)).weaken And.right) ?_
  rintro other ⟨_, decidesOther⟩
  refine Meets.pure ?_
  rw [List.append_eq_nil_iff, List.append_eq_nil_iff, expect_decides place, Stmt.declares,
    List.append_nil, and_iff_left declarable, and_assoc, and_congr_right decidesOther, decides]
  rfl

/-- The clauses of a loop and its body share one scope. -/
theorem DecidesAll.forLoop {init : Option Declaration} {update : Option Assignment}
    (decidesBody : DecidesAll functions enclosing body) :
    DecidesStmt functions enclosing
      (.forLoop span init condition update (.mk position old body)) := by
  intro tree scope layer outer place declarable
  rw [statement]
  refine ScopeTree.openScope_meets place.inside (absurd · (by decide)) fun inner opened => ?_
  have entered := place.opened opened (place.shows.open place.sound opened (by decide))
  have below : (tree.size = ScopeTree.global) = False :=
    eq_false (Nat.ne_of_gt place.sound.rooted.global_lt)
  refine Meets.bind (((loopInit_decides entered (declarable_nil functions) init).and
    (loopInit_meets entered.sound entered.inside init)).weaken And.left) ?_
  rintro start ⟨decides, sound, sameSize, _, acceptedStart⟩
  rw [List.nil_append] at decides
  have started (fine : start.complaints = []) := entered.evolves sound sameSize.ge
    (acceptedStart fine).1
  refine Meets.bind (((statements_meets sound (sameSize ▸ entered.inside) enclosing
    body).only_if fun fine => decidesBody (started fine) (decides.mp fine).2).weaken And.right) ?_
  rintro checked ⟨_, decidesBody⟩
  refine Meets.pure ?_
  have decidesRest (fine : start.complaints = []) := by
    have decidesBody := decidesBody fine
    rw [below, allPass_below_iff] at decidesBody
    have decidesStep := (loopUpdate_sincere update).complaintsOf_eq_nil_iff.trans
      (loopUpdate_succeeds_iff (started fine).sees)
    rw [(started fine).knows.calls] at decidesStep
    exact and_congr (expect_decides (started fine) condition .bool)
      (and_congr decidesStep decidesBody)
  rw [Stmt.declares, List.append_nil, and_iff_left declarable, List.append_eq_nil_iff,
    List.append_eq_nil_iff, List.append_eq_nil_iff, and_assoc, and_assoc,
    and_congr_right decidesRest, decides]
  constructor
  · rintro ⟨⟨typedInit, _⟩, typedTest, typedStep, typedBody, declarableAll⟩
    exact ⟨declarableAll, typedInit, typedTest, typedStep, typedBody⟩
  · rintro ⟨declarableAll, typedInit, typedTest, typedStep, typedBody⟩
    exact ⟨⟨typedInit, declarableAll.of_append⟩, typedTest, typedStep, typedBody, declarableAll⟩

/-- A statement is checked before those that follow it. -/
theorem DecidesStmt.cons {first : Stmt} {rest : List Stmt}
    (decidesFirst : DecidesStmt functions enclosing first)
    (decidesRest : DecidesAll functions enclosing rest) :
    DecidesAll functions enclosing (first :: rest) := by
  intro tree scope layer outer place declarable
  rw [statements, declaredBy_cons, ← List.append_assoc]
  refine Meets.bind (((decidesFirst place declarable).and
    (statement_meets place.sound place.inside enclosing first)).weaken And.left) ?_
  rintro checked ⟨decides, steady, _, accepted⟩
  refine Meets.bind (((statements_meets steady.sound (Nat.lt_of_lt_of_le place.inside steady.size)
    enclosing rest).only_if fun fine => decidesRest (place.evolves steady.sound steady.size
      (accepted fine _ place.shows).grows.toEvolves) (decides.mp fine).2).weaken And.right) ?_
  rintro others ⟨_, decidesRest⟩
  refine Meets.pure ?_
  rw [List.append_eq_nil_iff, and_congr_right decidesRest, decides, allPass]
  constructor
  · rintro ⟨⟨passes, _⟩, restPasses, declarableAll⟩
    exact ⟨⟨passes, restPasses⟩, declarableAll⟩
  · rintro ⟨⟨passes, restPasses⟩, declarableAll⟩
    exact ⟨⟨passes, declarableAll.of_append⟩, restPasses, declarableAll⟩

end Nesting

mutual

theorem statement_decides (enclosing : Enclosing) (before : Stmt) :
    DecidesStmt functions enclosing before := by
  match before with
  | .function _ header body => exact (block_decides _ .block (by decide) body).function
  | .conditional _ condition first (some second) =>
    exact (block_decides enclosing .consequent (by decide) first).conditional
      (block_decides enclosing .alternative (by decide) second)
  | .forLoop _ init condition update (.mk _ _ body) =>
    exact (statements_decides enclosing body).forLoop
  | .assignment span made =>
    intro tree scope layer outer place declarable
    rw [statement]
    refine pureCheck_decides declarable rfl (assignment_sincere made) ?_
    rw [assignment_succeeds_iff place.sees, place.knows.calls]
    rfl
  | .action span done =>
    intro tree scope layer outer place declarable
    rw [statement]
    refine pureCheck_decides declarable rfl (action_sincere done) ?_
    rw [action_succeeds_iff place.sees, place.knows.calls]
    rfl
  | .returnValue span value =>
    intro tree scope layer outer place declarable
    rw [statement]
    refine pureCheck_decides declarable rfl (returnedValue_sincere _ _ value) ?_
    rw [returnedValue_succeeds_iff place.sees, place.knows.calls]
    rfl
  | .declaration span made =>
    intro tree scope layer outer place declarable
    rw [statement]
    refine Meets.bind (declaration_decides place declarable made) ?_
    exact fun checked decides => Meets.pure decides
  | .block span body =>
    intro tree scope layer outer place declarable
    rw [statement]
    refine Meets.bind (block_decides enclosing .block (by decide) body place) ?_
    intro checked decides
    refine Meets.pure (decides.trans ?_)
    rw [Stmt.declares, List.append_nil]
    exact (and_iff_left declarable).symm
  | .conditional _ condition body none | .whileLoop _ condition body =>
    intro tree scope layer outer place declarable
    rw [statement]
    refine Meets.bind (block_decides enclosing _ (by decide) body place)
      fun checked decides => Meets.pure ?_
    rw [List.append_eq_nil_iff, expect_decides place, decides, Stmt.declares, List.append_nil]
    exact (and_iff_left declarable).symm

theorem block_decides (enclosing : Enclosing) (kind : ScopeKind) (notFunction : kind ≠ .function)
    (before : Block) : DecidesBlock functions enclosing kind before := by
  match before with
  | .mk _ _ body => exact (statements_decides enclosing body).block notFunction

theorem statements_decides (enclosing : Enclosing) (before : List Stmt) :
    DecidesAll functions enclosing before := by
  match before with
  | [] =>
    intro tree scope layer outer _ declarable
    rw [declaredBy_nil, List.append_nil]
    exact Meets.ok (iff_of_true rfl ⟨trivial, declarable⟩)
  | first :: rest =>
    exact (statement_decides enclosing first).cons (statements_decides enclosing rest)

end

/-! ### Programs -/

/-- A program is well typed up to the paths on which its functions return. -/
structure Checks (program : Program) : Prop where
  distinct : (functionNames program.statements).Nodup
  unreserved : "main" ∉ functionNames program.statements
  functions : ∀ span header body, .function span header body ∈ program.statements →
    Declarable (functionsOf program.statements) (parameterVars header.parameters) ∧
      body.WellTyped (functionsOf program.statements) (some header.returns.value)
        [parameterVars header.parameters]
  globals : Declarable (functionsOf program.statements) (declaredBy program.statements)
  statements : allWellTyped (functionsOf program.statements) none [[]]
    (program.statements.filter fun statement => !statement.isFunction)

theorem program_decides (before : Program) :
    Meets (allSized before.statements)
      (fun checked => (checked.complaints = [] ↔ Checks before) ∧
        (checked.complaints = [] →
          checked.tree.lookupFunction? = functionsOf before.statements))
      (program before) := by
  refine Meets.bind (declareFunctions_initial_meets before.statements) ?_
  rintro ⟨declared, conflicts⟩ ⟨sound, _, _, shows, decides, known⟩
  dsimp only at sound shows decides known
  have place (fine : conflicts = []) : declared.Stands (functionsOf before.statements)
      ScopeTree.global [{ scope := ScopeTree.global, vars := [] }] := by
    refine ⟨sound, sound.rooted.global_lt, ⟨known fine, fun name => ?_⟩, shows⟩
    rw [ScopeTree.functionInChain, sound.rooted.ancestors_global, ← known fine]
    simp [ScopeTree.lookupFunction?]
  refine Meets.bind ((statements_meets sound sound.rooted.global_lt none
    before.statements).only_if fun fine =>
      statements_decides none before.statements (place fine) (declarable_nil _)) ?_
  rintro checked ⟨⟨_, _, accepted⟩, decidesAll⟩
  rw [show (ScopeTree.global = ScopeTree.global) = True from eq_self _, allPass_top_iff]
    at decidesAll
  refine Meets.pure ⟨?_, fun fine => ?_⟩
  · rw [List.append_eq_nil_iff, and_congr_right decidesAll, decides]
    constructor
    · rintro ⟨⟨unreserved, distinct⟩, ⟨functions, statements⟩, globals⟩
      exact ⟨distinct, unreserved, functions, globals, statements⟩
    · exact fun checks => ⟨⟨checks.unreserved, checks.distinct⟩,
        ⟨checks.functions, checks.statements⟩, checks.globals⟩
  · obtain ⟨firstFine, restFine⟩ := List.append_eq_nil_iff.mp fine
    have stands := place firstFine
    exact (lookupFunction?_eq sound.rooted
      (accepted restFine _ stands.shows).grows.toEvolves).trans stands.knows.calls

end Typing

end PadLang
