/-
This file lays out the code that is generated from contexts.

The frames that are open where a piece of code stands are the frames of its context: a layer is a
frame that has the cells of all variables of its scope. So an address that the context gives to a
name is an address in an open frame, and the whole variable lies in that frame. The code of a
statement comes to its end unless the statement always returns, and it opens the frames of the
scopes that the statement bears.
-/

import PadLang.Proofs.Flow.Shapes

namespace PadLang

namespace Flow

open Code (pushInt)

/-! ### The frames of a context -/

/-- The frame of a scope. -/
def frameOf (vars : ScopeId → Vars) (scope : ScopeId) : OpenFrame :=
  { scope := some scope, cells := (vars scope).cells }

theorem frameOf_sized (vars : ScopeId → Vars) (scope : ScopeId) :
    ∀ other ∈ (frameOf vars scope).scope, (frameOf vars scope).cells = (vars other).cells := by
  rintro _ ⟨⟩
  rfl

/-- The open frames are those of the context, and their scopes declare the variables of the
context first. -/
structure Fits (vars : ScopeId → Vars) (frames : List OpenFrame) (context : Context) : Prop where
  frames_eq : frames = context.map fun layer => frameOf vars layer.scope
  declared : ∀ layer ∈ context, layer.vars <+: vars layer.scope
  written : ∀ layer ∈ context, ∀ entry ∈ vars layer.scope, entry.2.Written

section Expressions

variable {functions : Functions} {vars : ScopeId → Vars} {place : Place} {context : Context}
  {name : String} {resolved : ScopeTree.Resolved} {frames : List OpenFrame}

theorem Fits.exists_variable (fits : Fits vars frames context)
    (found : context.place? name = some resolved) :
    ∃ scope, frames[resolved.slot.level]? = some (frameOf vars scope) ∧
      (vars scope).place? name 0 = some (resolved.slot.index, resolved.type) ∧
      resolved.type.Written := by
  obtain ⟨layer, isLayer, isPlace⟩ := Context.exists_layer found
  have member := List.mem_of_getElem? isLayer
  have stays := Vars.place?_of_prefix isPlace (fits.declared layer member)
  obtain ⟨entry, isEntry, isType⟩ := Vars.mem_of_place? stays
  refine ⟨layer.scope, ?_, stays, isType ▸ fits.written layer member entry isEntry⟩
  rw [fits.frames_eq, List.getElem?_map, isLayer]
  rfl

theorem Fits.holdsVariable (fits : Fits vars frames context)
    (found : context.place? name = some resolved) :
    HoldsVariable (locatedIn vars) frames resolved.slot := by
  obtain ⟨scope, isFrame, isPlace, _⟩ := fits.exists_variable found
  have inside := Vars.place?_le isPlace
  rw [Nat.zero_add] at inside
  exact ⟨scope, _, _, isFrame, ⟨name, resolved.type, isPlace, rfl⟩, inside⟩

theorem Fits.holds (fits : Fits vars frames context) (found : context.place? name = some resolved) :
    Holds frames resolved.slot resolved.type.words := by
  obtain ⟨scope, isFrame, isPlace, written⟩ := fits.exists_variable found
  have inside := Vars.place?_le isPlace
  rw [Nat.zero_add, ← written.words_eq] at inside
  exact ⟨_, isFrame, inside⟩

/-! ### Expressions and simple statements -/

/-- An array is copied through a frame of its own, in which its place is one level further up. -/
theorem readVariable_shaped (holds : Holds place.frames resolved.slot resolved.type.words) :
    Shaped functions vars place (Lexical.readVariable resolved) false [] := by
  obtain ⟨slot, type⟩ := resolved
  cases type with
  | base scalar => exact .load holds
  | array size element =>
    have copied : Holds (place.enter { scope := none, cells := size }).frames
        { index := 0, level := 0 } size := ⟨_, rfl, Nat.le_of_eq (Nat.zero_add size)⟩
    have source : Holds (place.enter { scope := none, cells := size }).frames
        { slot with level := slot.level + 1 } size := holds
    have unowned : ∀ scope ∈ ({ scope := none, cells := size } : OpenFrame).scope,
        size = (vars scope).cells := nofun
    exact Shaped.framed unowned
      (((Shaped.loadBlock source).andThen (.storeBlock copied)).andThen (.loadBlock copied))

theorem store_shaped {type : Ty} {slot : Slot} (holds : Holds place.frames slot type.words) :
    Shaped functions vars place (Code.store type slot) false [] := by
  cases type with
  | base scalar => exact .storeWord holds
  | array size element => exact .storeBlock holds

theorem composes_shaped (fits : Fits vars place.frames context) :
    Lexical.Composes functions context fun code => Shaped functions vars place code false [] where
  append := Shaped.andThen
  plain := Shaped.plain
  readVariable found := readVariable_shaped (fits.holds found)
  readElement found := .loadElement (fits.holdsVariable found)
  call := Shaped.call
  store found := store_shaped (fits.holds found)
  storeElement found := .storeElement (fits.holdsVariable found)

end Expressions

/-! ### Statements -/

/-- A place for which statements are generated: its frames are those of the context, the innermost
scope declares these variables next, and inside a function one frame is open around. -/
structure Stage (vars : ScopeId → Vars) (place : Place) (returns : Option Ty) (layer : Layer)
    (outer : Context) (added : Vars) : Prop where
  fits : Fits vars place.frames (layer :: outer)
  room : layer.vars ++ added <+: vars layer.scope
  called : returns ≠ none → place.around.length = 1

section Statements

variable {functions : Functions} {vars : ScopeId → Vars} {place : Place} {returns : Option Ty}
  {layer : Layer} {outer : Context} {added more : Vars}

namespace Stage

/-- The place behind statements that declare some of the variables. -/
theorem advance (stage : Stage vars place returns layer outer (added ++ more)) (leaves : Bool) :
    Stage vars (place.after leaves) returns { layer with vars := layer.vars ++ added } outer more
    where
  fits := by
    obtain ⟨frames_eq, declared, written⟩ := stage.fits
    refine ⟨frames_eq, ?_, ?_⟩
    · simp only [List.forall_mem_cons] at declared ⊢
      refine ⟨List.IsPrefix.trans ?_ stage.room, declared.2⟩
      rw [← List.append_assoc]
      exact List.prefix_append _ _
    · simp only [List.forall_mem_cons] at written ⊢
      exact written
  room := by
    have room := stage.room
    rwa [← List.append_assoc] at room
  called := stage.called

/-- The place inside the frame of a scope that is entered. -/
theorem enter (stage : Stage vars place returns layer outer added) (opened : ScopeId)
    (written : ∀ entry ∈ vars opened, entry.2.Written) :
    Stage vars (place.enter (frameOf vars opened)) returns { scope := opened, vars := [] }
      (layer :: outer) (vars opened) where
  fits := by
    refine ⟨?_, ?_, ?_⟩
    · rw [Place.frames_enter, stage.fits.frames_eq]
      rfl
    · exact List.forall_mem_cons.mpr ⟨List.nil_prefix, stage.fits.declared⟩
    · exact List.forall_mem_cons.mpr ⟨written, stage.fits.written⟩
  room := List.prefix_rfl
  called := stage.called

/-- Inside a function all frames but one are closed by a return. -/
theorem length_opened (stage : Stage vars place returns layer outer added)
    (within : returns ≠ none) : place.opened.length = outer.length := by
  have frames := congrArg List.length stage.fits.frames_eq
  rw [Place.frames, List.length_append, stage.called within, List.length_map,
    List.length_cons] at frames
  omega

end Stage

theorem declaration_shaped {made : Declaration}
    (stage : Stage vars place returns layer outer (initVars (some made) ++ more)) :
    Shaped functions vars place (Lexical.declaration functions layer outer made) false [] := by
  refine ((composes_shaped stage.fits).expression made.value).andThen (store_shaped ?_)
  have earlier : layer.vars ++ initVars (some made) <+: vars layer.scope := by
    refine List.IsPrefix.trans ?_ stage.room
    rw [← List.append_assoc]
    exact List.prefix_append _ _
  have member : (made.name.value, made.type.value) ∈ vars layer.scope :=
    earlier.subset (List.mem_append_right _ List.mem_cons_self)
  have written := stage.fits.written layer List.mem_cons_self _ member
  have inside := Vars.cells_le_of_prefix earlier
  rw [Vars.cells_append, initVars, Vars.cells_cons, Vars.cells_nil, Nat.add_zero,
    ← written.words_eq] at inside
  refine ⟨frameOf vars layer.scope, ?_, inside⟩
  rw [stage.fits.frames_eq]
  rfl

theorem loopInit_shaped {init : Option Declaration}
    (stage : Stage vars place returns layer outer (initVars init ++ more)) :
    Shaped functions vars place (Lexical.loopInit functions layer outer init) false [] := by
  cases init with
  | none => exact .nil
  | some made => exact declaration_shaped stage

theorem returnValue_shaped {value : Expr} (stage : Stage vars place returns layer outer added)
    (within : returns ≠ none) :
    Shaped functions vars place (Lexical.returnValue functions (layer :: outer) value) true [] := by
  have called : place.around ≠ [] := by
    intro isNil
    have length := stage.called within
    rw [isNil] at length
    cases length
  have closes : (layer :: outer).length - 1 = place.opened.length :=
    (stage.length_opened within).symm
  rw [Lexical.returnValue, closes, List.append_assoc]
  exact ((composes_shaped stage.fits).expression value).andThen (.leave called)

/-- The variables that statements declare are such as programs can write. -/
theorem written_of_allTypes {statements : List Stmt} (types : allTypes Ty.Written statements) :
    ∀ entry ∈ declaredBy statements, entry.2.Written := by
  induction statements with
  | nil => exact nofun
  | cons first rest inductionHypothesis =>
    rw [declaredBy_cons, List.forall_mem_append]
    refine ⟨?_, inductionHypothesis types.2⟩
    cases first with
    | declaration _ made => exact List.forall_mem_singleton.mpr types.1
    | _ => exact nofun

/-- Code opens the frame of a scope, and what stands inside can be laid out. -/
def Enclosed (functions : Functions) (vars : ScopeId → Vars) (place : Place) (code : Code)
    (leaves : Bool) (scopes : List ScopeId) : Prop :=
  ∃ opened inside others,
    code = [pushInt (frameOf vars opened).cells, .op .oframe] ++ inside ++ [.op .cframe] ∧
    scopes = opened :: others ∧
    Shaped functions vars (place.enter (frameOf vars opened)) inside leaves others

theorem Enclosed.shaped {code : Code} {leaves : Bool} {scopes : List ScopeId}
    (enclosed : Enclosed functions vars place code leaves scopes) :
    Shaped functions vars place code leaves scopes := by
  obtain ⟨opened, inside, others, rfl, rfl, shaped⟩ := enclosed
  exact .framed (frameOf_sized vars opened) shaped

mutual

theorem statement_shaped {tree : ScopeTree} {place : Place} {layer : Layer} {outer : Context}
    {more : Vars} {statement : Stmt}
    (stage : Stage tree.varsOf place returns layer outer (statement.declares ++ more))
    (inScope : statement.Scoped functions returns (layer :: outer))
    (laidOut : statement.LaidOut tree layer.scope) (plain : statement.Plain)
    (types : statement.AllTypes Ty.Written) :
    Shaped functions tree.varsOf place (Lexical.statement functions layer outer statement)
      statement.alwaysReturns statement.scopes := by
  match statement with
  | .declaration _ made => exact declaration_shaped stage
  | .assignment _ made => exact (composes_shaped stage.fits).assignment made
  | .action _ done => exact (composes_shaped stage.fits).action done
  | .returnValue _ value =>
    obtain ⟨type, isType, _⟩ := inScope
    exact returnValue_shaped stage (isType ▸ nofun)
  | .block _ body =>
    rw [Lexical.statement]
    exact (block_enclosed stage inScope laidOut plain types).shaped
  | .conditional _ condition first none =>
    rw [Lexical.statement]
    exact .ifThen ((composes_shaped stage.fits).expression condition)
      (block_enclosed stage inScope.2 laidOut plain types).shaped
  | .conditional _ condition first (some second) =>
    rw [Lexical.statement]
    exact .ifThenElse ((composes_shaped stage.fits).expression condition)
      (block_enclosed stage inScope.2.1 laidOut.1 plain.1 types.1).shaped
      (block_enclosed stage inScope.2.2 laidOut.2 plain.2 types.2).shaped
  | .whileLoop _ condition body =>
    rw [Lexical.statement]
    exact .repeatWhile ((composes_shaped stage.fits).expression condition)
      (block_enclosed stage inScope.2 laidOut plain types).shaped
  | .forLoop _ init condition update (.mk _ scope body) =>
    obtain ⟨opened, rfl, _, _, _, inside⟩ := inScope
    obtain ⟨_, same, opens, laidOutBody⟩ := laidOut
    cases same
    have declares := opens.varsOf_eq
    have written : ∀ entry ∈ tree.varsOf opened, entry.2.Written := by
      rw [declares, List.forall_mem_append]
      refine ⟨?_, written_of_allTypes types.2⟩
      cases init with
      | none => exact nofun
      | some made => exact List.forall_mem_singleton.mpr (types.1 made rfl)
    have entered := stage.enter opened written
    rw [← List.append_nil (tree.varsOf opened), declares, List.append_assoc] at entered
    have started := entered.advance false
    have finished := fun leaves => started.advance leaves
    rw [Place.after_false] at started finished
    have rounds := (statements_shaped started inside laidOutBody plain types.2).followedBy
      ((composes_shaped (finished _).fits).loopUpdate update)
    have shaped := Shaped.framed (frameOf_sized tree.varsOf opened)
      ((loopInit_shaped entered).andThen
        (.repeatWhile ((composes_shaped started.fits).expression condition) rounds))
    have cells : (frameOf tree.varsOf opened).cells = (initVars init ++ declaredBy body).cells :=
      congrArg Vars.cells declares
    rw [cells, ← List.append_assoc] at shaped
    exact shaped

theorem block_enclosed {tree : ScopeTree} {place : Place} {layer : Layer} {outer : Context}
    {added : Vars} {kind : ScopeKind} {block : Block}
    (stage : Stage tree.varsOf place returns layer outer added)
    (inScope : block.Scoped functions returns (layer :: outer))
    (laidOut : block.LaidOut tree layer.scope kind) (plain : block.Plain)
    (types : block.AllTypes Ty.Written) :
    Enclosed functions tree.varsOf place (Lexical.block functions (layer :: outer) block)
      block.alwaysReturns block.scopes := by
  match block with
  | .mk _ scope body =>
    obtain ⟨opened, rfl, inside⟩ := inScope
    obtain ⟨_, same, opens, laidOutBody⟩ := laidOut
    cases same
    have declares := opens.varsOf_eq
    have written : ∀ entry ∈ tree.varsOf opened, entry.2.Written :=
      declares ▸ written_of_allTypes types
    have entered := stage.enter opened written
    rw [← List.append_nil (tree.varsOf opened), declares] at entered
    have cells : (frameOf tree.varsOf opened).cells = (declaredBy body).cells :=
      congrArg Vars.cells declares
    refine ⟨opened, _, scopesOf body, ?_, rfl,
      statements_shaped entered inside laidOutBody plain types⟩
    rw [cells]
    rfl

theorem statements_shaped {tree : ScopeTree} {place : Place} {layer : Layer} {outer : Context}
    {more : Vars} {statements : List Stmt}
    (stage : Stage tree.varsOf place returns layer outer (declaredBy statements ++ more))
    (inScope : allScoped functions returns (layer :: outer) statements)
    (laidOut : allLaidOut tree layer.scope statements) (plain : allPlain statements)
    (types : allTypes Ty.Written statements) :
    Shaped functions tree.varsOf place (Lexical.statements functions layer outer statements)
      (anyReturns statements) (scopesOf statements) := by
  match statements with
  | [] => exact .nil
  | first :: rest =>
    rw [declaredBy_cons, List.append_assoc] at stage
    have shapedFirst := statement_shaped stage inScope.1 laidOut.1 plain.1 types.1
    have shapedRest := statements_shaped (stage.advance first.alwaysReturns) inScope.2 laidOut.2
      plain.2 types.2
    rw [Lexical.statements, anyReturns, scopesOf]
    exact shapedFirst.append shapedRest

end

end Statements

end Flow

end PadLang
