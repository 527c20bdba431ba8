/-
This file shows that the code generated with the tree of scopes is the code generated from
contexts.

The generator walks the program once more and gives out storage on the way. At every place the
tree serves the context of that place, so that names are resolved as the context says, and the
frame of a scope has the cells of its variables. The uses that the generator comes to are those of
the contexts. It faults just if some level in that code cannot be counted.
-/

import PadLang.Proofs.Analysis
import PadLang.Proofs.Code.Emission
import PadLang.Proofs.Code.Uses

namespace PadLang

variable {opened : ScopeId} {vars todo : Vars} {safe : Prop} {tree : ScopeTree} {row : Scope}
  {layer : Layer} {outer : Context} {scopes : List ScopeId} {program : Program}

namespace Code

variable {code : Code}

/-! ### Places -/

/-- A place for which code is generated: the tree serves its context, and the scopes that the
code will enter are distinct and not part of the context. -/
structure Site (functions : Functions) (tree : ScopeTree) (layer : Layer) (outer : Context)
    (todo : Vars) (returns : Option Ty) (scopes : List ScopeId) : Prop where
  formed : tree.Formed
  linked : Linked functions tree
  serves : tree.Serves layer outer todo
  within : returns ≠ none → ∃ id ∈ (layer :: outer).map Layer.scope, tree.isFunction id = true
  distinct : scopes.Nodup
  apart : ∀ id ∈ scopes, id ∉ (layer :: outer).map Layer.scope

namespace Site

variable {functions : Functions} {after : ScopeTree} {added : Vars} {returns : Option Ty}
  {others : List ScopeId} {name : Option String}

section

variable (site : Site functions tree layer outer todo returns scopes)

include site

theorem resolves : Resolves functions tree layer.scope (layer :: outer) :=
  ⟨site.linked, site.serves.resolve?_eq site.formed.tidy⟩

/-- Names are resolved to the variables that the context lists. -/
theorem denoted_eq : denoted tree layer.scope = (Context.find? · (layer :: outer)) := by
  funext name
  have visible : tree.visible layer.scope = (layer :: outer).map Layer.scope := site.serves.visible
  rw [denoted, site.resolves.places, Context.place?, visible]
  rcases Context.placeFrom?_eq name 0 (layer :: outer) with
    ⟨absent, nothing⟩ | ⟨index, depth, inner, type, place, denotes, up, _⟩
  · rw [absent, nothing]
    rfl
  · rw [place, denotes, Nat.zero_add]
    change ((layer :: outer).map Layer.scope)[depth]?.bind _ = _
    rw [List.getElem?_map, up]
    rfl

theorem narrow (part : others.Sublist scopes) :
    Site functions tree layer outer todo returns others :=
  { site with
    distinct := site.distinct.sublist part
    apart := fun id member => site.apart id (part.subset member) }

end

/-- The place after a statement. -/
theorem advance (site : Site functions tree layer outer (added ++ todo) returns (scopes ++ others))
    (furnishes : ScopeTree.Furnishes layer added scopes tree after) :
    Site functions after { layer with vars := layer.vars ++ added } outer todo returns others where
  formed := furnishes.formed
  linked := ⟨furnishes.keeps.functions ▸ site.linked.labels, site.linked.fits⟩
  serves := furnishes.serves site.serves site.formed.rooted fun id member =>
    site.apart id (List.mem_append_left _ member)
  within := by
    intro isSome
    obtain ⟨id, member, isFunction⟩ := site.within isSome
    refine ⟨id, member, ?_⟩
    rw [ScopeTree.isFunction_eq_outline?, furnishes.keeps.outline,
      ← ScopeTree.isFunction_eq_outline?]
    exact isFunction
  distinct := (List.nodup_append.mp site.distinct).2.1
  apart := fun id member => site.apart id (List.mem_append_right _ member)

/-- The place after a statement that declares nothing. -/
theorem pass (site : Site functions tree layer outer todo returns (scopes ++ others))
    (furnishes : ScopeTree.Furnishes layer [] scopes tree after) :
    Site functions after layer outer todo returns others := by
  have whole : Site functions tree layer outer ([] ++ todo) returns (scopes ++ others) := site
  have next := whole.advance furnishes
  rw [List.append_nil] at next
  exact next

/-- The statements after a statement are still laid out. -/
theorem kept (site : Site functions tree layer outer (added ++ todo) returns (scopes ++ others))
    (furnishes : ScopeTree.Furnishes layer added scopes tree after) :
    ∀ id ∈ others, after.row? id = tree.row? id := by
  intro id member
  have notHere : id ≠ layer.scope := fun same =>
    site.apart id (List.mem_append_right _ member) (same ▸ List.mem_cons_self)
  exact furnishes.kept id notHere fun isFirst =>
    (List.nodup_append.mp site.distinct).2.2 id isFirst id member rfl

/-- The place inside a scope that is entered. -/
theorem enter {kind : ScopeKind}
    (site : Site functions tree layer outer todo returns (opened :: scopes))
    (notFunction : kind ≠ .function) (opens : tree.Opens opened layer.scope kind name vars) :
    Site functions tree { scope := opened, vars := [] } (layer :: outer) vars returns scopes := by
  obtain ⟨row, found, isKind, _, isParent, isFree, localsOf⟩ := opens
  obtain ⟨outside, distinct⟩ := List.nodup_cons.mp site.distinct
  refine ⟨site.formed, site.linked, ⟨?_, ?_, ?_⟩, ?_, distinct, ?_⟩
  · rw [site.formed.rooted.visible_child found isParent (isKind ▸ notFunction), site.serves.visible]
    rfl
  · exact ⟨row, found, localsOf, isFree⟩
  · exact site.serves.rows
  · intro isSome
    obtain ⟨id, member, isFunction⟩ := site.within isSome
    exact ⟨id, List.mem_cons_of_mem _ member, isFunction⟩
  · intro id member isContext
    rcases List.mem_cons.mp isContext with rfl | isOuter
    · exact outside member
    · exact site.apart id (List.mem_cons_of_mem _ member) isOuter

/-- The place inside a function. -/
theorem enterFunction {other : Option Ty}
    (site : Site functions tree layer outer todo returns (opened :: scopes))
    (opens : tree.Opens opened layer.scope .function name vars) :
    Site functions tree { scope := opened, vars := [] } [] vars other scopes := by
  obtain ⟨row, found, isKind, _, isParent, isFree, localsOf⟩ := opens
  obtain ⟨outside, distinct⟩ := List.nodup_cons.mp site.distinct
  refine ⟨site.formed, site.linked, ⟨?_, ⟨row, found, localsOf, isFree⟩, nofun⟩, ?_, distinct, ?_⟩
  · exact site.formed.rooted.visible_function found isParent isKind
  · intro _
    exact ⟨opened, List.mem_cons_self, by rw [ScopeTree.isFunction_eq found, isKind]; rfl⟩
  · intro id member isContext
    rw [List.map_cons, List.map_nil, List.mem_singleton] at isContext
    obtain rfl : id = opened := isContext
    exact outside member

/-- The scopes of a statement are neither the scope around it nor scopes of later statements. -/
theorem distinct_apart (site : Site functions tree layer outer todo returns (scopes ++ others)) :
    ∀ id ∈ scopes, id ≠ layer.scope ∧ id ∉ others := by
  intro id member
  refine ⟨fun same => ?_, fun isOther => ?_⟩
  · exact site.apart id (List.mem_append_left _ member) (same ▸ List.mem_cons_self)
  · exact (List.nodup_append.mp site.distinct).2.2 id member id isOther rfl

/-- What is done inside a scope leaves the scopes around it alone, and gives storage to all its
variables. -/
theorem leave (site : Site functions tree layer outer todo returns (opened :: scopes))
    (here : ∃ row, tree.row? opened = some row ∧ row.Stocked vars added)
    (furnishes : ScopeTree.Furnishes { scope := opened, vars } added scopes tree after) :
    ScopeTree.Furnishes layer [] (opened :: scopes) tree after where
  formed := furnishes.formed
  keeps := furnishes.keeps
  kept id _ outside := by
    rw [List.mem_cons, not_or] at outside
    exact furnishes.kept id outside.1 outside.2
  here row todo found stocked := by
    have notOpened : layer.scope ≠ opened := fun same =>
      site.apart opened List.mem_cons_self (same ▸ List.mem_cons_self)
    have notInner : layer.scope ∉ scopes := fun member =>
      site.apart layer.scope (List.mem_cons_of_mem _ member) List.mem_cons_self
    refine ⟨row, ?_, by simpa using stocked⟩
    rw [furnishes.kept layer.scope notOpened notInner, found]
  filled := by
    refine List.forall_mem_cons.mpr ⟨?_, furnishes.filled⟩
    obtain ⟨row, found, stocked⟩ := here
    obtain ⟨whole, foundWhole, filled⟩ :=
      furnishes.here row [] found (by rw [List.append_nil]; exact stocked)
    exact ⟨whole, _, foundWhole, filled⟩

end Site

/-! ### Statements -/

section Statements

variable {functions : Functions} {returns : Option Ty}

theorem openFrame_meets {scope : ScopeId} {done : Vars} (formed : tree.Formed)
    (found : tree.row? scope = some row) (stocked : row.Stocked done todo) :
    Meets safe (· = Lexical.openFrame (done ++ todo)) (openFrame tree scope) := by
  refine Meets.bind (ScopeTree.get_meets (ScopeTree.lt_size_of_row? found)) ?_
  rintro whole ⟨_, foundWhole⟩
  have same : row = whole.row := Option.some.inj (found.symm.trans foundWhole)
  have slots : whole.declaredSlots = (done ++ todo).cells := by
    rw [← stocked.declaredSlots_eq (formed.tidy found), same]
    rfl
  exact Meets.pure (by rw [slots]; rfl)

theorem declaration_meets {made : Declaration}
    (site : Site functions tree layer outer (initVars (some made) ++ todo) returns scopes)
    (inScope : made.Scoped functions (layer :: outer)) :
    Meets (Addressable (Lexical.declaration functions layer outer made))
      (fun emitted => (emitted.code = Lexical.declaration functions layer outer made ∧
          Addressable (Lexical.declaration functions layer outer made)) ∧
        ScopeTree.Furnishes layer (initVars (some made)) [] tree emitted.tree)
      (declaration tree layer.scope made) := by
  rw [Lexical.declaration, addressable_append]
  refine Meets.bind (Meets.weaken (expression_emits site.resolves inScope.bound) And.left) ?_
  rintro _ ⟨rfl, fits⟩
  refine Meets.bind (ScopeTree.allocate_furnishes site.formed site.serves) ?_
  rintro ⟨index, allocated⟩ ⟨isIndex, furnishes⟩
  dsimp only at isIndex furnishes
  exact Meets.pure ⟨⟨by rw [isIndex], fits, by simp⟩, furnishes⟩

theorem loopInit_meets {init : Option Declaration}
    (site : Site functions tree layer outer (initVars init ++ todo) returns scopes)
    (inScope : ∀ made ∈ init, made.Scoped functions (layer :: outer)) :
    Meets (Addressable (Lexical.loopInit functions layer outer init))
      (fun emitted => (emitted.code = Lexical.loopInit functions layer outer init ∧
          Addressable (Lexical.loopInit functions layer outer init)) ∧
        ScopeTree.Furnishes layer (initVars init) [] tree emitted.tree)
      (loopInit tree layer.scope init) := by
  cases init with
  | none => exact Meets.ok ⟨⟨rfl, addressable_nil⟩, .refl site.formed⟩
  | some made => exact declaration_meets site (inScope made rfl)

theorem allocateAll_meets {params : List Parameter}
    (site : Site functions tree layer outer (parameterVars params ++ todo) returns scopes) :
    Meets safe (ScopeTree.Furnishes layer (parameterVars params) [] tree)
      (allocateAll tree layer.scope params) := by
  induction params generalizing tree layer with
  | nil => exact Meets.ok (.refl site.formed)
  | cons parameter rest inductionHypothesis =>
    refine Meets.bind (ScopeTree.allocate_furnishes site.formed site.serves) ?_
    rintro ⟨_, allocated⟩ ⟨_, furnishes⟩
    dsimp only at furnishes
    have later := @inductionHypothesis allocated
      { layer with vars := layer.vars ++ [(parameter.name.value, parameter.type.value)] }
      (site.advance furnishes)
    exact Meets.mono later fun _ more => furnishes.trans more nofun

theorem returnValue_emits {value : Expr} {type : Ty}
    (site : Site functions tree layer outer todo (some type) scopes)
    (typed : HasType functions (layer :: outer) value type) :
    Emits (Lexical.returnValue functions (layer :: outer) value)
      (returnValue tree layer.scope value) := by
  refine (expression_emits site.resolves typed.bound).bind
    (by simp +contextual [Lexical.returnValue]) fun fits => ?_
  have within := site.within (Option.some_ne_none type)
  have depth : tree.functionDepth layer.scope = (layer :: outer).length - 1 := by
    rw [List.map_cons, ← site.serves.visible] at within
    rw [ScopeTree.functionDepth_eq within, site.serves.visible, ← List.map_cons, List.length_map]
  rw [depth]
  exact .ok (by simp [Lexical.returnValue, fits])

mutual

theorem statement_meets {returns : Option Ty} {tree : ScopeTree} {layer : Layer} {outer : Context}
    {todo : Vars} {before : Stmt}
    (site : Site functions tree layer outer (before.declares ++ todo) returns before.scopes)
    (inScope : before.Scoped functions returns (layer :: outer))
    (laidOut : before.LaidOut tree layer.scope) :
    Meets (Addressable (Lexical.statement functions layer outer before))
      (fun emitted => (emitted.code = Lexical.statement functions layer outer before ∧
          Addressable (Lexical.statement functions layer outer before)) ∧
        ScopeTree.Furnishes layer before.declares before.scopes tree emitted.tree ∧
        statementUses tree layer.scope before = .ok (before.uses true (layer :: outer)))
      (statement tree layer.scope before) := by
  match before with
  | .declaration _ made =>
    rw [statement, statementUses, site.denoted_eq]
    exact Meets.mono (declaration_meets site inScope) fun _ made => ⟨made.1, made.2, rfl⟩
  | .assignment _ made =>
    rw [statement, statementUses, site.denoted_eq]
    refine Meets.bind (assignment_emits site.resolves inScope.bound) fun code isCode => ?_
    exact Meets.pure ⟨isCode, .refl site.formed, rfl⟩
  | .action _ done =>
    rw [statement, statementUses, site.denoted_eq]
    refine Meets.bind (action_emits site.resolves inScope) fun code isCode => ?_
    exact Meets.pure ⟨isCode, .refl site.formed, rfl⟩
  | .returnValue _ value =>
    obtain ⟨type, rfl, typed⟩ := inScope
    rw [statement, statementUses, site.denoted_eq]
    refine Meets.bind (returnValue_emits site typed) fun code isCode => ?_
    exact Meets.pure ⟨isCode, .refl site.formed, rfl⟩
  | .block _ body =>
    rw [statement, Lexical.statement, statementUses]
    exact block_meets site (nofun : ScopeKind.block ≠ .function) inScope laidOut
  | .function _ header body =>
    obtain ⟨opened, isOpened, inside⟩ := inScope
    obtain ⟨_, same, opens, laidOutBody⟩ := laidOut
    rw [isOpened] at same
    cases same
    rw [Stmt.scopes, isOpened] at site
    have entered : Site functions tree { scope := opened, vars := [] } []
        (parameterVars header.parameters ++ []) (some header.returns.value) body.scopes := by
      rw [List.append_nil]
      exact site.enterFunction opens
    obtain ⟨row, found, _, isName, _⟩ := opens
    rw [statement, isOpened, scopeOf]
    refine Meets.bind (Meets.ok rfl) fun inner isInner => ?_
    subst isInner
    refine Meets.bind (ScopeTree.get_meets (ScopeTree.lt_size_of_row? found)) ?_
    rintro whole ⟨_, foundWhole⟩
    have sameRow : row = whole.row := Option.some.inj (found.symm.trans foundWhole)
    have label : whole.name = some header.name.value := by
      rw [← isName, sameRow]
      rfl
    rw [label]
    refine Meets.bind (allocateAll_meets entered).with_eq ?_
    rintro allocated ⟨isAllocated, furnishes⟩
    have ready : Site functions allocated
        { scope := opened, vars := parameterVars header.parameters } [] []
        (some header.returns.value) body.scopes := entered.advance furnishes
    have laidOutReady := laidOutBody.congr (entered.kept furnishes)
    rw [Lexical.statement, isOpened, Option.getD_some, addressable_cons]
    refine Meets.bind ((block_meets ready (nofun : ScopeKind.block ≠ .function) inside
      laidOutReady).weaken And.right) fun emitted isEmitted => ?_
    refine Meets.pure ⟨⟨by rw [isEmitted.1.1], addressable_label, isEmitted.1.2⟩, ?_, ?_⟩
    · rw [Stmt.scopes, isOpened]
      exact site.leave entered.serves.here (furnishes.trans isEmitted.2.1 nofun)
    · rw [statementUses, Stmt.uses, isOpened, scopeOf]
      exact bind_eq_ok_iff.mpr ⟨_, rfl, bind_eq_ok_iff.mpr ⟨_, isAllocated, isEmitted.2.2⟩⟩
  | .conditional _ condition first none =>
    rw [statement, Lexical.statement, addressable_ifThen, statementUses, site.denoted_eq]
    refine Meets.bind (Meets.weaken (expression_emits site.resolves inScope.1.bound) And.left) ?_
    rintro _ ⟨rfl, fits⟩
    refine Meets.bind ((block_meets site (nofun : ScopeKind.consequent ≠ .function) inScope.2
      laidOut).weaken And.right) fun emitted isEmitted => ?_
    exact Meets.pure ⟨⟨by rw [isEmitted.1.1], fits, isEmitted.1.2⟩, isEmitted.2.1,
      bind_eq_ok_iff.mpr ⟨_, isEmitted.2.2, rfl⟩⟩
  | .conditional _ condition first (some second) =>
    have siteOfFirst := site.narrow (List.sublist_append_left first.scopes second.scopes)
    rw [statement, Lexical.statement, addressable_ifThenElse, statementUses, site.denoted_eq]
    refine Meets.bind (Meets.weaken (expression_emits site.resolves inScope.1.bound) And.left) ?_
    rintro _ ⟨rfl, fits⟩
    refine Meets.bind ((block_meets siteOfFirst (nofun : ScopeKind.consequent ≠ .function)
      inScope.2.1 laidOut.1).with_eq.weaken fun fits => fits.2.1) ?_
    rintro emitted ⟨found, ⟨isEmitted, fitsFirst⟩, furnishes, uses⟩
    have next := site.pass furnishes
    have laidOutSecond := laidOut.2.congr (site.kept furnishes)
    refine Meets.bind ((block_meets next (nofun : ScopeKind.alternative ≠ .function) inScope.2.2
      laidOutSecond).weaken fun fits => fits.2.2) fun other isOther => ?_
    exact Meets.pure ⟨⟨by rw [isEmitted, isOther.1.1], fits, fitsFirst, isOther.1.2⟩,
      furnishes.trans_nil isOther.2.1 site.distinct_apart, bind_eq_ok_iff.mpr ⟨_, uses,
        bind_eq_ok_iff.mpr ⟨_, found, bind_eq_ok_iff.mpr ⟨_, isOther.2.2, rfl⟩⟩⟩⟩
  | .whileLoop _ condition body =>
    rw [statement, Lexical.statement, addressable_repeatWhile, statementUses, site.denoted_eq]
    refine Meets.bind (Meets.weaken (expression_emits site.resolves inScope.1.bound) And.left) ?_
    rintro _ ⟨rfl, fits⟩
    refine Meets.bind ((block_meets site (nofun : ScopeKind.whileLoop ≠ .function) inScope.2
      laidOut).weaken And.right) fun emitted isEmitted => ?_
    exact Meets.pure ⟨⟨by rw [isEmitted.1.1], fits, isEmitted.1.2⟩, isEmitted.2.1,
      bind_eq_ok_iff.mpr ⟨_, isEmitted.2.2, rfl⟩⟩
  | .forLoop _ init condition update (.mk _ scope body) =>
    obtain ⟨opened, rfl, initInScope, conditionInScope, updateInScope, inside⟩ := inScope
    obtain ⟨_, same, opens, laidOutBody⟩ := laidOut
    cases same
    have entered : Site functions tree { scope := opened, vars := [] } (layer :: outer)
        (initVars init ++ (declaredBy body ++ [])) returns (scopesOf body) := by
      rw [List.append_nil]
      exact site.enter (nofun : ScopeKind.forLoop ≠ .function) opens
    obtain ⟨row, found, stocked⟩ := entered.serves.here
    rw [List.append_nil] at stocked
    rw [statement, scopeOf, Lexical.statement, Option.getD_some]
    simp only [addressable_append, addressable_repeatWhile, addressable_cons]
    refine Meets.bind (Meets.ok rfl) fun inner isInner => ?_
    subst isInner
    refine Meets.bind (openFrame_meets site.formed found stocked) fun entry isEntry => ?_
    refine Meets.bind ((loopInit_meets entered initInScope).with_eq.weaken
      fun fits => fits.1.1.2) ?_
    rintro start ⟨foundStart, ⟨isStart, fitsStart⟩, furnishes⟩
    have started : Site functions start.tree { scope := opened, vars := initVars init }
        (layer :: outer) (declaredBy body ++ []) returns (scopesOf body) :=
      entered.advance furnishes
    have laidOutStarted := allLaidOut.congr laidOutBody (entered.kept furnishes)
    refine Meets.bind (Meets.weaken (expression_emits started.resolves conditionInScope.bound)
      fun fits => fits.1.2.1) ?_
    rintro _ ⟨rfl, fitsTest⟩
    refine Meets.bind ((statements_meets started inside laidOutStarted).with_eq.weaken
      fun fits => fits.1.2.2.1) ?_
    rintro emitted ⟨foundBody, ⟨isEmitted, fitsBody⟩, more, uses⟩
    have finished : Site functions emitted.tree
        { scope := opened, vars := initVars init ++ declaredBy body } (layer :: outer) [] returns
        [] := by
      rw [← List.append_nil (scopesOf body)] at started
      exact started.advance more
    have boundUpdate : ∀ made ∈ update, made.Bound functions
        ({ scope := opened, vars := initVars init ++ declaredBy body } :: layer :: outer) :=
      fun made isUpdate => (updateInScope made isUpdate).bound.declare (declaredBy body)
    refine Meets.bind (Meets.weaken (loopUpdate_emits finished.resolves boundUpdate)
      fun fits => fits.1.2.2.2) ?_
    rintro _ ⟨rfl, fitsUpdate⟩
    refine Meets.pure ⟨⟨?_, ?_⟩, site.leave ⟨row, found, stocked⟩ (furnishes.trans more nofun), ?_⟩
    · rw [isEntry, isStart, isEmitted]
      rfl
    · simp [Lexical.openFrame, fitsStart, fitsTest, fitsBody, fitsUpdate]
    · rw [statementUses, scopeOf]
      refine bind_eq_ok_iff.mpr ⟨_, rfl, bind_eq_ok_iff.mpr ⟨_, foundStart, bind_eq_ok_iff.mpr
        ⟨_, uses, bind_eq_ok_iff.mpr ⟨_, foundBody, ?_⟩⟩⟩⟩
      rw [entered.denoted_eq, started.denoted_eq, finished.denoted_eq]
      rfl

theorem block_meets {returns : Option Ty} {tree : ScopeTree} {layer : Layer} {outer : Context}
    {todo : Vars} {kind : ScopeKind} {before : Block}
    (site : Site functions tree layer outer todo returns before.scopes)
    (notFunction : kind ≠ .function) (inScope : before.Scoped functions returns (layer :: outer))
    (laidOut : before.LaidOut tree layer.scope kind) :
    Meets (Addressable (Lexical.block functions (layer :: outer) before))
      (fun emitted => (emitted.code = Lexical.block functions (layer :: outer) before ∧
          Addressable (Lexical.block functions (layer :: outer) before)) ∧
        ScopeTree.Furnishes layer [] before.scopes tree emitted.tree ∧
        blockUses tree before = .ok (before.uses true (layer :: outer)))
      (block tree before) := by
  match before with
  | .mk position scope body =>
    obtain ⟨opened, rfl, inside⟩ := inScope
    obtain ⟨_, same, opens, laidOutBody⟩ := laidOut
    cases same
    have entered : Site functions tree { scope := opened, vars := [] } (layer :: outer)
        (declaredBy body ++ []) returns (scopesOf body) := by
      rw [List.append_nil]
      exact site.enter notFunction opens
    obtain ⟨row, found, stocked⟩ := entered.serves.here
    rw [List.append_nil] at stocked
    rw [block, scopeOf, Lexical.block, addressable_append, addressable_append]
    refine Meets.bind (Meets.ok rfl) fun inner isInner => ?_
    subst isInner
    refine Meets.bind (openFrame_meets site.formed found stocked) fun entry isEntry => ?_
    refine Meets.bind ((statements_meets entered inside laidOutBody).weaken
      fun fits => fits.1.2) fun emitted isEmitted => ?_
    refine Meets.pure ⟨⟨?_, ?_⟩, site.leave ⟨row, found, stocked⟩ isEmitted.2.1, ?_⟩
    · rw [isEntry, isEmitted.1.1]
      rfl
    · simp [Lexical.openFrame, isEmitted.1.2]
    · rw [blockUses, scopeOf]
      exact bind_eq_ok_iff.mpr ⟨_, rfl, isEmitted.2.2⟩

theorem statements_meets {returns : Option Ty} {tree : ScopeTree} {layer : Layer} {outer : Context}
    {todo : Vars} {before : List Stmt}
    (site : Site functions tree layer outer (declaredBy before ++ todo) returns (scopesOf before))
    (inScope : allScoped functions returns (layer :: outer) before)
    (laidOut : allLaidOut tree layer.scope before) :
    Meets (Addressable (Lexical.statements functions layer outer before))
      (fun emitted => (emitted.code = Lexical.statements functions layer outer before ∧
          Addressable (Lexical.statements functions layer outer before)) ∧
        ScopeTree.Furnishes layer (declaredBy before) (scopesOf before) tree emitted.tree ∧
        statementsUses tree layer.scope before = .ok (usesOf true (layer :: outer) before))
      (statements tree layer.scope before) := by
  match before with
  | [] => exact Meets.ok ⟨⟨rfl, addressable_nil⟩, .refl site.formed, rfl⟩
  | first :: rest =>
    rw [declaredBy_cons, List.append_assoc, scopesOf] at site
    rw [statements, Lexical.statements, addressable_append]
    refine Meets.bind ((statement_meets (site.narrow (List.sublist_append_left _ _)) inScope.1
      laidOut.1).with_eq.weaken And.left) ?_
    rintro emitted ⟨found, ⟨isEmitted, fits⟩, furnishes, uses⟩
    have next := site.advance furnishes
    have laidOutRest := allLaidOut.congr laidOut.2 (site.kept furnishes)
    refine Meets.bind ((statements_meets next inScope.2 laidOutRest).weaken And.right)
      fun others isOthers => ?_
    refine Meets.pure ⟨⟨by rw [isEmitted, isOthers.1.1], fits, isOthers.1.2⟩, ?_, ?_⟩
    · rw [declaredBy_cons, scopesOf]
      exact furnishes.trans isOthers.2.1 site.distinct_apart
    · rw [statementsUses]
      exact bind_eq_ok_iff.mpr ⟨_, uses, bind_eq_ok_iff.mpr ⟨_, found,
        bind_eq_ok_iff.mpr ⟨_, isOthers.2.2, rfl⟩⟩⟩

end

end Statements

/-! ### Programs -/

/-- The code of a program, and its scopes with the storage that was given out for it. -/
def furnish (program : Program) (tree : ScopeTree) : Except Fault Emitted := do
  let prepared := (← tree.countSlots).labelFunctions
  let (functions, others) := program.statements.partition Stmt.isFunction
  let first ← statements prepared ScopeTree.global functions
  let entry ← openFrame first.tree ScopeTree.global
  let main ← statements first.tree ScopeTree.global others
  return {
    code := first.code ++ [.label "main"] ++ entry ++ main.code ++ [.op .cframe, .op .halt]
    tree := main.tree }

/-- The scopes are left out in the end. -/
theorem generate_eq (program : Program) (tree : ScopeTree) :
    generate program tree = Emitted.code <$> furnish program tree := by
  simp only [generate, furnish, map_bind, map_pure]

/-- The tree that code generation starts from: counted again and labelled, which changes the
functions of the global scope and nothing else. -/
theorem prepared_meets (sound : tree.Sound) (found : tree.row? ScopeTree.global = some row) :
    Meets safe
      (fun counted => counted.labelFunctions.row? =
        Function.update tree.row? ScopeTree.global
          (some { row with symbols := row.symbols.map ScopeTree.labelled }))
      tree.countSlots := by
  refine Meets.mono (ScopeTree.countSlots_meets sound.tidy) ?_
  rintro counted ⟨_, rows⟩
  have sameRows : counted.row? = tree.row? := by
    funext id
    rw [rows]
    cases here : tree.row? id with
    | none => rfl
    | some other =>
      have unused := sound.unused here
      rw [Option.map_some, ← unused]
  rw [ScopeTree.row?_labelFunctions (sameRows ▸ found), sameRows]

/-- The entry of a program is a place for which code can be generated. -/
theorem site_of_consistent {prepared : ScopeTree} {statements : List Stmt}
    (consistent : Consistent tree statements) (found : tree.row? ScopeTree.global = some row)
    (localsOf : row.locals = unplaced (declaredBy statements))
    (rows : prepared.row? = Function.update tree.row? ScopeTree.global
      (some { row with symbols := row.symbols.map ScopeTree.labelled })) :
    Site tree.lookupFunction? prepared { scope := ScopeTree.global, vars := [] } []
      (declaredBy statements) none (scopesOf statements) := by
  have tidy := consistent.sound.tidy found
  have sameLocals : ({ row with symbols := row.symbols.map ScopeTree.labelled } : Scope).locals =
      row.locals := ScopeTree.variablesAmong_labelled row.symbols
  have formed := consistent.sound.toFormed.update found rows rfl rfl (ScopeTree.tidy_labelled tidy)
  have here : prepared.row? ScopeTree.global =
      some { row with symbols := row.symbols.map ScopeTree.labelled } := by
    rw [rows, Function.update_self]
  refine ⟨formed, ⟨?_, consistent.callable⟩, ⟨formed.rooted.visible_global, ?_, nofun⟩,
    fun isSome => absurd rfl isSome, consistent.distinct, ?_⟩
  · intro name
    rw [ScopeTree.lookupFunction?, ScopeTree.functionIn?_eq, here, ScopeTree.lookupFunction?,
      ScopeTree.functionIn?_eq, found]
    exact ScopeTree.lookup_labelled row.symbols name
  · have unused : row.nextFree = 0 := consistent.sound.unused found
    exact ⟨_, here, sameLocals.trans localsOf, unused⟩
  · intro id member isGlobal
    rw [List.map_cons, List.map_nil, List.mem_singleton] at isGlobal
    exact consistent.inner id member isGlobal

/-- The entry of a program: its functions and its other statements are in scope and laid out,
and the tree serves the place in front of them. -/
structure Entry (tree prepared : ScopeTree) (functions others : List Stmt) : Prop where
  vars : prepared.varsOf = tree.varsOf
  site : Site tree.lookupFunction? prepared { scope := ScopeTree.global, vars := [] } []
    (declaredBy functions ++ declaredBy others) none (scopesOf functions ++ scopesOf others)
  empty : declaredBy functions = []
  functionsInScope : allScoped tree.lookupFunction? none
    [{ scope := ScopeTree.global, vars := [] }] functions
  othersInScope : allScoped tree.lookupFunction? none
    [{ scope := ScopeTree.global, vars := [] }] others
  functionsLaidOut : allLaidOut prepared ScopeTree.global functions
  othersLaidOut : allLaidOut prepared ScopeTree.global others

theorem entry_meets {statements : List Stmt} (consistent : Consistent tree statements) :
    Meets safe
      (fun counted => Entry tree counted.labelFunctions (statements.filter Stmt.isFunction)
        (statements.filter fun statement => !statement.isFunction))
      tree.countSlots := by
  have hoisted := consistent.hoist rfl rfl
  obtain ⟨row, found, localsOf⟩ := hoisted.globals
  refine Meets.mono (prepared_meets consistent.sound found) fun counted rows => ?_
  have inScope := hoisted.inScope
  have laidOut := allLaidOut.congr hoisted.laidOut fun id member =>
    show counted.labelFunctions.row? id = tree.row? id by
      rw [rows, Function.update_of_ne (hoisted.inner id member)]
  have site := site_of_consistent hoisted found localsOf rows
  have vars : counted.labelFunctions.varsOf = tree.varsOf := by
    funext id
    by_cases isGlobal : id = ScopeTree.global
    · subst isGlobal
      rw [ScopeTree.varsOf, ScopeTree.varsOf, rows, Function.update_self, found]
      exact congrArg (List.map _) (ScopeTree.variablesAmong_labelled row.symbols)
    · rw [ScopeTree.varsOf, ScopeTree.varsOf, rows, Function.update_of_ne isGlobal]
  rw [Analysis.hoist_eq] at site inScope laidOut
  rw [declaredBy_append, scopesOf_append] at site
  rw [allScoped_append, declaredBy_filter_isFunction, Context.declare_nil] at inScope
  rw [allLaidOut_append] at laidOut
  exact ⟨vars, site, declaredBy_filter_isFunction _, inScope.1, inScope.2, laidOut.1, laidOut.2⟩

namespace Entry

variable {prepared after : ScopeTree} {functions others : List Stmt}

variable (entry : Entry tree prepared functions others)

include entry

theorem siteOfFunctions :
    Site tree.lookupFunction? prepared { scope := ScopeTree.global, vars := [] } []
      (declaredBy functions ++ declaredBy others) none (scopesOf functions) :=
  entry.site.narrow (List.sublist_append_left _ _)

variable (furnishes : ScopeTree.Furnishes { scope := ScopeTree.global, vars := [] }
  (declaredBy functions) (scopesOf functions) prepared after)

include furnishes

/-- The other statements after the functions, which declare no variables. -/
theorem siteOfOthers :
    Site tree.lookupFunction? after { scope := ScopeTree.global, vars := [] } []
      (declaredBy others ++ []) none (scopesOf others) := by
  have next := entry.site.advance furnishes
  rw [entry.empty] at next
  rw [List.append_nil]
  exact next

theorem othersLaidOut_after : allLaidOut after ScopeTree.global others :=
  allLaidOut.congr entry.othersLaidOut (entry.site.kept furnishes)

end Entry

variable (consistent : Consistent tree program.statements)

include consistent

/-- The code of an accepted program is generated from its syntax, and every variable gets its
storage. There is a fault just if some level in that code cannot be counted. -/
theorem furnish_meets :
    Meets (Addressable (Lexical.program tree.lookupFunction? program.statements))
      (fun emitted =>
        (emitted.code = Lexical.program tree.lookupFunction? program.statements ∧
            Addressable (Lexical.program tree.lookupFunction? program.statements)) ∧
          emitted.tree.varsOf = tree.varsOf ∧ emitted.tree.Formed ∧
          ∀ id ∈ ScopeTree.global :: scopesOf program.statements, emitted.tree.Filled id)
      (furnish program tree) := by
  simp only [Lexical.program, addressable_append]
  refine Meets.bind (entry_meets consistent) fun counted entry => ?_
  dsimp only
  rw [List.partition_eq_filter_filter]
  refine Meets.bind ((statements_meets entry.siteOfFunctions entry.functionsInScope
    entry.functionsLaidOut).weaken fun fits => fits.1.1.1.1) fun first isFirst => ?_
  have next := entry.siteOfOthers isFirst.2.1
  obtain ⟨after, foundAfter, stocked⟩ := next.serves.here
  refine Meets.bind (openFrame_meets next.formed foundAfter stocked) fun opening isOpening => ?_
  refine Meets.bind ((statements_meets next entry.othersInScope
    (entry.othersLaidOut_after isFirst.2.1)).weaken fun fits => fits.1.2) fun main isMain => ?_
  rw [List.append_nil, declaredBy_filter_not_isFunction] at isOpening
  have whole := (entry.empty ▸ isFirst.2.1).trans_nil isMain.2.1 entry.site.distinct_apart
  refine Meets.pure ⟨⟨?_, ?_⟩, whole.keeps.vars.trans entry.vars, whole.formed, ?_⟩
  · rw [isFirst.1.1, isOpening, isMain.1.1]
    rfl
  · simp [Lexical.openFrame, isFirst.1.2, isMain.1.2]
  · refine List.forall_mem_cons.mpr ⟨?_, fun id member => whole.filled id ?_⟩
    · obtain ⟨row, found, filled⟩ := isMain.2.1.here after [] foundAfter stocked
      exact ⟨row, _, found, filled⟩
    · rw [← scopesOf_append, ← Analysis.hoist_eq, scopesOf_eq_flatMap]
      rw [scopesOf_eq_flatMap] at member
      exact ((Analysis.hoist_perm _).flatMap_right _).mem_iff.mpr member

/-- The code of the syntax is generated just if all levels in it can be counted. -/
theorem generate_emits :
    Emits (Lexical.program tree.lookupFunction? program.statements) (generate program tree) := by
  rw [generate_eq, ← bind_pure_comp]
  exact Meets.bind (furnish_meets consistent) fun emitted isEmitted => Meets.pure isEmitted.1

theorem generate_meets :
    Meets (Addressable (Lexical.program tree.lookupFunction? program.statements))
      (· = Lexical.program tree.lookupFunction? program.statements) (generate program tree) :=
  Meets.mono (generate_emits consistent) fun _ => And.left

theorem generate_eq_ok_iff :
    generate program tree = .ok code ↔
      code = Lexical.program tree.lookupFunction? program.statements ∧ Addressable code := by
  constructor
  · intro generated
    obtain ⟨rfl, fits⟩ := Meets.good_of_ok (generate_emits consistent) generated
    exact ⟨rfl, fits⟩
  · rintro ⟨rfl, fits⟩
    obtain ⟨_, generated, rfl, _⟩ := Meets.exists_ok (generate_emits consistent) fits
    exact generated

end Code

end PadLang
