/-
This file says what the tree of scopes and an analysed program have to do with each other.

An analysed program bears a scope at every block. Read with the contexts of its places, it is
well scoped if every name denotes something of a fitting type there. The tree lays the program
out if the scope of every block is a scope of the tree, inside the scope around the block, and
holds just the variables that the statements of the block declare directly. The first of the
two does not mention the tree, so nothing that happens to the tree later can spoil it; the
second depends only on the rows of the scopes that the program bears. It says the same of every
construct that opens a scope, and what each construct says of its scope can be listed.
-/

import PadLang.Proofs.Context

namespace PadLang

variable {statements : List Stmt} {functions : Functions} {context : Context} {statement : Stmt}
  {id around : ScopeId} {tree : ScopeTree} {name : Option String} {made : Assignment}
  {done : Action} {block : Block} {vars : Vars}

/-! ### Declarations and scopes of statements -/

/-- The variable of a declaration, if there is one. -/
def initVars : Option Declaration → Vars
  | none => []
  | some made => [(made.name.value, made.type.value)]

/-- The variables that parameters are. -/
def parameterVars (parameters : List Parameter) : Vars :=
  parameters.map fun parameter => (parameter.name.value, parameter.type.value)

theorem Stmt.exists_eq_function (isFunction : statement.isFunction = true) :
    ∃ span header body, statement = .function span header body := by
  cases statement with
  | function span header body => exact ⟨span, header, body, rfl⟩
  | _ => cases isFunction

/-- The variable that a statement declares in the scope it stands in. -/
def Stmt.declares : Stmt → Vars
  | .declaration _ made => [(made.name.value, made.type.value)]
  | .assignment _ _ | .action _ _ | .returnValue _ _ | .block _ _ | .function _ _ _
  | .conditional _ _ _ _ | .forLoop _ _ _ _ _ | .whileLoop _ _ _ => []

/-- The variables that statements declare in the scope they stand in. -/
def declaredBy (statements : List Stmt) : Vars := statements.flatMap Stmt.declares

@[simp] theorem declaredBy_nil : declaredBy [] = [] := rfl

@[simp] theorem declaredBy_cons (first : Stmt) (rest : List Stmt) :
    declaredBy (first :: rest) = first.declares ++ declaredBy rest := by
  simp [declaredBy]

@[simp] theorem declaredBy_append (first second : List Stmt) :
    declaredBy (first ++ second) = declaredBy first ++ declaredBy second := by
  simp [declaredBy]

mutual

/-- The scopes that a statement bears, in order. -/
def Stmt.scopes : Stmt → List ScopeId
  | .assignment _ _ | .declaration _ _ | .action _ _ | .returnValue _ _ => []
  | .block _ body => body.scopes
  | .function _ header body => header.scope.toList ++ body.scopes
  | .conditional _ _ first none => first.scopes
  | .conditional _ _ first (some second) => first.scopes ++ second.scopes
  | .forLoop _ _ _ _ body => body.scopes
  | .whileLoop _ _ body => body.scopes

/-- The scopes that a block bears, its own first. -/
def Block.scopes : Block → List ScopeId
  | .mk _ opened body => opened.toList ++ scopesOf body

/-- The scopes that statements bear. -/
def scopesOf : List Stmt → List ScopeId
  | [] => []
  | first :: rest => first.scopes ++ scopesOf rest

end

theorem scopesOf_append (first second : List Stmt) :
    scopesOf (first ++ second) = scopesOf first ++ scopesOf second := by
  induction first with
  | nil => rfl
  | cons statement rest inductionHypothesis =>
    rw [List.cons_append, scopesOf, scopesOf, inductionHypothesis, List.append_assoc]

theorem scopesOf_eq_flatMap (statements : List Stmt) :
    scopesOf statements = statements.flatMap Stmt.scopes := by
  induction statements with
  | nil => rfl
  | cons first rest inductionHypothesis => rw [scopesOf, List.flatMap_cons, inductionHypothesis]

theorem mem_scopesOf :
    id ∈ scopesOf statements ↔ ∃ statement ∈ statements, id ∈ statement.scopes := by
  rw [scopesOf_eq_flatMap, List.mem_flatMap]

mutual

/-- Every type that a statement declares is good. -/
def Stmt.AllTypes (good : Ty → Prop) : Stmt → Prop
  | .assignment _ _ | .action _ _ | .returnValue _ _ => True
  | .declaration _ made => good made.type.value
  | .block _ body => body.AllTypes good
  | .function _ header body =>
    (∀ parameter ∈ header.parameters, good parameter.type.value) ∧ body.AllTypes good
  | .conditional _ _ first none => first.AllTypes good
  | .conditional _ _ first (some second) => first.AllTypes good ∧ second.AllTypes good
  | .forLoop _ init _ _ body => (∀ made ∈ init, good made.type.value) ∧ body.AllTypes good
  | .whileLoop _ _ body => body.AllTypes good

/-- Every type that a block declares is good. -/
def Block.AllTypes (good : Ty → Prop) : Block → Prop
  | .mk _ _ body => allTypes good body

/-- Every type that statements declare is good. -/
def allTypes (good : Ty → Prop) : List Stmt → Prop
  | [] => True
  | first :: rest => first.AllTypes good ∧ allTypes good rest

end

/-- A counter can hold the cells of every type that a statement declares. -/
abbrev Stmt.Sized : Stmt → Prop := Stmt.AllTypes Ty.Sized

/-- A counter can hold the cells of every type that a block declares. -/
abbrev Block.Sized : Block → Prop := Block.AllTypes Ty.Sized

/-- A counter can hold the cells of every type that statements declare. -/
abbrev allSized : List Stmt → Prop := allTypes Ty.Sized

mutual

theorem Stmt.AllTypes.mono {good other : Ty → Prop} (weaker : ∀ type, good type → other type)
    {statement : Stmt} (types : statement.AllTypes good) : statement.AllTypes other := by
  match statement with
  | .assignment _ _ | .action _ _ | .returnValue _ _ => trivial
  | .declaration _ made => exact weaker _ types
  | .block _ _ | .conditional _ _ _ none | .whileLoop _ _ _ =>
    exact Block.AllTypes.mono weaker types
  | .function _ header body =>
    exact ⟨fun parameter member => weaker _ (types.1 parameter member), types.2.mono weaker⟩
  | .conditional _ _ first (some second) => exact ⟨types.1.mono weaker, types.2.mono weaker⟩
  | .forLoop _ init _ _ body =>
    exact ⟨fun made isInit => weaker _ (types.1 made isInit), types.2.mono weaker⟩

theorem Block.AllTypes.mono {good other : Ty → Prop} (weaker : ∀ type, good type → other type)
    {block : Block} (types : block.AllTypes good) : block.AllTypes other := by
  match block with
  | .mk _ _ body => exact allTypes.mono weaker types

theorem allTypes.mono {good other : Ty → Prop} (weaker : ∀ type, good type → other type)
    {statements : List Stmt} (types : allTypes good statements) : allTypes other statements := by
  match statements with
  | [] => trivial
  | first :: rest => exact ⟨types.1.mono weaker, allTypes.mono weaker types.2⟩

end

/-! ### Well-scoped programs -/

/-- The target of an assignment denotes a variable, and index and value fit it. -/
def Assignment.Scoped (functions : Functions) (context : Context) (made : Assignment) : Prop :=
  ∃ found, context.find? made.target.value = some found ∧
    match made.index with
    | none => HasType functions context made.value found.type
    | some index => ∃ element, found.type.element? = some element ∧
        HasType functions context index .int ∧ HasType functions context made.value element

/-- Every name in an assignment denotes something. -/
def Assignment.Bound (functions : Functions) (context : Context) (made : Assignment) : Prop :=
  (∃ found, context.find? made.target.value = some found) ∧
    (∀ index ∈ made.index, PadLang.Bound functions context index) ∧
    PadLang.Bound functions context made.value

theorem Assignment.Scoped.bound (inScope : made.Scoped functions context) :
    made.Bound functions context := by
  obtain ⟨target, index, value⟩ := made
  obtain ⟨found, denotes, typed⟩ := inScope
  cases index with
  | none => exact ⟨⟨found, denotes⟩, nofun, typed.bound⟩
  | some index =>
    obtain ⟨element, _, typedIndex, typedValue⟩ := typed
    refine ⟨⟨found, denotes⟩, fun other isIndex => ?_, typedValue.bound⟩
    cases isIndex
    exact typedIndex.bound

theorem Assignment.Bound.declare (bound : made.Bound functions context) (more : Vars) :
    made.Bound functions (context.declare more) := by
  obtain ⟨⟨found, denotes⟩, boundIndex, boundValue⟩ := bound
  exact ⟨Context.exists_find?_declare denotes more,
    fun index isIndex => (boundIndex index isIndex).declare more, boundValue.declare more⟩

/-- The operands of an action have the types it takes. -/
def Action.Scoped (functions : Functions) (context : Context) : Action → Prop
  | .print value => ∃ type, HasType functions context value type
  | .delay milliseconds => HasType functions context milliseconds .int
  | .write x y colour =>
    HasType functions context x .int ∧ HasType functions context y .int ∧
      HasType functions context colour .colour
  | .writeBox x y width height colour =>
    HasType functions context x .int ∧ HasType functions context y .int ∧
      HasType functions context width .int ∧ HasType functions context height .int ∧
        HasType functions context colour .colour
  | .clear colour => HasType functions context colour .colour

/-- The expressions of an action. -/
def Action.expressions : Action → List Expr
  | .print value => [value]
  | .delay milliseconds => [milliseconds]
  | .write x y colour => [x, y, colour]
  | .writeBox x y width height colour => [x, y, width, height, colour]
  | .clear colour => [colour]

theorem Action.Scoped.exists_hasType (inScope : done.Scoped functions context) :
    ∀ item ∈ done.expressions, ∃ type, HasType functions context item type := by
  cases done with
  | print value => exact List.forall_mem_singleton.mpr inScope
  | delay _ | clear _ => exact List.forall_mem_singleton.mpr ⟨_, inScope⟩
  | write x y colour =>
    simp only [Action.expressions, List.forall_mem_cons]
    exact ⟨⟨_, inScope.1⟩, ⟨_, inScope.2.1⟩, ⟨_, inScope.2.2⟩, List.forall_mem_nil _⟩
  | writeBox x y width height colour =>
    simp only [Action.expressions, List.forall_mem_cons]
    exact ⟨⟨_, inScope.1⟩, ⟨_, inScope.2.1⟩, ⟨_, inScope.2.2.1⟩, ⟨_, inScope.2.2.2.1⟩,
      ⟨_, inScope.2.2.2.2⟩, List.forall_mem_nil _⟩

theorem Action.Scoped.bound (inScope : done.Scoped functions context) :
    ∀ item ∈ done.expressions, PadLang.Bound functions context item := by
  intro item member
  obtain ⟨type, typed⟩ := inScope.exists_hasType item member
  exact typed.bound

/-- The value of a declaration has the type of its variable. -/
def Declaration.Scoped (functions : Functions) (context : Context) (made : Declaration) : Prop :=
  HasType functions context made.value made.type.value

mutual

/-- Every name in a statement denotes something that fits, in the context of its place. -/
def Stmt.Scoped (functions : Functions) (returns : Option Ty) (context : Context) : Stmt → Prop
  | .assignment _ made => made.Scoped functions context
  | .declaration _ made => made.Scoped functions context
  | .action _ done => done.Scoped functions context
  | .returnValue _ value =>
    ∃ type, returns = some type ∧ HasType functions context value type
  | .block _ body => body.Scoped functions returns context
  | .function _ header body =>
    ∃ opened, header.scope = some opened ∧
      body.Scoped functions (some header.returns.value)
        [{ scope := opened, vars := parameterVars header.parameters }]
  | .conditional _ condition first none =>
    HasType functions context condition .bool ∧ first.Scoped functions returns context
  | .conditional _ condition first (some second) =>
    HasType functions context condition .bool ∧ first.Scoped functions returns context ∧
      second.Scoped functions returns context
  | .whileLoop _ condition body =>
    HasType functions context condition .bool ∧ body.Scoped functions returns context
  | .forLoop _ init condition update (.mk _ scope body) =>
    ∃ opened, scope = some opened ∧
      (∀ made ∈ init, made.Scoped functions ({ scope := opened, vars := [] } :: context)) ∧
      HasType functions ({ scope := opened, vars := initVars init } :: context) condition .bool ∧
      (∀ made ∈ update,
        made.Scoped functions ({ scope := opened, vars := initVars init } :: context)) ∧
      allScoped functions returns ({ scope := opened, vars := initVars init } :: context) body

/-- Every name in a block denotes something that fits. -/
def Block.Scoped (functions : Functions) (returns : Option Ty) (context : Context) : Block → Prop
  | .mk _ scope body =>
    ∃ opened, scope = some opened ∧
      allScoped functions returns ({ scope := opened, vars := [] } :: context) body

/-- Every name in statements that follow one another denotes something that fits. -/
def allScoped (functions : Functions) (returns : Option Ty) (context : Context) :
    List Stmt → Prop
  | [] => True
  | first :: rest =>
    first.Scoped functions returns context ∧
      allScoped functions returns (context.declare first.declares) rest

end

/-! ### Constructs that open scopes -/

/-- The scopes that a statement opens in the scope it stands in. -/
def Stmt.outermost : Stmt → List ScopeId
  | .assignment _ _ | .declaration _ _ | .action _ _ | .returnValue _ _ => []
  | .block _ body => body.scope.toList
  | .function _ header _ => header.scope.toList
  | .conditional _ _ first none => first.scope.toList
  | .conditional _ _ first (some second) => first.scope.toList ++ second.scope.toList
  | .forLoop _ _ _ _ body => body.scope.toList
  | .whileLoop _ _ body => body.scope.toList

/-- The scopes that statements open in the scope they stand in. -/
def outermostOf (statements : List Stmt) : List ScopeId := statements.flatMap Stmt.outermost

/-- A construct that opens a scope: the scope it bears, and what it says about that scope. -/
structure Opening where
  scope : Option ScopeId
  kind : ScopeKind
  name : Option String := none
  parent : Option ScopeId
  children : List ScopeId
  vars : Vars

mutual

/-- The constructs in a statement that open scopes, in order. -/
def Stmt.openings (around : Option ScopeId) : Stmt → List Opening
  | .assignment _ _ | .declaration _ _ | .action _ _ | .returnValue _ _ => []
  | .block _ body => body.openings around .block
  -- the parameters have a scope of their own, and the body is the only one inside it
  | .function _ header body =>
    { scope := header.scope, kind := .function, name := some header.name.value, parent := around
      children := body.scope.toList, vars := parameterVars header.parameters } ::
      body.openings header.scope .block
  | .conditional _ _ first none => first.openings around .consequent
  | .conditional _ _ first (some second) =>
    first.openings around .consequent ++ second.openings around .alternative
  -- the variable of a loop is declared in the scope of its body
  | .forLoop _ init _ _ (.mk _ scope body) =>
    { scope, kind := .forLoop, parent := around, children := outermostOf body
      vars := initVars init ++ declaredBy body } :: openingsOf scope body
  | .whileLoop _ _ body => body.openings around .whileLoop

/-- A block and the constructs in it that open scopes, in order. -/
def Block.openings (around : Option ScopeId) (kind : ScopeKind) : Block → List Opening
  | .mk _ scope body =>
    { scope, kind, parent := around, children := outermostOf body, vars := declaredBy body } ::
      openingsOf scope body

/-- The constructs in statements that open scopes, in order. -/
def openingsOf (around : Option ScopeId) : List Stmt → List Opening
  | [] => []
  | first :: rest => first.openings around ++ openingsOf around rest

end

theorem filterMap_scope_cons (opening : Opening) (rest : List Opening) :
    (opening :: rest).filterMap Opening.scope =
      opening.scope.toList ++ rest.filterMap Opening.scope := by
  cases isScope : opening.scope <;> simp [isScope]

mutual

/-- The scopes of the constructs in a statement are those that it bears. -/
theorem Stmt.scopes_openings (statement : Stmt) (around : Option ScopeId) :
    (statement.openings around).filterMap Opening.scope = statement.scopes := by
  match statement with
  | .assignment _ _ | .declaration _ _ | .action _ _ | .returnValue _ _ => rfl
  | .block _ body | .conditional _ _ body none | .whileLoop _ _ body =>
    exact body.scopes_openings around _
  | .function _ header body =>
    rw [Stmt.openings, filterMap_scope_cons, body.scopes_openings, Stmt.scopes]
  | .conditional _ _ first (some second) =>
    rw [Stmt.openings, List.filterMap_append, first.scopes_openings, second.scopes_openings,
      Stmt.scopes]
  | .forLoop _ _ _ _ (.mk _ scope body) =>
    rw [Stmt.openings, filterMap_scope_cons, scopes_openingsOf body, Stmt.scopes, Block.scopes]

theorem Block.scopes_openings (block : Block) (around : Option ScopeId) (kind : ScopeKind) :
    (block.openings around kind).filterMap Opening.scope = block.scopes := by
  match block with
  | .mk _ scope body =>
    rw [Block.openings, filterMap_scope_cons, scopes_openingsOf body, Block.scopes]

theorem scopes_openingsOf (statements : List Stmt) (around : Option ScopeId) :
    (openingsOf around statements).filterMap Opening.scope = scopesOf statements := by
  match statements with
  | [] => rfl
  | first :: rest =>
    rw [openingsOf, List.filterMap_append, first.scopes_openings, scopes_openingsOf rest, scopesOf]

end

theorem Block.exists_opening (member : id ∈ block.scope.toList) (around : Option ScopeId)
    (kind : ScopeKind) :
    ∃ opening ∈ block.openings around kind,
      opening.scope = some id ∧ opening.parent = around ∧ opening.kind = kind := by
  obtain ⟨_, scope, body⟩ := block
  exact ⟨_, List.mem_cons_self, Option.mem_toList.mp member, rfl, rfl⟩

/-- The scopes that a statement opens where it stands are those of constructs in it, and just a
function opens the scope of a function. -/
theorem Stmt.exists_opening (member : id ∈ statement.outermost) (around : Option ScopeId) :
    ∃ opening ∈ statement.openings around, opening.scope = some id ∧ opening.parent = around ∧
      (opening.kind == .function) = statement.isFunction := by
  have ofBlock {block : Block} (kind : ScopeKind) (isScope : id ∈ block.scope.toList)
      (notFunction : kind ≠ .function) :
      ∃ opening ∈ block.openings around kind, opening.scope = some id ∧
        opening.parent = around ∧ (opening.kind == .function) = false := by
    obtain ⟨opening, isOpening, same, isParent, rfl⟩ := Block.exists_opening isScope around kind
    exact ⟨opening, isOpening, same, isParent, beq_false_of_ne notFunction⟩
  match statement with
  | .block _ body | .conditional _ _ body none | .whileLoop _ _ body =>
    exact ofBlock _ member (by decide)
  | .function _ _ _ | .forLoop _ _ _ _ (.mk _ _ _) =>
    exact ⟨_, List.mem_cons_self, Option.mem_toList.mp member, rfl, rfl⟩
  | .conditional _ _ first (some second) =>
    rcases List.mem_append.mp member with isFirst | isSecond
    · obtain ⟨opening, isOpening, same⟩ := ofBlock .consequent isFirst (by decide)
      exact ⟨opening, List.mem_append_left _ isOpening, same⟩
    · obtain ⟨opening, isOpening, same⟩ := ofBlock .alternative isSecond (by decide)
      exact ⟨opening, List.mem_append_right _ isOpening, same⟩

theorem openingsOf_eq_flatMap (around : Option ScopeId) (statements : List Stmt) :
    openingsOf around statements = statements.flatMap (Stmt.openings around) := by
  induction statements with
  | nil => rfl
  | cons first rest inductionHypothesis => rw [openingsOf, List.flatMap_cons, inductionHypothesis]

theorem exists_opening_of_mem_outermostOf (member : id ∈ outermostOf statements)
    (around : Option ScopeId) :
    ∃ opening ∈ openingsOf around statements,
      opening.scope = some id ∧ opening.parent = around := by
  obtain ⟨statement, isStatement, isOutermost⟩ := List.mem_flatMap.mp member
  obtain ⟨opening, isOpening, isScope, isParent, _⟩ := Stmt.exists_opening isOutermost around
  rw [openingsOf_eq_flatMap]
  exact ⟨opening, List.mem_flatMap.mpr ⟨statement, isStatement, isOpening⟩, isScope, isParent⟩

theorem outermostOf_subset (statements : List Stmt) :
    outermostOf statements ⊆ scopesOf statements := by
  intro id member
  obtain ⟨opening, isOpening, isScope, _⟩ := exists_opening_of_mem_outermostOf member none
  rw [← scopes_openingsOf statements none]
  exact List.mem_filterMap.mpr ⟨opening, isOpening, isScope⟩

/-! ### Trees that lay a program out -/

/-- A scope of the tree, inside another, that holds these variables and no storage yet. -/
def ScopeTree.Opens (tree : ScopeTree) (scope around : ScopeId) (kind : ScopeKind)
    (name : Option String) (vars : Vars) : Prop :=
  ∃ row, tree.row? scope = some row ∧ row.kind = kind ∧ row.name = name ∧
    row.parent = some around ∧ row.nextFree = 0 ∧ row.locals = unplaced vars

theorem ScopeTree.Opens.congr {other : ScopeTree} {scope : ScopeId} {kind : ScopeKind}
    (opens : tree.Opens scope around kind name vars) (same : other.row? scope = tree.row? scope) :
    other.Opens scope around kind name vars := by
  obtain ⟨row, found, rest⟩ := opens
  exact ⟨row, same.trans found, rest⟩

mutual

/-- The tree lays out a statement that stands in a scope. -/
def Stmt.LaidOut (tree : ScopeTree) (around : ScopeId) : Stmt → Prop
  | .assignment _ _ | .declaration _ _ | .action _ _ | .returnValue _ _ => True
  | .block _ body => body.LaidOut tree around .block
  | .function _ header body =>
    ∃ opened, header.scope = some opened ∧
      tree.Opens opened around .function (some header.name.value)
        (parameterVars header.parameters) ∧
      body.LaidOut tree opened .block
  | .conditional _ _ first none => first.LaidOut tree around .consequent
  | .conditional _ _ first (some second) =>
    first.LaidOut tree around .consequent ∧ second.LaidOut tree around .alternative
  | .whileLoop _ _ body => body.LaidOut tree around .whileLoop
  | .forLoop _ init _ _ (.mk _ scope body) =>
    ∃ opened, scope = some opened ∧
      tree.Opens opened around .forLoop none (initVars init ++ declaredBy body) ∧
      allLaidOut tree opened body

/-- The tree lays out a block of some kind that stands in a scope. -/
def Block.LaidOut (tree : ScopeTree) (around : ScopeId) (kind : ScopeKind) : Block → Prop
  | .mk _ scope body =>
    ∃ opened, scope = some opened ∧ tree.Opens opened around kind none (declaredBy body) ∧
      allLaidOut tree opened body

/-- The tree lays out statements that stand in a scope. -/
def allLaidOut (tree : ScopeTree) (around : ScopeId) : List Stmt → Prop
  | [] => True
  | first :: rest => first.LaidOut tree around ∧ allLaidOut tree around rest

end

theorem allLaidOut_iff :
    allLaidOut tree around statements ↔
      ∀ statement ∈ statements, statement.LaidOut tree around := by
  induction statements with
  | nil => simp [allLaidOut]
  | cons first rest inductionHypothesis =>
    rw [allLaidOut, inductionHypothesis, List.forall_mem_cons]

theorem allLaidOut.of_mem (laidOut : allLaidOut tree around statements)
    (member : statement ∈ statements) : statement.LaidOut tree around :=
  allLaidOut_iff.mp laidOut statement member

/-- The tree has the scope that a construct bears, as the construct opens it. -/
def ScopeTree.Provides (tree : ScopeTree) (opening : Opening) : Prop :=
  ∃ scope around, opening.scope = some scope ∧ opening.parent = some around ∧
    tree.Opens scope around opening.kind opening.name opening.vars

section Provides

variable {tree other : ScopeTree} {around : ScopeId} {kind : ScopeKind}

theorem ScopeTree.provides_cons_iff {scope : Option ScopeId} {children : List ScopeId}
    {inside : ScopeId → Prop} (openings : Option ScopeId → List Opening)
    (rest : ∀ opened, inside opened ↔ ∀ opening ∈ openings (some opened), tree.Provides opening) :
    (∃ opened, scope = some opened ∧ tree.Opens opened around kind name vars ∧ inside opened) ↔
      ∀ opening ∈ { scope, kind, name, parent := some around, children, vars } :: openings scope,
        tree.Provides opening := by
  rw [List.forall_mem_cons]
  constructor
  · rintro ⟨opened, rfl, opens, isInside⟩
    exact ⟨⟨opened, around, rfl, rfl, opens⟩, (rest opened).mp isInside⟩
  · rintro ⟨⟨opened, _, rfl, ⟨⟩, opens⟩, others⟩
    exact ⟨opened, rfl, opens, (rest opened).mpr others⟩

mutual

/-- The tree lays out a statement if it has the scopes of all constructs in it. -/
theorem Stmt.laidOut_iff {around : ScopeId} {statement : Stmt} :
    statement.LaidOut tree around ↔
      ∀ opening ∈ statement.openings (some around), tree.Provides opening := by
  match statement with
  | .assignment _ _ | .declaration _ _ | .action _ _ | .returnValue _ _ =>
    exact iff_of_true trivial (List.forall_mem_nil _)
  | .block _ body | .conditional _ _ body none | .whileLoop _ _ body => exact Block.laidOut_iff
  | .function _ header body =>
    exact ScopeTree.provides_cons_iff (body.openings · .block) fun _ => Block.laidOut_iff
  | .conditional _ _ first (some second) =>
    rw [Stmt.LaidOut, Stmt.openings, List.forall_mem_append, Block.laidOut_iff, Block.laidOut_iff]
  | .forLoop _ _ _ _ (.mk _ scope body) =>
    exact ScopeTree.provides_cons_iff (openingsOf · body) fun _ => allLaidOut_iff_provides

theorem Block.laidOut_iff {around : ScopeId} {kind : ScopeKind} {block : Block} :
    block.LaidOut tree around kind ↔
      ∀ opening ∈ block.openings (some around) kind, tree.Provides opening := by
  match block with
  | .mk _ scope body =>
    exact ScopeTree.provides_cons_iff (openingsOf · body) fun _ => allLaidOut_iff_provides

theorem allLaidOut_iff_provides {around : ScopeId} {statements : List Stmt} :
    allLaidOut tree around statements ↔
      ∀ opening ∈ openingsOf (some around) statements, tree.Provides opening := by
  match statements with
  | [] => exact iff_of_true trivial (List.forall_mem_nil _)
  | first :: rest =>
    rw [allLaidOut, openingsOf, List.forall_mem_append, Stmt.laidOut_iff,
      allLaidOut_iff_provides]

end

/-- A tree with the same rows has the same scopes of constructs. -/
theorem ScopeTree.provides_congr {openings : List Opening}
    (provides : ∀ opening ∈ openings, tree.Provides opening)
    (same : ∀ id ∈ openings.filterMap Opening.scope, other.row? id = tree.row? id) :
    ∀ opening ∈ openings, other.Provides opening := by
  intro opening member
  obtain ⟨scope, around, isScope, isParent, opens⟩ := provides opening member
  have row := same scope (List.mem_filterMap.mpr ⟨opening, member, isScope⟩)
  exact ⟨scope, around, isScope, isParent, opens.congr row⟩

/-- A tree with the same rows at the scopes of a statement lays it out too. -/
theorem Stmt.LaidOut.congr (laidOut : statement.LaidOut tree around)
    (same : ∀ id ∈ statement.scopes, other.row? id = tree.row? id) :
    statement.LaidOut other around := by
  rw [← statement.scopes_openings (some around)] at same
  exact Stmt.laidOut_iff.mpr (ScopeTree.provides_congr (Stmt.laidOut_iff.mp laidOut) same)

theorem Block.LaidOut.congr (laidOut : block.LaidOut tree around kind)
    (same : ∀ id ∈ block.scopes, other.row? id = tree.row? id) :
    block.LaidOut other around kind := by
  rw [← block.scopes_openings (some around) kind] at same
  exact Block.laidOut_iff.mpr (ScopeTree.provides_congr (Block.laidOut_iff.mp laidOut) same)

theorem allLaidOut.congr (laidOut : allLaidOut tree around statements)
    (same : ∀ id ∈ scopesOf statements, other.row? id = tree.row? id) :
    allLaidOut other around statements := by
  rw [← scopes_openingsOf statements (some around)] at same
  rw [allLaidOut_iff_provides] at laidOut ⊢
  exact ScopeTree.provides_congr laidOut same

end Provides

end PadLang
