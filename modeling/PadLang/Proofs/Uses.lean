/-
This file lists the places of a program where a variable is used, with what is found there.

A use stands in an expression or is the target of an assignment. The uses of a program are
listed in the order of its syntax, each with the variable that its name is found to denote. The
update of a loop stands before the body in the syntax but takes effect after it, so what its
names denote depends on whether the declarations of the body are already in view.
-/

import Mathlib.Data.List.Forall2
import PadLang.Proofs.Erasure
import PadLang.Proofs.Pruning

namespace PadLang

variable {context : Context} {opened : ScopeId} {name : String}

/-! ### Names of variables -/

mutual

/-- The names of variables in an expression, in order. -/
def Expr.names : Expr → List String
  | .literal _ _ | .side _ _ => []
  | .array _ items => namesOf items
  | .read _ x y => x.names ++ y.names
  | .randomInt _ limit => limit.names
  | .var _ name => [name]
  | .index _ name offset => name.value :: offset.names
  | .call _ _ items => namesOf items
  | .group _ inner => inner.names
  | .binary _ left _ right => left.names ++ right.names
  | .unary _ _ operand => operand.names

/-- The names of variables in expressions, in order. -/
def namesOf : List Expr → List String
  | [] => []
  | first :: rest => first.names ++ namesOf rest

end

theorem mem_namesOf {items : List Expr} :
    name ∈ namesOf items ↔ ∃ item ∈ items, name ∈ item.names := by
  induction items with
  | nil => simp [namesOf]
  | cons first rest inductionHypothesis => simp [namesOf, inductionHypothesis]

/-- The names of variables in an assignment, its target first. -/
def Assignment.names (made : Assignment) : List String :=
  made.target.value :: (made.index.map Expr.names).getD [] ++ made.value.names

/-- The names of variables in an action. -/
def Action.names : Action → List String
  | .print value => value.names
  | .delay milliseconds => milliseconds.names
  | .write x y colour => namesOf [x, y, colour]
  | .writeBox x y width height colour => namesOf [x, y, width, height, colour]
  | .clear colour => colour.names

/-- The names of variables in the declaration that opens a loop, if there is one. -/
def initNames (init : Option Declaration) : List String :=
  (init.map fun made => made.value.names).getD []

/-- The names of variables in the update of a loop, if there is one. -/
def updateNames (update : Option Assignment) : List String :=
  (update.map Assignment.names).getD []

/-! ### Uses -/

/-- Where a use stands. -/
inductive Clause where
  | ordinary
  /-- In the update of a loop whose body declares these names directly. -/
  | update (declared : List String)
deriving DecidableEq, Repr

/-- The use of a variable, and the variable that is found. -/
structure Use where
  clause : Clause
  name : String
  found : Option Denoted
deriving DecidableEq, Repr

/-- The uses of some names where they denote what is given. -/
def usesAt (clause : Clause) (denoted : String → Option Denoted) (names : List String) :
    List Use :=
  names.map fun name => { clause, name, found := denoted name }

/-- The names that statements declare directly. -/
def declaredNames (statements : List Stmt) : List String := (declaredBy statements).map Prod.fst

mutual

/-- The uses in a statement. The update of a loop sees the declarations of the body or not. -/
def Stmt.uses (late : Bool) (context : Context) : Stmt → List Use
  | .assignment _ made => usesAt .ordinary (context.find? ·) made.names
  | .declaration _ made => usesAt .ordinary (context.find? ·) made.value.names
  | .action _ done => usesAt .ordinary (context.find? ·) done.names
  | .returnValue _ value => usesAt .ordinary (context.find? ·) value.names
  | .block _ body => body.uses late context
  | .function _ header body =>
    body.uses late
      [{ scope := header.scope.getD ScopeTree.global, vars := parameterVars header.parameters }]
  | .conditional _ condition first none =>
    usesAt .ordinary (context.find? ·) condition.names ++ first.uses late context
  | .conditional _ condition first (some second) =>
    usesAt .ordinary (context.find? ·) condition.names ++ first.uses late context ++
      second.uses late context
  | .whileLoop _ condition body =>
    usesAt .ordinary (context.find? ·) condition.names ++ body.uses late context
  | .forLoop _ init condition update (.mk _ scope body) =>
    let entered : Layer := { scope := scope.getD ScopeTree.global, vars := [] }
    let started : Layer := { entered with vars := initVars init }
    let stepping : Layer :=
      { entered with vars := if late then initVars init ++ declaredBy body else initVars init }
    usesAt .ordinary (Context.find? · (entered :: context)) (initNames init) ++
      usesAt .ordinary (Context.find? · (started :: context)) condition.names ++
      usesAt (.update (declaredNames body)) (Context.find? · (stepping :: context))
        (updateNames update) ++
      usesOf late (started :: context) body

/-- The uses in a block. -/
def Block.uses (late : Bool) (context : Context) : Block → List Use
  | .mk _ scope body =>
    usesOf late ({ scope := scope.getD ScopeTree.global, vars := [] } :: context) body

/-- The uses in statements that follow one another. -/
def usesOf (late : Bool) (context : Context) : List Stmt → List Use
  | [] => []
  | first :: rest =>
    first.uses late context ++ usesOf late (context.declare first.declares) rest

end

mutual

theorem Expr.names_erase (expr : Expr) : expr.erase.names = expr.names := by
  match expr with
  | .literal _ _ | .side _ _ | .var _ _ => rfl
  | .array _ items | .call _ _ items => exact namesOf_eraseItems items
  | .read _ x y =>
    rw [Expr.erase, Expr.names, Expr.names, x.names_erase, y.names_erase]
  | .randomInt _ inner | .group _ inner | .unary _ _ inner => exact inner.names_erase
  | .index _ name offset => rw [Expr.erase, Expr.names, Expr.names, offset.names_erase]
  | .binary _ left _ right =>
    rw [Expr.erase, Expr.names, Expr.names, left.names_erase, right.names_erase]

theorem namesOf_eraseItems (items : List Expr) : namesOf (eraseItems items) = namesOf items := by
  match items with
  | [] => rfl
  | first :: rest =>
    rw [eraseItems, namesOf, namesOf, first.names_erase, namesOf_eraseItems rest]

end

theorem Assignment.names_erase (made : Assignment) : made.erase.names = made.names := by
  obtain ⟨target, index, value⟩ := made
  cases index with
  | none => rw [erase, names, names, Expr.names_erase]; rfl
  | some offset =>
    simp only [erase, names, Option.map_some, Option.getD_some, Expr.names_erase]

theorem Action.names_erase (done : Action) : done.erase.names = done.names := by
  cases done <;> simp only [erase, names, namesOf, Expr.names_erase]

theorem initNames_erase (init : Option Declaration) :
    initNames (init.map Declaration.erase) = initNames init := by
  cases init with
  | none => rfl
  | some made => exact made.value.names_erase

theorem updateNames_erase (update : Option Assignment) :
    updateNames (update.map Assignment.erase) = updateNames update := by
  cases update with
  | none => rfl
  | some made => exact made.names_erase

/-- The names in a statement that has no other statements inside. -/
def Stmt.simpleNames? : Stmt → Option (List String)
  | .assignment _ made => some made.names
  | .declaration _ made => some made.value.names
  | .action _ done => some done.names
  | .returnValue _ value => some value.names
  | _ => none

theorem Stmt.simpleNames?_erase (statement : Stmt) :
    statement.erase.simpleNames? = statement.simpleNames? := by
  fun_cases Stmt.erase statement
  case case1 made => exact congrArg some made.names_erase
  case case2 made => exact congrArg some made.value.names_erase
  case case3 done => exact congrArg some done.names_erase
  case case4 value => exact congrArg some value.names_erase
  all_goals rfl

/-- A simple statement is not changed by pruning, and what analysis notes on it does not change
its names. -/
theorem Stmt.uses_of_simple {before after : Stmt} {names : List String} {late : Bool}
    (simple : before.simpleNames? = some names) (erased : after.erase = before.erase) :
    after.pruned.uses late context = usesAt .ordinary (context.find? ·) names := by
  rw [← simpleNames?_erase, ← erased, simpleNames?_erase] at simple
  fun_cases Stmt.simpleNames? after
  case case5 => simp_all [Stmt.simpleNames?]
  all_goals
    cases simple
    rfl

mutual

theorem Stmt.alwaysReturns_erase (statement : Stmt) :
    statement.erase.alwaysReturns = statement.alwaysReturns := by
  match statement with
  | .assignment _ _ | .declaration _ _ | .action _ _ | .returnValue _ _ | .function _ _ _
  | .conditional _ _ _ none | .forLoop _ _ _ _ _ | .whileLoop _ _ _ => rfl
  | .block _ body => exact body.alwaysReturns_erase
  | .conditional _ _ first (some second) =>
    rw [Stmt.erase, Stmt.alwaysReturns, Stmt.alwaysReturns, first.alwaysReturns_erase,
      second.alwaysReturns_erase]

theorem Block.alwaysReturns_erase (block : Block) :
    block.erase.alwaysReturns = block.alwaysReturns := by
  match block with
  | .mk _ _ body => exact anyReturns_eraseAll body

theorem anyReturns_eraseAll (statements : List Stmt) :
    anyReturns (eraseAll statements) = anyReturns statements := by
  match statements with
  | [] => rfl
  | first :: rest =>
    rw [eraseAll, anyReturns, anyReturns, first.alwaysReturns_erase, anyReturns_eraseAll rest]

end

/-- What pruning leaves of the declarations of statements. -/
theorem declaredBy_prunedAll_eraseAll (statements : List Stmt) :
    declaredBy (prunedAll (eraseAll statements)) = declaredBy (prunedAll statements) := by
  induction statements with
  | nil => rfl
  | cons first rest inductionHypothesis =>
    rw [eraseAll, prunedAll, prunedAll, first.alwaysReturns_erase]
    split
    · rw [declaredBy_cons, declaredBy_cons, Stmt.declares_pruned, Stmt.declares_pruned,
        Stmt.declares_erase]
    · rw [declaredBy_cons, declaredBy_cons, Stmt.declares_pruned, Stmt.declares_pruned,
        Stmt.declares_erase, inductionHypothesis]

theorem declaredNames_eq_of_erase {before after : List Stmt}
    (erased : eraseAll after = eraseAll before) :
    declaredNames (prunedAll after) = declaredNames (prunedAll before) := by
  rw [declaredNames, declaredNames, ← declaredBy_prunedAll_eraseAll, erased,
    declaredBy_prunedAll_eraseAll]

/-! ### Names that denote something -/

section Bound

variable {functions : Functions} {context : Context}

theorem Bound.exists_find? {expr : Expr} (bound : Bound functions context expr) :
    ∀ name ∈ expr.names, ∃ found, context.find? name = some found := by
  induction bound with
  | literal | side => nofun
  | array _ each | call _ _ each =>
    intro name member
    obtain ⟨item, isItem, inside⟩ := mem_namesOf.mp member
    exact each item isItem name inside
  | read _ _ first second | binary _ _ _ first second =>
    intro name member
    exact (List.mem_append.mp member).elim (first name) (second name)
  | randomInt _ inside | group _ inside | unary _ inside => exact inside
  | var denotes =>
    intro name member
    cases List.mem_singleton.mp member
    exact ⟨_, denotes⟩
  | index denotes _ inside =>
    intro name member
    rcases List.mem_cons.mp member with rfl | later
    · exact ⟨_, denotes⟩
    · exact inside name later

theorem Assignment.Bound.exists_find? {made : Assignment} (bound : made.Bound functions context) :
    ∀ name ∈ made.names, ∃ found, context.find? name = some found := by
  obtain ⟨target, index, value⟩ := made
  obtain ⟨denotes, boundIndex, boundValue⟩ := bound
  intro name member
  rcases List.mem_append.mp member with isTarget | inValue
  · rcases List.mem_cons.mp isTarget with rfl | inIndex
    · exact denotes
    · cases index with
      | none => cases inIndex
      | some offset => exact (boundIndex offset rfl).exists_find? name inIndex
  · exact boundValue.exists_find? name inValue

theorem Action.Scoped.exists_find? {done : Action} (inScope : done.Scoped functions context) :
    ∀ name ∈ done.names, ∃ found, context.find? name = some found := by
  cases done with
  | print value =>
    obtain ⟨type, typed⟩ := inScope
    exact typed.bound.exists_find?
  | delay _ | clear _ => exact (HasType.bound inScope).exists_find?
  | write _ _ _ | writeBox _ _ _ _ _ =>
    intro name member
    obtain ⟨item, isItem, inside⟩ := mem_namesOf.mp member
    exact (inScope.bound item isItem).exists_find? name inside

end Bound

/-! ### Uses that agree -/

/-- Two uses of one name at one place. They find the same variable, unless the place is in the
update of a loop whose body declares the name. -/
structure Use.Agrees (before after : Use) : Prop where
  clause : after.clause = before.clause
  name : after.name = before.name
  earlier : ∃ found, before.found = some found
  later : ∃ found, after.found = some found
  same : before.found = after.found ↔
    ∀ declared, before.clause = .update declared → before.name ∉ declared

theorem usesAt_agree {clause : Clause} {early late : String → Option Denoted} {names : List String}
    (each : ∀ name ∈ names, Use.Agrees ⟨clause, name, early name⟩ ⟨clause, name, late name⟩) :
    List.Forall₂ Use.Agrees (usesAt clause early names) (usesAt clause late names) := by
  rw [usesAt, usesAt, List.forall₂_map_left_iff, List.forall₂_map_right_iff, List.forall₂_same]
  exact each

theorem usesAt_ordinary {denoted : String → Option Denoted} {names : List String}
    (each : ∀ name ∈ names, ∃ found, denoted name = some found) :
    List.Forall₂ Use.Agrees (usesAt .ordinary denoted names) (usesAt .ordinary denoted names) :=
  usesAt_agree fun name member =>
    ⟨rfl, rfl, each name member, each name member, ⟨nofun, fun _ => rfl⟩⟩

/-- In the update of a loop a name that the body declares is found in the scope of the loop
afterwards, and outside of it before. -/
theorem usesAt_update {init : Vars} {body : List Stmt} {names : List String}
    (outside : opened ∉ context.map Layer.scope)
    (distinct : ((init ++ declaredBy body).map Prod.fst).Nodup) (each : ∀ name ∈ names, ∃ found,
      Context.find? name ({ scope := opened, vars := init } :: context) = some found) :
    List.Forall₂ Use.Agrees
      (usesAt (.update (declaredNames body))
        (Context.find? · ({ scope := opened, vars := init } :: context)) names)
      (usesAt (.update (declaredNames body))
        (Context.find? · ({ scope := opened, vars := init ++ declaredBy body } :: context))
        names) := by
  refine usesAt_agree fun name member => ?_
  obtain ⟨found, denotes⟩ := each name member
  refine ⟨rfl, rfl, ⟨found, denotes⟩, Context.exists_find?_declare denotes (declaredBy body), ?_⟩
  constructor
  · rintro same _ ⟨⟩ isDeclared
    rw [List.map_append, List.nodup_append] at distinct
    have absent : init.lookup name = none := lookup_eq_none_iff_notMem_keys.mpr fun isInit =>
      distinct.2.2 name isInit name isDeclared rfl
    obtain ⟨type, here⟩ := Option.ne_none_iff_exists'.mp fun isNone =>
      lookup_eq_none_iff_notMem_keys.mp isNone isDeclared
    dsimp only at same
    rw [Context.find?, Context.find?, List.lookup_append, absent, here] at same
    obtain ⟨layer, isLayer, isScope, _⟩ := Context.exists_layer_of_find? same
    exact outside (List.mem_map.mpr ⟨layer, isLayer, isScope⟩)
  · intro apart
    have missing : (declaredBy body).lookup name = none :=
      lookup_eq_none_iff_notMem_keys.mpr (apart _ rfl)
    dsimp only
    rw [Context.find?, Context.find?, List.lookup_append, missing, Option.or_none]

/-- The scopes that a piece of a program bears are distinct and new in the context. -/
structure Context.Admits (context : Context) (scopes : List ScopeId) : Prop where
  distinct : scopes.Nodup
  apart : ∀ id ∈ scopes, id ∉ context.map Layer.scope

namespace Context.Admits

variable {context : Context} {scopes others : List ScopeId}

theorem sublist (admits : context.Admits scopes) (part : others.Sublist scopes) :
    context.Admits others :=
  ⟨admits.distinct.sublist part, fun id member => admits.apart id (part.subset member)⟩

theorem declare (admits : context.Admits scopes) (vars : Vars) :
    (context.declare vars).Admits scopes :=
  ⟨admits.distinct, by rw [Context.scopes_declare]; exact admits.apart⟩

theorem enter (admits : context.Admits (opened :: scopes)) (vars : Vars) :
    Context.Admits ({ scope := opened, vars } :: context) scopes := by
  obtain ⟨outside, distinct⟩ := List.nodup_cons.mp admits.distinct
  refine ⟨distinct, fun id member inside => ?_⟩
  rcases List.mem_cons.mp inside with rfl | isOuter
  · exact outside member
  · exact admits.apart id (List.mem_cons_of_mem _ member) isOuter

theorem enterFunction (admits : context.Admits (opened :: scopes)) (vars : Vars) :
    Context.Admits [{ scope := opened, vars }] scopes := by
  obtain ⟨outside, distinct⟩ := List.nodup_cons.mp admits.distinct
  refine ⟨distinct, fun id member inside => ?_⟩
  cases List.mem_singleton.mp inside
  exact outside member

end Context.Admits

theorem ScopeTree.Opens.keys_nodup {tree : ScopeTree} {scope around : ScopeId} {kind : ScopeKind}
    {name : Option String} {vars : Vars} (tidy : tree.Tidy)
    (opens : tree.Opens scope around kind name vars) : (vars.map Prod.fst).Nodup := by
  obtain ⟨row, found, _, _, _, _, localsOf⟩ := opens
  have distinct := Scope.locals_keys_nodup (tidy found).distinct
  rwa [localsOf, unplaced, List.map_map] at distinct

section Agreement

variable {functions : Functions} {tree : ScopeTree}

mutual

theorem Stmt.Scoped.uses_agree {returns : Option Ty} {context : Context} {around : ScopeId}
    {statement : Stmt} (tidy : tree.Tidy) (inScope : statement.Scoped functions returns context)
    (laidOut : statement.LaidOut tree around) (admits : context.Admits statement.scopes) :
    List.Forall₂ Use.Agrees (statement.uses false context) (statement.uses true context) := by
  match statement with
  | .assignment _ _ | .declaration _ _ => exact usesAt_ordinary inScope.bound.exists_find?
  | .action _ done => exact usesAt_ordinary inScope.exists_find?
  | .returnValue _ value =>
    obtain ⟨type, _, typed⟩ := inScope
    exact usesAt_ordinary typed.bound.exists_find?
  | .block _ body => exact Block.Scoped.uses_agree tidy inScope laidOut admits
  | .function _ header body =>
    obtain ⟨opened, isOpened, inside⟩ := inScope
    obtain ⟨_, same, opens, laidOutBody⟩ := laidOut
    rw [isOpened] at same
    cases same
    rw [Stmt.scopes, isOpened] at admits
    rw [Stmt.uses, Stmt.uses, isOpened]
    exact inside.uses_agree tidy laidOutBody (admits.enterFunction _)
  | .conditional _ _ _ none | .whileLoop _ _ _ =>
    exact List.rel_append (usesAt_ordinary inScope.1.bound.exists_find?)
      (inScope.2.uses_agree tidy laidOut admits)
  | .conditional _ condition first (some second) =>
    exact List.rel_append
      (List.rel_append (usesAt_ordinary inScope.1.bound.exists_find?)
        (inScope.2.1.uses_agree tidy laidOut.1 (admits.sublist (List.sublist_append_left _ _))))
      (inScope.2.2.uses_agree tidy laidOut.2 (admits.sublist (List.sublist_append_right _ _)))
  | .forLoop _ init condition update (.mk _ scope body) =>
    obtain ⟨opened, rfl, initInScope, conditionInScope, updateInScope, inside⟩ := inScope
    obtain ⟨_, same, opens, laidOutBody⟩ := laidOut
    cases same
    have initUses : ∀ name ∈ initNames init, ∃ found,
        Context.find? name ({ scope := opened, vars := [] } :: context) = some found := by
      cases init with
      | none => nofun
      | some made => exact (initInScope made rfl).bound.exists_find?
    have updateUses : ∀ name ∈ updateNames update, ∃ found,
        Context.find? name ({ scope := opened, vars := initVars init } :: context) =
          some found := by
      cases update with
      | none => nofun
      | some made => exact (updateInScope made rfl).bound.exists_find?
    have outside : opened ∉ context.map Layer.scope := admits.apart opened List.mem_cons_self
    exact List.rel_append
      (List.rel_append
        (List.rel_append (usesAt_ordinary initUses)
          (usesAt_ordinary conditionInScope.bound.exists_find?))
        (usesAt_update outside (opens.keys_nodup tidy) updateUses))
      (inside.uses_agree tidy laidOutBody (admits.enter _))

theorem Block.Scoped.uses_agree {returns : Option Ty} {context : Context} {around : ScopeId}
    {kind : ScopeKind} {block : Block} (tidy : tree.Tidy)
    (inScope : block.Scoped functions returns context) (laidOut : block.LaidOut tree around kind)
    (admits : context.Admits block.scopes) :
    List.Forall₂ Use.Agrees (block.uses false context) (block.uses true context) := by
  match block with
  | .mk _ scope body =>
    obtain ⟨opened, rfl, inside⟩ := inScope
    obtain ⟨_, same, _, laidOutBody⟩ := laidOut
    cases same
    exact inside.uses_agree tidy laidOutBody (admits.enter _)

theorem allScoped.uses_agree {returns : Option Ty} {context : Context} {around : ScopeId}
    {statements : List Stmt} (tidy : tree.Tidy)
    (inScope : allScoped functions returns context statements)
    (laidOut : allLaidOut tree around statements)
    (admits : context.Admits (scopesOf statements)) :
    List.Forall₂ Use.Agrees (usesOf false context statements) (usesOf true context statements) := by
  match statements with
  | [] => exact .nil
  | first :: rest =>
    have admitsFirst := admits.sublist (List.sublist_append_left first.scopes (scopesOf rest))
    have admitsRest := admits.sublist (List.sublist_append_right first.scopes (scopesOf rest))
    exact List.rel_append (Stmt.Scoped.uses_agree tidy inScope.1 laidOut.1 admitsFirst)
      (allScoped.uses_agree tidy inScope.2 laidOut.2 (admitsRest.declare first.declares))

end

end Agreement

end PadLang
