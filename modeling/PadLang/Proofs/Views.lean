/-
This file relates trees of scopes to contexts and follows them while statements are checked.

A tree shows a context at a scope if the scopes visible from there are those of the context
and hold the variables the context lists. Checking a statement lets the tree evolve: scopes
are added, the scope of the statement gains declarations, and no other scope changes. So
after a statement the tree shows the context with the new declarations, and everything laid
out before is still laid out.
-/

import PadLang.Proofs.Context

namespace PadLang

namespace ScopeTree

variable {context : Context} {name : Option String} {id : Nat} {kind : ScopeKind}
  {row changed : Scope}

/-! ### Sound trees -/

/-- A tree with a root whose scopes are tidy. -/
structure Formed (tree : ScopeTree) : Prop where
  rooted : tree.Rooted
  tidy : tree.Tidy

/-- A tree as analysis has it: no storage has been given out yet. -/
structure Sound (tree : ScopeTree) : Prop extends tree.Formed where
  unused : ∀ {scope row}, tree.row? scope = some row → row.nextFree = 0

variable {tree after : ScopeTree} {scope : ScopeId}

/-- A tree stays well formed if one row changes its symbols and stays tidy. -/
theorem Formed.update (formed : tree.Formed) (found : tree.row? scope = some row)
    (rows : after.row? = Function.update tree.row? scope (some changed))
    (sameKind : changed.kind = row.kind) (sameParent : changed.parent = row.parent)
    (tidy : changed.Tidy) : after.Formed := by
  have rowOf (id : ScopeId) (other : Scope) (foundAfter : after.row? id = some other) :
      ∃ old, tree.row? id = some old ∧ other.kind = old.kind ∧ other.parent = old.parent ∧
        other.Tidy := by
    rw [rows] at foundAfter
    by_cases same : id = scope
    · subst same
      rw [Function.update_self] at foundAfter
      cases foundAfter
      exact ⟨row, found, sameKind, sameParent, tidy⟩
    · rw [Function.update_of_ne same] at foundAfter
      exact ⟨other, foundAfter, rfl, rfl, formed.tidy foundAfter⟩
  refine ⟨⟨?_, ?_⟩, ?_⟩
  · obtain ⟨root, atRoot, isGlobal, orphan⟩ := formed.rooted.root
    by_cases same : global = scope
    · subst same
      rw [found] at atRoot
      cases atRoot
      exact ⟨changed, by rw [rows, Function.update_self], sameKind.trans isGlobal,
        sameParent.trans orphan⟩
    · exact ⟨root, by rw [rows, Function.update_of_ne same]; exact atRoot, isGlobal, orphan⟩
  · intro id other foundAfter notRoot
    obtain ⟨old, before, _, parentOf, _⟩ := rowOf id other foundAfter
    rw [parentOf]
    exact formed.rooted.above before notRoot
  · intro id other foundAfter
    obtain ⟨_, _, _, _, isTidy⟩ := rowOf id other foundAfter
    exact isTidy

theorem Sound.update (sound : tree.Sound) (found : tree.row? scope = some row)
    (rows : after.row? = Function.update tree.row? scope (some changed))
    (sameKind : changed.kind = row.kind) (sameParent : changed.parent = row.parent)
    (sameFree : changed.nextFree = row.nextFree) (tidy : changed.Tidy) : after.Sound := by
  refine ⟨sound.toFormed.update found rows sameKind sameParent tidy, ?_⟩
  intro id other foundAfter
  rw [rows] at foundAfter
  by_cases same : id = scope
  · subst same
    rw [Function.update_self] at foundAfter
    cases foundAfter
    exact sameFree.trans (sound.unused found)
  · rw [Function.update_of_ne same] at foundAfter
    exact sound.unused foundAfter

/-- Soundness depends on the rows only. -/
theorem Sound.of_rows (sound : tree.Sound) (rows : after.row? = tree.row?) : after.Sound := by
  refine ⟨⟨⟨rows ▸ sound.rooted.root, ?_⟩, ?_⟩, ?_⟩ <;> intro id row found <;> rw [rows] at found
  · exact sound.rooted.above found
  · exact sound.tidy found
  · exact sound.unused found

theorem tidy_fresh {parent : Option ScopeId} :
    ({ kind, name, parent } : Scope).Tidy where
  distinct := List.nodup_nil
  sized := nofun
  counted := rfl
  fits := by
    simp [Counter.bound]

/-- The tree of the global scope alone is sound. -/
theorem sound_initial : initial.Sound := by
  have rowOf {id : ScopeId} {row : Scope} (found : initial.row? id = some row) :
      id = global ∧ row = { kind := .global } := by
    match id with
    | 0 =>
      cases found
      exact ⟨rfl, rfl⟩
    | _ + 1 => cases found
  refine ⟨⟨⟨⟨_, rfl, rfl, rfl⟩, ?_⟩, ?_⟩, ?_⟩
  · intro id row found notRoot
    exact absurd (rowOf found).1 notRoot
  · intro id row found
    rw [(rowOf found).2]
    exact tidy_fresh
  · intro id row found
    rw [(rowOf found).2]

namespace Opened

variable {parent : ScopeId} {kind : ScopeKind} {name : Option String}
  (opened : tree.Opened parent kind name after)

include opened

theorem lt_size : tree.size < after.size := by
  rw [opened.size]
  exact Nat.lt_succ_self _

theorem row?_new : after.row? tree.size = some { kind, name, parent := some parent } := by
  rw [opened.rows, Function.update_self]

theorem row?_old (isOld : id < tree.size) : after.row? id = tree.row? id := by
  rw [opened.rows, Function.update_of_ne (Nat.ne_of_lt isOld)]

theorem outline?_old (isOld : id < tree.size) : after.outline? id = tree.outline? id := by
  rw [outline?, outline?, opened.row?_old isOld]

/-- A row is the new one or was there before. -/
theorem row?_cases {id : ScopeId} (found : after.row? id = some row) :
    (id = tree.size ∧ row = { kind, name, parent := some parent }) ∨ tree.row? id = some row := by
  rw [opened.rows] at found
  by_cases same : id = tree.size
  · subst same
    rw [Function.update_self] at found
    exact .inl ⟨rfl, (Option.some.inj found).symm⟩
  · rw [Function.update_of_ne same] at found
    exact .inr found

theorem sound (sound : tree.Sound) : after.Sound := by
  refine ⟨⟨⟨?_, ?_⟩, ?_⟩, ?_⟩
  · rw [opened.row?_old sound.rooted.global_lt]
    exact sound.rooted.root
  · intro id row found notRoot
    rcases opened.row?_cases found with ⟨rfl, rfl⟩ | old
    · exact ⟨parent, rfl, opened.inside⟩
    · exact sound.rooted.above old notRoot
  · intro id row found
    rcases opened.row?_cases found with ⟨_, rfl⟩ | old
    · exact tidy_fresh
    · exact sound.tidy old
  · intro id row found
    rcases opened.row?_cases found with ⟨_, rfl⟩ | old
    · rfl
    · exact sound.unused old

end Opened

/-! ### Trees that show a context -/

/-- The variable that a name stands for in a scope, and the scope that declares it. -/
def declaring? (tree : ScopeTree) (scope : ScopeId) (name : String) :
    Option (ScopeId × Variable) :=
  (tree.visible scope).findSome? fun id => (tree.variableIn? name id).map (Prod.mk id)

theorem lookupVariable?_eq (name : String) :
    tree.lookupVariable? scope name = (tree.declaring? scope name).map Prod.snd := by
  rw [lookupVariable?, declaring?, List.map_findSome?]
  congr 1
  funext id
  rw [Function.comp_apply, Option.map_map]
  exact Option.map_id'.symm

/-- The scopes visible from a scope are those of the context, and they hold its variables. -/
structure Shows (tree : ScopeTree) (scope : ScopeId) (context : Context) : Prop where
  visible : tree.visible scope = context.map Layer.scope
  rows : ∀ layer ∈ context, ∃ row, tree.row? layer.scope = some row ∧
    row.locals = unplaced layer.vars

theorem lookup_unplaced (vars : Vars) (name : String) :
    (unplaced vars).lookup name = (vars.lookup name).map fun type => { type } := by
  induction vars with
  | nil => rfl
  | cons entry rest inductionHypothesis =>
    rw [unplaced, List.map_cons, List.lookup_cons, List.lookup_cons]
    split
    · rfl
    · exact inductionHypothesis

/-- A name stands for what it denotes in the context. -/
theorem Shows.declaring?_eq (shows : tree.Shows scope context) (tidy : tree.Tidy) (name : String) :
    tree.declaring? scope name =
      (context.find? name).map fun found => (found.scope, { type := found.type }) := by
  rw [declaring?, shows.visible]
  have rows := shows.rows
  clear shows
  induction context with
  | nil => rfl
  | cons layer outer inductionHypothesis =>
    obtain ⟨row, found, localsOf⟩ := rows layer List.mem_cons_self
    rw [List.map_cons, List.findSome?_cons, Context.find?, variableIn?_eq, found,
      Option.bind_some, Scope.findVariable?_eq_lookup (tidy found).distinct, localsOf,
      lookup_unplaced]
    cases layer.vars.lookup name with
    | some type => rfl
    | none =>
      exact inductionHypothesis fun other member => rows other (List.mem_cons_of_mem _ member)

theorem Shows.lookupVariable?_eq (shows : tree.Shows scope context) (tidy : tree.Tidy)
    (name : String) :
    tree.lookupVariable? scope name =
      (context.find? name).map fun found => { type := found.type } := by
  rw [ScopeTree.lookupVariable?_eq, shows.declaring?_eq tidy, Option.map_map]
  rfl

/-- A global scope without variables shows the empty context of a program. -/
theorem shows_global (sound : tree.Sound) (found : tree.row? global = some row)
    (empty : row.locals = []) : tree.Shows global [{ scope := global, vars := [] }] := by
  refine ⟨sound.rooted.visible_global, fun layer member => ?_⟩
  cases List.mem_singleton.mp member
  exact ⟨row, found, empty⟩

/-- What is visible from a scope is the scope itself and scopes of smaller numbers. -/
theorem Rooted.visible_eq_cons (rooted : tree.Rooted) (inside : id < tree.size) :
    ∃ outer, tree.visible id = id :: outer ∧ ∀ other ∈ outer, (other : Nat) < id := by
  obtain ⟨row, found⟩ := exists_row? inside
  by_cases isRoot : id = global
  · subst isRoot
    exact ⟨[], rooted.visible_global, nofun⟩
  obtain ⟨parent, child, smaller⟩ := rooted.above found isRoot
  by_cases isFunction : row.kind = .function
  · exact ⟨[], rooted.visible_function found child isFunction, nofun⟩
  · refine ⟨tree.visible parent, rooted.visible_child found child isFunction, ?_⟩
    intro other member
    exact Nat.lt_of_le_of_lt (rooted.le_of_mem_visible member) smaller

/-! ### Trees that evolve -/

/-- Scopes are added, one scope gains declarations, and no other scope changes. -/
structure Evolves (scope : ScopeId) (added : Vars) (before after : ScopeTree) : Prop where
  grows : before.size ≤ after.size
  kept : ∀ {id : Nat}, id < before.size → id ≠ scope → after.row? id = before.row? id
  here : ∀ {row}, before.row? scope = some row → after.row? scope = some (row.declaring added)

namespace Evolves

variable {before middle : ScopeTree} {added : Vars}

theorem refl : Evolves scope [] tree tree where
  grows := Nat.le_refl _
  kept _ _ := rfl
  here found := by rw [Scope.declaring_nil]; exact found

theorem trans {more : Vars} (first : Evolves scope added before middle)
    (second : Evolves scope more middle after) : Evolves scope (added ++ more) before after where
  grows := Nat.le_trans first.grows second.grows
  kept inside other :=
    (second.kept (Nat.lt_of_lt_of_le inside first.grows) other).trans (first.kept inside other)
  here found := by
    rw [Scope.declaring_append]
    exact second.here (first.here found)

/-- What happens in a scope that was just opened leaves the scopes around it alone. -/
theorem enclose (opened : before.Opened scope kind name middle)
    (inner : Evolves before.size added middle after) : Evolves scope [] before after := by
  have old {id : Nat} (isOld : id < before.size) : after.row? id = before.row? id := by
    rw [inner.kept (Nat.lt_trans isOld opened.lt_size) (Nat.ne_of_lt isOld),
      opened.row?_old isOld]
  refine ⟨Nat.le_trans (Nat.le_of_lt opened.lt_size) inner.grows, fun isOld _ => old isOld, ?_⟩
  intro row found
  rw [Scope.declaring_nil, old opened.inside, found]

/-- The walk from an old scope towards the root stays the same. -/
theorem outline?_eq (evolves : Evolves scope added before after) (isOld : id < before.size) :
    after.outline? id = before.outline? id := by
  by_cases same : id = scope
  · subst same
    obtain ⟨row, found⟩ := exists_row? isOld
    rw [ScopeTree.outline?_eq found, ScopeTree.outline?_eq (evolves.here found)]
    rfl
  · rw [outline?, outline?, evolves.kept isOld same]

end Evolves

/-- Scopes of smaller numbers are closed under parents. -/
theorem Rooted.parent_lt_of_outline? (rooted : tree.Rooted) (limit : Nat) :
    ∀ id kind parent, (id : Nat) < limit → tree.outline? id = some (kind, some parent) →
      (parent : Nat) < limit := by
  intro id kind parent small shape
  obtain ⟨row, found, same⟩ := Option.map_eq_some_iff.mp shape
  exact Nat.lt_trans (rooted.parent_lt found (congrArg Prod.snd same)) small

namespace Evolves

variable {before : ScopeTree} {added : Vars}

variable (evolves : Evolves scope added before after)

include evolves

theorem visible_eq (rooted : before.Rooted) (isOld : id < before.size) :
    after.visible id = before.visible id :=
  visible_congr (fun _ old => evolves.outline?_eq old) (rooted.parent_lt_of_outline? before.size)
    isOld

theorem lookupFunction?_eq (rooted : before.Rooted) (name : String) :
    after.lookupFunction? name = before.lookupFunction? name := by
  rw [lookupFunction?, lookupFunction?, functionIn?_eq, functionIn?_eq]
  by_cases same : global = scope
  · subst same
    obtain ⟨row, found⟩ := exists_row? rooted.global_lt
    rw [found, evolves.here found]
    exact Scope.findFunction?_declaring added name
  · rw [evolves.kept rooted.global_lt same]

/-- After a statement the tree shows its declarations too. -/
theorem shows (rooted : before.Rooted) (inside : scope < before.size)
    (shown : before.Shows scope context) : after.Shows scope (context.declare added) := by
  refine ⟨by rw [evolves.visible_eq rooted inside, shown.visible, Context.scopes_declare], ?_⟩
  obtain ⟨outerScopes, visible, smaller⟩ := rooted.visible_eq_cons inside
  cases context with
  | nil => nofun
  | cons layer outer =>
    have scopes := shown.visible.symm.trans visible
    rw [List.map_cons, List.cons.injEq] at scopes
    rw [Context.declare]
    intro other member
    rcases List.mem_cons.mp member with rfl | isOuter
    · obtain ⟨row, found, localsOf⟩ := shown.rows layer List.mem_cons_self
      rw [scopes.1] at found
      refine ⟨row.declaring added, by rw [scopes.1]; exact evolves.here found, ?_⟩
      rw [Scope.locals_declaring, localsOf, unplaced, unplaced, unplaced, List.map_append]
    · obtain ⟨row, found, localsOf⟩ := shown.rows other (List.mem_cons_of_mem _ isOuter)
      have below : (other.scope : Nat) < scope :=
        smaller _ (scopes.2 ▸ List.mem_map_of_mem isOuter)
      refine ⟨row, ?_, localsOf⟩
      rw [evolves.kept (lt_size_of_row? found) (Nat.ne_of_lt below), found]

end Evolves

/-! ### Trees that grow with a piece of a program -/

/-- The tree evolves, and the scopes that a piece of a program bears are distinct and new. -/
structure Grows (scope : ScopeId) (added : Vars) (scopes : List ScopeId)
    (before after : ScopeTree) : Prop extends Evolves scope added before after where
  distinct : scopes.Nodup
  fresh : ∀ id ∈ scopes, before.size ≤ (id : Nat) ∧ (id : Nat) < after.size

namespace Grows

variable {before middle : ScopeTree} {added more : Vars} {scopes others : List ScopeId}

theorem of_evolves (evolves : Evolves scope added before after) :
    Grows scope added [] before after :=
  ⟨evolves, List.nodup_nil, nofun⟩

/-- The scopes of the first of two pieces do not change while the second is checked. -/
theorem kept_scopes (first : Grows scope added scopes before middle)
    (second : Evolves scope more middle after) (inside : (scope : Nat) < before.size) :
    ∀ id ∈ scopes, after.row? id = middle.row? id := by
  intro id isScope
  have range := first.fresh id isScope
  exact second.kept range.2 (Nat.ne_of_gt (Nat.lt_of_lt_of_le inside range.1))

theorem trans (first : Grows scope added scopes before middle)
    (second : Grows scope more others middle after) :
    Grows scope (added ++ more) (scopes ++ others) before after where
  toEvolves := first.toEvolves.trans second.toEvolves
  distinct := by
    rw [List.nodup_append]
    refine ⟨first.distinct, second.distinct, ?_⟩
    intro id isFirst other isSecond same
    have below := (first.fresh id isFirst).2
    have above := (second.fresh other isSecond).1
    subst same
    exact absurd below (Nat.not_lt_of_le above)
  fresh := by
    intro id member
    have firstGrows := first.grows
    have secondGrows := second.grows
    rcases List.mem_append.mp member with isFirst | isSecond
    · have range := first.fresh id isFirst
      exact ⟨range.1, Nat.lt_of_lt_of_le range.2 secondGrows⟩
    · have range := second.fresh id isSecond
      exact ⟨Nat.le_trans firstGrows range.1, range.2⟩

/-- A piece that opens a scope of its own bears it in front of the scopes inside. -/
theorem enclose (opened : before.Opened scope kind name middle)
    (inner : Grows before.size added scopes middle after) :
    Grows scope [] (before.size :: scopes) before after where
  toEvolves := Evolves.enclose opened inner.toEvolves
  distinct := by
    refine List.nodup_cons.mpr ⟨?_, inner.distinct⟩
    intro isInner
    exact absurd opened.lt_size (Nat.not_lt_of_le (inner.fresh before.size isInner).1)
  fresh := by
    intro id member
    have larger := opened.lt_size
    rcases List.mem_cons.mp member with rfl | isInner
    · exact ⟨Nat.le_refl _, Nat.lt_of_lt_of_le larger inner.grows⟩
    · have range := inner.fresh id isInner
      exact ⟨Nat.le_trans (Nat.le_of_lt larger) range.1, range.2⟩

end Grows

/-! ### Opening a scope -/

section Opening

variable {parent : ScopeId} {kind : ScopeKind} {name : Option String} (sound : tree.Sound)
  (opened : tree.Opened parent kind name after)

include sound opened

/-- A scope that is not that of a function shows a new layer in front of the context. -/
theorem Shows.open (notFunction : kind ≠ .function) (shown : tree.Shows parent context) :
    after.Shows tree.size ({ scope := tree.size, vars := [] } :: context) := by
  constructor
  · rw [(opened.sound sound).rooted.visible_child opened.row?_new rfl notFunction,
      visible_congr (fun _ => opened.outline?_old) (sound.rooted.parent_lt_of_outline? tree.size)
        opened.inside, shown.visible, List.map_cons]
  · intro layer member
    rcases List.mem_cons.mp member with rfl | isOuter
    · exact ⟨_, opened.row?_new, rfl⟩
    · obtain ⟨row, found, localsOf⟩ := shown.rows layer isOuter
      exact ⟨row, (opened.row?_old (lt_size_of_row? found)).trans found, localsOf⟩

/-- The scope of a function shows nothing around it. -/
theorem Shows.openFunction (isFunction : kind = .function) :
    after.Shows tree.size [{ scope := tree.size, vars := [] }] := by
  constructor
  · exact (opened.sound sound).rooted.visible_function opened.row?_new rfl isFunction
  · intro layer member
    cases List.mem_singleton.mp member
    exact ⟨_, opened.row?_new, rfl⟩

end Opening

end ScopeTree

end PadLang
