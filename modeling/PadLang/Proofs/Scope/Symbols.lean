/-
This file follows the symbols of one scope through the operations on it.

A scope is tidy when its names are distinct and its declared cells are the cells of its
variables, counted once each, and fit in one frame. Declaring a name keeps a scope tidy or
is refused, withdrawing a name keeps it tidy, and counting a tidy scope again finds what is
already written down. So none of these operations faults.
-/

import Mathlib.Algebra.GroupWithZero.Nat
import Mathlib.Algebra.Order.BigOperators.Group.List
import Mathlib.Algebra.Order.Group.Nat
import PadLang.Proofs.Scope.Rows

namespace PadLang

variable {type : Ty} {symbols : List (String × Symbol)} {name : String} {info : Variable}
  {signature : Signature} {symbol : Symbol} {α : Type} {safe : Prop} {total count : Nat}

/-! ### Cells of types -/

namespace Ty

/-- The cells of a type, however many they are. -/
def size : Ty → Nat
  | .base _ => 1
  | .array size element => size * element.size

/-- A counter can hold the cells of the type. -/
def Sized (type : Ty) : Prop := type.slots = .ok type.size

/-- Programs can write the type: it is a scalar or an array of scalars, and a counter can hold its
cells. -/
structure Written (type : Ty) : Prop where
  sized : type.Sized
  flat : ∀ element, type.element? = some element → element.isArray = false

theorem size_eq_of_slots (counted : type.slots = .ok count) : count = type.size := by
  induction type generalizing count with
  | base scalar =>
    cases counted
    rfl
  | array size element inductionHypothesis =>
    obtain ⟨inner, innerCounted, outer⟩ := bind_eq_ok_iff.mp counted
    cases inductionHypothesis innerCounted
    unfold Counter.multiply at outer
    split at outer
    · cases outer
      rfl
    · cases outer

theorem slots_meets (sized : safe → type.Sized) :
    Meets safe (fun count => count = type.size ∧ type.Sized) type.slots := by
  cases counted : type.slots with
  | ok count =>
    have same := size_eq_of_slots counted
    exact Meets.ok ⟨same, by rw [Sized, counted, same]⟩
  | error fault =>
    intro isSafe
    have fine := sized isSafe
    rw [Sized, counted] at fine
    cases fine

end Ty

/-- Names with their types, in the order of their declaration. -/
abbrev Vars := List (String × Ty)

/-- The cells that variables take in one frame. -/
def Vars.cells (vars : Vars) : Nat := (vars.map fun entry => entry.2.size).sum

@[simp] theorem Vars.cells_nil : Vars.cells [] = 0 := rfl

@[simp] theorem Vars.cells_cons (entry : String × Ty) (vars : Vars) :
    Vars.cells (entry :: vars) = entry.2.size + Vars.cells vars := by
  simp [cells]

@[simp] theorem Vars.cells_append (first second : Vars) :
    Vars.cells (first ++ second) = first.cells + second.cells := by
  simp [cells]

/-- Variables before any of them has storage. -/
def unplaced (vars : Vars) : List (String × Variable) :=
  vars.map fun entry => (entry.1, { type := entry.2 })

/-- Variables that follow one another in a frame, from a cell on. -/
def placed : Nat → Vars → List (String × Variable)
  | _, [] => []
  | offset, entry :: rest =>
    (entry.1, { type := entry.2, storage := some offset }) :: placed (offset + entry.2.size) rest

theorem placed_append (offset : Nat) (first second : Vars) :
    placed offset (first ++ second) =
      placed offset first ++ placed (offset + first.cells) second := by
  induction first generalizing offset with
  | nil => simp [placed]
  | cons entry rest inductionHypothesis =>
    simp [placed, inductionHypothesis, Nat.add_assoc]

/-- The cells that the arguments of a call take. -/
def Signature.cells (signature : Signature) : Nat := (signature.parameters.map Ty.size).sum

/-- Counting the cells of types gives their sum, if a frame can hold them. -/
theorem frameTotal?_eq {types : List Ty} (sized : ∀ type ∈ types, type.Sized)
    (fits : total + (types.map Ty.size).sum < Counter.bound) :
    frameTotal? total types = .ok (some (total + (types.map Ty.size).sum)) := by
  induction types generalizing total with
  | nil => rfl
  | cons type rest inductionHypothesis =>
    rw [List.map_cons, List.sum_cons] at fits ⊢
    rw [frameTotal?, show type.slots = .ok type.size from sized type List.mem_cons_self]
    have next := @inductionHypothesis (total + type.size)
      (fun other member => sized other (List.mem_cons_of_mem _ member)) (by omega)
    have sum : frameSum? total type.size = some (total + type.size) := if_pos (by omega)
    rw [← Nat.add_assoc, ← next]
    dsimp only [bind, Except.bind]
    rw [sum]

/-! ### Variables of a scope -/

/-- The variables among named symbols. -/
def variablesAmong : List (String × Symbol) → List (String × Variable)
  | [] => []
  | (name, .var info) :: rest => (name, info) :: variablesAmong rest
  | (_, .function _) :: rest => variablesAmong rest

theorem variablesAmong_append (first second : List (String × Symbol)) :
    variablesAmong (first ++ second) = variablesAmong first ++ variablesAmong second := by
  fun_induction variablesAmong first <;> simp_all [variablesAmong]

theorem mem_variablesAmong :
    (name, info) ∈ variablesAmong symbols ↔ (name, .var info) ∈ symbols := by
  fun_induction variablesAmong symbols <;> simp_all

theorem keys_variablesAmong_sublist (symbols : List (String × Symbol)) :
    ((variablesAmong symbols).map Prod.fst).Sublist (symbols.map Prod.fst) := by
  fun_induction variablesAmong symbols with
  | case1 => exact List.Sublist.refl _
  | case2 name info rest inductionHypothesis => exact inductionHypothesis.cons_cons name
  | case3 name signature rest inductionHypothesis => exact inductionHypothesis.cons name

theorem notMem_keys_variablesAmong (absent : name ∉ symbols.map Prod.fst) :
    name ∉ (variablesAmong symbols).map Prod.fst :=
  fun member => absent ((keys_variablesAmong_sublist symbols).subset member)

theorem lookup_eq_none_iff_notMem_keys {entries : List (String × α)} :
    entries.lookup name = none ↔ name ∉ entries.map Prod.fst := by
  simp only [List.lookup_eq_none_iff, List.mem_map, not_exists, not_and, bne_iff_ne]
  exact forall₂_congr fun entry _ => ne_comm

theorem filter_ne_eq_self {entries : List (String × α)} (absent : name ∉ entries.map Prod.fst) :
    entries.filter (·.1 != name) = entries := by
  rw [List.filter_eq_self]
  intro entry member
  simpa using fun same : entry.1 = name => absent (same ▸ List.mem_map_of_mem member)

/-- Among distinct names, leaving one out leaves out one entry. -/
theorem filter_ne_of_nodup {before after : List (String × α)} {entry : String × α}
    (distinct : ((before ++ entry :: after).map Prod.fst).Nodup) :
    (before ++ entry :: after).filter (·.1 != entry.1) = before ++ after := by
  rw [List.map_append, List.map_cons, List.nodup_append, List.nodup_cons] at distinct
  have notBefore : entry.1 ∉ before.map Prod.fst :=
    fun member => distinct.2.2 entry.1 member entry.1 List.mem_cons_self rfl
  rw [List.filter_append, List.filter_cons, filter_ne_eq_self notBefore,
    filter_ne_eq_self distinct.2.1.1, if_neg (by simp)]

/-- Among distinct names, the variable of a name is the one that bears it. -/
theorem lookup_variablesAmong (distinct : (symbols.map Prod.fst).Nodup) :
    (variablesAmong symbols).lookup name = (symbols.lookup name).bind Symbol.asVariable? := by
  fun_induction variablesAmong symbols with
  | case1 => rfl
  | case2 other info rest inductionHypothesis =>
    rw [List.map_cons, List.nodup_cons] at distinct
    rw [List.lookup_cons, List.lookup_cons]
    split
    · rfl
    · exact inductionHypothesis distinct.2
  | case3 other signature rest inductionHypothesis =>
    rw [List.map_cons, List.nodup_cons] at distinct
    rw [List.lookup_cons]
    split
    · rename_i same
      -- the function bears the name, so no variable does
      rw [beq_iff_eq] at same
      subst same
      exact lookup_eq_none_iff_notMem_keys.mpr (notMem_keys_variablesAmong distinct.1)
    · exact inductionHypothesis distinct.2

/-! ### Cells of symbols -/

namespace Symbol

/-- The cells of a symbol, however many they are. A function takes none. -/
def size : Symbol → Nat
  | .var info => info.type.size
  | .function _ => 0

/-- A counter can hold the cells of the symbol. -/
def Sized (symbol : Symbol) : Prop := symbol.slots = .ok symbol.size

theorem slots_meets (sized : safe → symbol.Sized) :
    Meets safe (fun count => count = symbol.size ∧ symbol.Sized) symbol.slots := by
  cases symbol with
  | var info => exact Ty.slots_meets sized
  | function signature => exact Meets.ok ⟨rfl, rfl⟩

end Symbol

/-- The cells of symbols are those of the variables among them. -/
theorem sum_size_eq (symbols : List (String × Symbol)) :
    (symbols.map fun entry => entry.2.size).sum =
      ((variablesAmong symbols).map fun entry => entry.2.type.size).sum := by
  fun_induction variablesAmong symbols with
  | case1 => rfl
  | case2 other info rest inductionHypothesis =>
    rw [List.map_cons, List.sum_cons, inductionHypothesis, List.map_cons, List.sum_cons]
    rfl
  | case3 other signature rest inductionHypothesis =>
    rw [List.map_cons, List.sum_cons, inductionHypothesis]
    exact Nat.zero_add _

theorem sized_of_variablesAmong (sized : ∀ entry ∈ variablesAmong symbols, entry.2.type.Sized) :
    ∀ entry ∈ symbols, entry.2.Sized := by
  rintro ⟨other, symbol⟩ member
  cases symbol with
  | var info => exact sized (other, info) (mem_variablesAmong.mpr member)
  | function signature => exact rfl

namespace Scope

variable {before after : List (String × Variable)}

/-- The variables of a scope. -/
def locals (scope : Scope) : List (String × Variable) := variablesAmong scope.symbols

/-- The names of a scope are distinct, and its cells are counted and fit in one frame. -/
structure Tidy (scope : Scope) : Prop where
  distinct : (scope.symbols.map Prod.fst).Nodup
  sized : ∀ entry ∈ scope.locals, entry.2.type.Sized
  counted : scope.declaredSlots = (scope.locals.map fun entry => entry.2.type.size).sum
  fits : scope.declaredSlots < Counter.bound

variable {scope : Scope} {safe : Prop}

theorem Tidy.congr {other : Scope} (tidy : scope.Tidy) (sameSymbols : other.symbols = scope.symbols)
    (sameSlots : other.declaredSlots = scope.declaredSlots) : other.Tidy where
  distinct := by rw [sameSymbols]; exact tidy.distinct
  sized := by rw [locals, sameSymbols]; exact tidy.sized
  counted := by rw [locals, sameSymbols, sameSlots]; exact tidy.counted
  fits := by rw [sameSlots]; exact tidy.fits

theorem findVariable?_eq_lookup (distinct : (scope.symbols.map Prod.fst).Nodup) :
    scope.findVariable? name = scope.locals.lookup name :=
  (lookup_variablesAmong distinct).symm

theorem locals_keys_nodup (distinct : (scope.symbols.map Prod.fst).Nodup) :
    (scope.locals.map Prod.fst).Nodup :=
  distinct.sublist (keys_variablesAmong_sublist scope.symbols)

theorem find?_eq_none_iff : scope.find? name = none ↔ name ∉ scope.symbols.map Prod.fst :=
  lookup_eq_none_iff_notMem_keys

/-! ### Declaring -/

/-- A scope after the declaration of variables. -/
def declaring (scope : Scope) (vars : Vars) : Scope :=
  { scope with
    symbols := scope.symbols ++ vars.map fun entry => (entry.1, .var { type := entry.2 })
    declaredSlots := scope.declaredSlots + vars.cells }

/-- A scope after the declaration of a function. -/
def defining (scope : Scope) (name : String) (signature : Signature) : Scope :=
  { scope with symbols := scope.symbols ++ [(name, .function signature)] }

@[simp] theorem declaring_nil : scope.declaring [] = scope := by
  simp [declaring]

theorem declaring_append (first second : Vars) :
    scope.declaring (first ++ second) = (scope.declaring first).declaring second := by
  simp [declaring, Nat.add_assoc]

theorem variablesAmong_var (vars : Vars) :
    variablesAmong (vars.map fun entry => (entry.1, .var { type := entry.2 })) = unplaced vars := by
  induction vars with
  | nil => rfl
  | cons entry rest inductionHypothesis =>
    simp only [List.map_cons, variablesAmong, inductionHypothesis, unplaced]

@[simp] theorem locals_declaring (vars : Vars) :
    (scope.declaring vars).locals = scope.locals ++ unplaced vars := by
  rw [locals, declaring, variablesAmong_append, variablesAmong_var, locals]

@[simp] theorem locals_defining (signature : Signature) :
    (scope.defining name signature).locals = scope.locals := by
  rw [locals, defining, variablesAmong_append, variablesAmong, variablesAmong, List.append_nil,
    locals]

theorem findFunction?_declaring (vars : Vars) (called : String) :
    (scope.declaring vars).findFunction? called = scope.findFunction? called := by
  have none_added : ((vars.map fun entry : String × Ty =>
      (entry.1, Symbol.var { type := entry.2 })).lookup called).bind Symbol.asFunction? = none := by
    induction vars with
    | nil => rfl
    | cons entry rest inductionHypothesis =>
      rw [List.map_cons, List.lookup_cons]
      split
      · rfl
      · exact inductionHypothesis
  simp only [findFunction?, find?, declaring, List.lookup_append]
  cases scope.symbols.lookup called with
  | none => simpa using none_added
  | some symbol => rfl

/-- A scope after the declaration of a symbol. -/
def adding (scope : Scope) (name : String) (symbol : Symbol) : Scope :=
  { scope with
    declaredSlots := scope.declaredSlots + symbol.size
    symbols := scope.symbols ++ [(name, symbol)] }

theorem Tidy.adding (tidy : scope.Tidy) (absent : scope.find? name = none) (sized : symbol.Sized)
    (fits : scope.declaredSlots + symbol.size < Counter.bound) :
    (scope.adding name symbol).Tidy where
  distinct := by
    rw [Scope.adding, List.map_append, List.nodup_append]
    refine ⟨tidy.distinct, by simp, ?_⟩
    rintro _ member _ isName rfl
    obtain rfl := List.mem_singleton.mp isName
    exact find?_eq_none_iff.mp absent member
  sized := by
    rw [locals, Scope.adding, variablesAmong_append]
    refine List.forall_mem_append.mpr ⟨tidy.sized, ?_⟩
    cases symbol with
    | var info => exact List.forall_mem_singleton.mpr sized
    | function signature => exact List.forall_mem_nil _
  counted := by
    rw [locals, ← sum_size_eq, Scope.adding, List.map_append, List.sum_append, sum_size_eq,
      tidy.counted, List.map_singleton, List.sum_singleton]
    rfl
  fits := fits

theorem Tidy.declaring (tidy : scope.Tidy) (absent : scope.find? name = none) (sized : type.Sized)
    (fits : scope.declaredSlots + type.size < Counter.bound) :
    (scope.declaring [(name, type)]).Tidy := by
  have added : scope.declaring [(name, type)] = scope.adding name (.var { type }) := by
    simp [Scope.declaring, Scope.adding, Symbol.size]
  rw [added]
  exact tidy.adding absent sized fits

theorem Tidy.defining (tidy : scope.Tidy) (absent : scope.find? name = none) :
    (scope.defining name signature).Tidy := by
  have sized : (Symbol.function signature).Sized := rfl
  exact tidy.adding absent sized tidy.fits

/-! ### Withdrawing -/

/-- A scope after a declaration is taken back. -/
def withdrawing (scope : Scope) (name : String) : Scope :=
  { scope with
    symbols := scope.symbols.filter (·.1 != name)
    declaredSlots :=
      ((scope.locals.filter (·.1 != name)).map fun entry => entry.2.type.size).sum }

@[simp] theorem locals_withdrawing :
    (scope.withdrawing name).locals = scope.locals.filter (·.1 != name) := by
  simp only [locals, withdrawing]
  fun_induction variablesAmong scope.symbols with
  | case1 => rfl
  | case2 other info rest inductionHypothesis =>
    by_cases same : other = name <;> simpa [same, variablesAmong] using inductionHypothesis
  | case3 other signature rest inductionHypothesis =>
    by_cases same : other = name <;> simpa [same, variablesAmong] using inductionHypothesis

theorem Tidy.withdrawing (tidy : scope.Tidy) : (scope.withdrawing name).Tidy where
  distinct := tidy.distinct.sublist (List.filter_sublist.map _)
  sized := by
    intro entry member
    rw [locals_withdrawing] at member
    exact tidy.sized entry (List.mem_filter.mp member).1
  counted := by
    rw [locals_withdrawing]
    rfl
  fits := by
    refine Nat.lt_of_le_of_lt ?_ tidy.fits
    rw [tidy.counted]
    exact (List.filter_sublist.map _).sum_le_sum fun _ _ => Nat.zero_le _

/-- Taking back a name frees the cells of its symbol. -/
theorem Tidy.slots_meets (tidy : scope.Tidy) (found : scope.find? name = some symbol) :
    Meets safe (fun count => scope.declaredSlots = (scope.withdrawing name).declaredSlots + count)
      symbol.slots := by
  have distinct := locals_keys_nodup tidy.distinct
  have variableOf : scope.findVariable? name = scope.locals.lookup name :=
    findVariable?_eq_lookup tidy.distinct
  rw [findVariable?, found, Option.bind_some] at variableOf
  cases symbol with
  | function signature =>
    refine Meets.ok ?_
    have absent := lookup_eq_none_iff_notMem_keys.mp variableOf.symm
    rw [tidy.counted, Scope.withdrawing, filter_ne_eq_self absent]
    rfl
  | var info =>
    obtain ⟨before, after, split, _⟩ := List.lookup_eq_some_iff.mp variableOf.symm
    have sized : info.type.Sized :=
      tidy.sized (name, info) (by rw [split]; exact List.mem_append_right _ List.mem_cons_self)
    refine Meets.mono (Ty.slots_meets fun _ => sized) ?_
    rintro count ⟨rfl, _⟩
    rw [split] at distinct
    rw [tidy.counted, Scope.withdrawing, split, filter_ne_of_nodup distinct]
    simp only [List.map_append, List.map_cons, List.sum_append, List.sum_cons]
    omega

/-- A scope after several declarations are taken back. -/
def withdrawingAll (scope : Scope) (names : List String) : Scope := names.foldl withdrawing scope

theorem withdrawingAll_append (first second : List String) :
    scope.withdrawingAll (first ++ second) =
      (scope.withdrawingAll first).withdrawingAll second :=
  List.foldl_append

/-- Taking declarations back leaves the variables declared before them. -/
theorem locals_withdrawingAll (distinct : (scope.locals.map Prod.fst).Nodup) {kept removed : Vars}
    (split : scope.locals = unplaced (kept ++ removed)) :
    (scope.withdrawingAll (removed.map Prod.fst)).locals = unplaced kept := by
  induction removed generalizing scope with
  | nil => rwa [List.append_nil] at split
  | cons entry rest inductionHypothesis =>
    have shorter : (scope.withdrawing entry.1).locals = unplaced (kept ++ rest) := by
      rw [split, unplaced, List.map_append, List.map_cons] at distinct
      rw [locals_withdrawing, split, unplaced, List.map_append, List.map_cons,
        filter_ne_of_nodup distinct, unplaced, List.map_append]
    refine inductionHypothesis ?_ shorter
    rw [locals_withdrawing]
    exact distinct.sublist (List.filter_sublist.map _)

/-- Another row that differs in its symbols and their number of cells only. -/
structure Resembles (row other : Scope) : Prop where
  kind : other.kind = row.kind
  name : other.name = row.name
  parent : other.parent = row.parent
  nextFree : other.nextFree = row.nextFree

theorem resembles_withdrawingAll (names : List String) :
    scope.Resembles (scope.withdrawingAll names) := by
  induction names generalizing scope with
  | nil => exact ⟨rfl, rfl, rfl, rfl⟩
  | cons name rest inductionHypothesis =>
    have later := @inductionHypothesis (scope.withdrawing name)
    exact ⟨later.kind, later.name, later.parent, later.nextFree⟩

/-! ### Storing -/

theorem keys_store (name : String) (index : Nat) (symbols : List (String × Symbol)) :
    (ScopeTree.store name index symbols).map Prod.fst = symbols.map Prod.fst := by
  fun_induction ScopeTree.store name index symbols <;> simp_all

theorem mem_keys_of_split (split : variablesAmong symbols = before ++ (name, info) :: after) :
    name ∈ symbols.map Prod.fst := by
  have member : (name, info) ∈ variablesAmong symbols := by
    rw [split]
    exact List.mem_append_right _ List.mem_cons_self
  exact List.mem_map_of_mem (mem_variablesAmong.mp member)

/-- Storing a variable changes its place and nothing else. -/
theorem variablesAmong_store {index : Nat} (distinct : (symbols.map Prod.fst).Nodup)
    (split : variablesAmong symbols = before ++ (name, info) :: after) :
    variablesAmong (ScopeTree.store name index symbols) =
      before ++ (name, { info with storage := some index }) :: after := by
  fun_induction variablesAmong symbols generalizing before with
  | case1 => simp at split
  | case2 other found rest inductionHypothesis =>
    rw [List.map_cons, List.nodup_cons] at distinct
    cases before with
    | nil =>
      rw [List.nil_append, List.cons.injEq, Prod.mk.injEq] at split
      obtain ⟨⟨rfl, rfl⟩, rfl⟩ := split
      simp [ScopeTree.store, variablesAmong]
    | cons first others =>
      rw [List.cons_append, List.cons.injEq] at split
      obtain ⟨rfl, later⟩ := split
      have different : other ≠ name := fun same => distinct.1 (same ▸ mem_keys_of_split later)
      rw [ScopeTree.store, if_neg different, variablesAmong, List.cons_append,
        inductionHypothesis distinct.2 later]
  | case3 other signature rest inductionHypothesis =>
    rw [List.map_cons, List.nodup_cons] at distinct
    have different : other ≠ name := fun same => distinct.1 (same ▸ mem_keys_of_split split)
    rw [ScopeTree.store, if_neg different, variablesAmong, inductionHypothesis distinct.2 split]

/-- Giving storage to a variable keeps a scope tidy. -/
theorem Tidy.store (tidy : scope.Tidy) (named : scope.findVariable? name = some info)
    (index free : Nat) :
    ({ scope with nextFree := free, symbols := ScopeTree.store name index scope.symbols } :
      Scope).Tidy := by
  rw [findVariable?_eq_lookup tidy.distinct] at named
  obtain ⟨before, after, split, _⟩ := List.lookup_eq_some_iff.mp named
  have stored : variablesAmong (ScopeTree.store name index scope.symbols) = _ :=
    variablesAmong_store tidy.distinct split
  refine ⟨?_, ?_, ?_, tidy.fits⟩
  · rw [keys_store]
    exact tidy.distinct
  · have sized := tidy.sized
    rw [split] at sized
    rw [locals, stored]
    simp only [List.forall_mem_append, List.forall_mem_cons] at sized ⊢
    exact sized
  · have counted := tidy.counted
    rw [split, List.map_append, List.map_cons] at counted
    rw [locals, stored, List.map_append, List.map_cons]
    exact counted

theorem findFunction?_store (index : Nat) (called : String) :
    ({ scope with symbols := ScopeTree.store name index scope.symbols } : Scope).findFunction?
      called = scope.findFunction? called := by
  simp only [findFunction?, find?]
  induction scope.symbols with
  | nil => rfl
  | cons entry rest inductionHypothesis =>
    obtain ⟨other, symbol⟩ := entry
    by_cases stored : other = name
    · cases symbol with
      | function signature => simp [ScopeTree.store, stored]
      | var found =>
        simp only [ScopeTree.store, stored, if_true, List.lookup_cons]
        split <;> rfl
    · simp only [ScopeTree.store, stored, if_false, List.lookup_cons]
      split
      · rfl
      · exact inductionHypothesis

end Scope

/-! ### The operations on trees -/

namespace ScopeTree

variable {tree : ScopeTree} {scope : ScopeId} {row found : Scope} {safe : Prop}

/-- A scope takes a symbol just if it does not have the name and its frame has room. The symbol is
then the last of its row. -/
theorem declare_meets {known : Prop} (found : tree.row? scope = some row)
    (counted : Meets safe (fun cells => cells = count ∧ known) symbol.slots) :
    Meets safe
      (fun result =>
        ((∃ after, result = .ok after) ↔
          row.find? name = none ∧ row.declaredSlots + count < Counter.bound) ∧
        ∀ after, result = .ok after → known ∧ after.size = tree.size ∧
          after.row? = Function.update tree.row? scope
            (some { row with
              declaredSlots := row.declaredSlots + count
              symbols := row.symbols ++ [(name, symbol)] }))
      (tree.declare scope name symbol) := by
  unfold declare
  refine Meets.bind (get_meets (lt_size_of_row? found)) fun whole here => ?_
  have same : row = whole.row := Option.some.inj (found.symm.trans here.2)
  have names : whole.find? name = row.find? name := by rw [same]; rfl
  have slots : whole.declaredSlots = row.declaredSlots := by rw [same]; rfl
  have refused {conflict : Conflict} {after : ScopeTree} : Except.error conflict ≠ .ok after :=
    error_ne_ok
  rw [names]
  split
  · rename_i present
    refine Meets.pure ⟨iff_of_false (not_exists.mpr fun _ => refused) ?_,
      fun _ isAfter => absurd isAfter refused⟩
    rintro ⟨absent, _⟩
    rw [absent] at present
    cases present
  · rename_i absent
    refine Meets.bind counted ?_
    rintro cells ⟨rfl, isKnown⟩
    rw [slots, frameSum?]
    by_cases fits : row.declaredSlots + cells < Counter.bound
    · rw [if_pos fits]
      refine Meets.pure ⟨iff_of_true ⟨_, rfl⟩ ⟨by simpa using absent, fits⟩, ?_⟩
      rintro _ ⟨⟩
      refine ⟨isKnown, size_set _, ?_⟩
      rw [row?_set (lt_size_of_row? found), same]
      rfl
    · rw [if_neg fits]
      exact Meets.pure ⟨iff_of_false (not_exists.mpr fun _ => refused) fun both => fits both.2,
        fun _ isAfter => absurd isAfter refused⟩

/-- Declaring a variable adds it to the row of its scope, or is refused. -/
theorem declare_var_meets (found : tree.row? scope = some row) (sized : safe → type.Sized) :
    Meets safe
      (fun result => ∀ after, result = .ok after →
        row.find? name = none ∧ type.Sized ∧ row.declaredSlots + type.size < Counter.bound ∧
          after.size = tree.size ∧
          after.row? = Function.update tree.row? scope (some (row.declaring [(name, type)])))
      (tree.declare scope name (.var { type })) := by
  have counted : Meets safe _ (Symbol.var { type }).slots := Ty.slots_meets sized
  refine Meets.mono (declare_meets found counted) fun result made after isAfter => ?_
  obtain ⟨absent, fits⟩ := made.1.mp ⟨after, isAfter⟩
  obtain ⟨isSized, size, rows⟩ := made.2 after isAfter
  refine ⟨absent, isSized, fits, size, rows.trans ?_⟩
  simp [Scope.declaring]

theorem set_eq_self (here : tree.get? scope = some found) : tree.set scope found = tree := by
  obtain ⟨inside, rfl⟩ := List.getElem?_eq_some_iff.mp here
  rw [set, List.set_getElem_self]

/-- Taking back a name replaces its scope. -/
theorem undeclare_eq (here : tree.get? scope = some found) (tidy : found.Tidy) :
    tree.undeclare scope name = .ok (tree.set scope (found.withdrawing name)) := by
  rw [undeclare, get, here]
  cases named : found.find? name with
  | none =>
    have absent := Scope.find?_eq_none_iff.mp named
    have absentHere : name ∉ found.locals.map Prod.fst := notMem_keys_variablesAmong absent
    have unchanged : found.withdrawing name = found := by
      rw [Scope.withdrawing, filter_ne_eq_self absent, filter_ne_eq_self absentHere,
        ← tidy.counted]
    rw [unchanged, set_eq_self here]
    simp only [bind, Except.bind, named]
    rfl
  | some symbol =>
    obtain ⟨count, isCount, counted⟩ := (tidy.slots_meets named).exists_ok trivial
    have difference : Counter.subtract found.declaredSlots count =
        .ok (found.withdrawing name).declaredSlots := by
      rw [counted, Counter.subtract, if_pos (Nat.le_add_left _ _), Nat.add_sub_cancel]
    simp only [bind, Except.bind, named, isCount, difference]
    rfl

/-- Taking back a name replaces the row of its scope. -/
theorem undeclare_meets (found : tree.row? scope = some row) (tidy : row.Tidy) :
    Meets safe
      (fun after => after.size = tree.size ∧
        after.row? = Function.update tree.row? scope (some (row.withdrawing name)))
      (tree.undeclare scope name) := by
  obtain ⟨whole, here, rfl⟩ := row?_eq_some_iff.mp found
  rw [undeclare_eq here (tidy.congr rfl rfl)]
  exact Meets.ok ⟨size_set _, row?_set (lt_size_of_row? found) _⟩

/-- A row after one of its variables got the next free cells. -/
def storing (row : Scope) (name : String) (type : Ty) : Scope :=
  { row with
    nextFree := row.nextFree + type.size
    symbols := store name row.nextFree row.symbols }

/-- Giving a variable storage replaces the row of its scope. -/
theorem allocate_meets (found : tree.row? scope = some row)
    (named : row.findVariable? name = some info) (sized : info.type.Sized)
    (fits : row.nextFree + info.type.size < Counter.bound) :
    Meets safe
      (fun result => result.1 = row.nextFree ∧ result.2.size = tree.size ∧
        result.2.row? = Function.update tree.row? scope (some (storing row name info.type)))
      (tree.allocate scope name) := by
  unfold allocate
  refine Meets.bind (get_meets (lt_size_of_row? found)) fun whole here => ?_
  have same : row = whole.row := Option.some.inj (found.symm.trans here.2)
  have namedWhole : whole.findVariable? name = some info := by
    rw [← named, same]
    rfl
  rw [namedWhole]
  refine Meets.bind (Ty.slots_meets fun _ => sized) fun count counted => ?_
  obtain ⟨rfl, _⟩ := counted
  have free : whole.nextFree = row.nextFree := by
    rw [same]
    rfl
  refine Meets.bind (Counter.add_meets fun _ => by rw [free]; exact fits) fun sum summed => ?_
  obtain ⟨rfl, _⟩ := summed
  refine Meets.pure ⟨free, size_set _, ?_⟩
  rw [row?_set (lt_size_of_row? found), same]
  rfl

/-! ### Preparing for storage -/

/-- Counting symbols gives the sum of their cells, if a frame can hold them. -/
theorem symbolSlots_eq (sized : ∀ entry ∈ symbols, entry.2.Sized)
    (fits : total + (symbols.map fun entry => entry.2.size).sum < Counter.bound) :
    symbolSlots total symbols = .ok (total + (symbols.map fun entry => entry.2.size).sum) := by
  induction symbols generalizing total with
  | nil => rfl
  | cons entry rest inductionHypothesis =>
    obtain ⟨sizedFirst, sizedRest⟩ := List.forall_mem_cons.mp sized
    rw [List.map_cons, List.sum_cons] at fits ⊢
    rw [symbolSlots, show entry.2.slots = .ok entry.2.size from sizedFirst, ← Nat.add_assoc,
      ← inductionHypothesis sizedRest (by omega)]
    have sum : frameSum? total entry.2.size = some (total + entry.2.size) := if_pos (by omega)
    dsimp only [bind, Except.bind]
    rw [sum]

/-- The symbols of a tidy scope may be counted in any order. -/
theorem symbolSlots_of_perm (tidy : found.Tidy) (order : symbols.Perm found.symbols) :
    symbolSlots 0 symbols = .ok found.declaredSlots := by
  have sum : (symbols.map fun entry => entry.2.size).sum = found.declaredSlots := by
    rw [(order.map _).sum_eq, sum_size_eq, tidy.counted, Scope.locals]
  have sized := sized_of_variablesAmong tidy.sized
  rw [symbolSlots_eq (fun entry member => sized entry (order.subset member)), sum, Nat.zero_add]
  rw [sum, Nat.zero_add]
  exact tidy.fits

/-- Counting a tidy scope again frees its cells and finds the number already written down. -/
theorem recount_eq (tidy : found.Tidy) : recount found = .ok { found with nextFree := 0 } := by
  rw [recount, symbolSlots_of_perm tidy (.refl _)]
  rfl

theorem recountAll_eq {scopes : List Scope} (tidy : ∀ found ∈ scopes, found.Tidy) :
    recountAll scopes = .ok (scopes.map fun found => { found with nextFree := 0 }) := by
  induction scopes with
  | nil => rfl
  | cons first rest inductionHypothesis =>
    obtain ⟨tidyFirst, tidyRest⟩ := List.forall_mem_cons.mp tidy
    rw [recountAll, recount_eq tidyFirst, inductionHypothesis tidyRest]
    rfl

/-- Every scope of the tree is tidy. -/
def Tidy (tree : ScopeTree) : Prop := ∀ {scope row}, tree.row? scope = some row → row.Tidy

theorem Tidy.get? (tidy : tree.Tidy) (here : tree.get? scope = some found) : found.Tidy :=
  (tidy (row?_eq_some_iff.mpr ⟨found, here, rfl⟩)).congr rfl rfl

/-- Counting the cells of a tidy tree again frees them and changes nothing else. -/
theorem countSlots_eq (tidy : tree.Tidy) :
    tree.countSlots = .ok ⟨tree.scopes.map fun found => { found with nextFree := 0 }⟩ := by
  have each : ∀ found ∈ tree.scopes, found.Tidy := by
    intro found member
    obtain ⟨id, here⟩ := List.mem_iff_getElem?.mp member
    exact tidy.get? here
  rw [countSlots, recountAll_eq each]
  rfl

theorem countSlots_meets (tidy : tree.Tidy) :
    Meets safe
      (fun counted => counted.size = tree.size ∧
        ∀ id, counted.row? id = (tree.row? id).map fun row => { row with nextFree := 0 })
      tree.countSlots := by
  rw [countSlots_eq tidy]
  refine Meets.ok ⟨by simp [size], fun id => ?_⟩
  simp only [row?, get?, List.getElem?_map, Option.map_map]
  rfl

theorem variablesAmong_labelled (symbols : List (String × Symbol)) :
    variablesAmong (symbols.map labelled) = variablesAmong symbols := by
  fun_induction variablesAmong symbols <;> simp_all [labelled, variablesAmong]

theorem keys_labelled (symbols : List (String × Symbol)) :
    (symbols.map labelled).map Prod.fst = symbols.map Prod.fst := by
  rw [List.map_map]
  refine List.map_congr_left fun entry _ => ?_
  obtain ⟨other, symbol⟩ := entry
  cases symbol <;> rfl

theorem tidy_labelled (tidy : row.Tidy) :
    ({ row with symbols := row.symbols.map labelled } : Scope).Tidy := by
  have sameLocals : ({ row with symbols := row.symbols.map labelled } : Scope).locals =
      row.locals := variablesAmong_labelled row.symbols
  refine ⟨?_, sameLocals ▸ tidy.sized, sameLocals ▸ tidy.counted, tidy.fits⟩
  rw [keys_labelled]
  exact tidy.distinct

theorem lookup_labelled (symbols : List (String × Symbol)) (called : String) :
    ((symbols.map labelled).lookup called).bind Symbol.asFunction? =
      ((symbols.lookup called).bind Symbol.asFunction?).map
        fun signature => { signature with label := some called } := by
  induction symbols with
  | nil => rfl
  | cons entry rest inductionHypothesis =>
    obtain ⟨other, symbol⟩ := entry
    cases symbol with
    | var info =>
      rw [List.map_cons, labelled, List.lookup_cons, List.lookup_cons]
      · split
        · rfl
        · exact inductionHypothesis
      · nofun
    | function signature =>
      rw [List.map_cons, labelled, List.lookup_cons, List.lookup_cons]
      split
      · rename_i same
        rw [beq_iff_eq] at same
        subst same
        rfl
      · exact inductionHypothesis

/-- Labelling the functions replaces the row of the global scope. -/
theorem row?_labelFunctions (found : tree.row? global = some row) :
    tree.labelFunctions.row? = Function.update tree.row? global
      (some { row with symbols := row.symbols.map labelled }) := by
  obtain ⟨whole, here, rfl⟩ := row?_eq_some_iff.mp found
  rw [labelFunctions, here, row?_set (lt_size_of_row? found)]
  rfl

end ScopeTree

end PadLang
