/-
This file holds the tree of scopes of a program.

Scopes are numbered as they open, and each knows its parent and its children. Analysis
builds the tree and declares names in it; code generation walks the same tree again and
gives each variable the next free cell of the frame of its scope.

The names of a scope are kept in the order of their declaration. A parent always has a
smaller number than its children, so a walk towards the global scope takes at most one step
more than the number it starts from.
-/

import PadLang.Ty
import PadLang.Slot
import PadLang.Syntax.Basic

namespace PadLang

/-! ### Symbols -/

/-- A variable. Its storage is the first cell it takes in its frame, once code generation
has come to its declaration. -/
structure Variable where
  type : Ty
  storage : Option Nat := none
deriving DecidableEq, Repr

/-- The interface of a function, and the label of its code once it has one. -/
structure Signature where
  parameters : List Ty
  returns : Ty
  label : Option String := none
deriving DecidableEq, Repr

/-- What a name stands for. -/
inductive Symbol where
  | var (info : Variable)
  | function (signature : Signature)
deriving DecidableEq, Repr

namespace Symbol

/-- The cells a symbol takes in the frame of its scope. -/
def slots : Symbol → Except Fault Nat
  | .var found => found.type.slots
  | .function _ => .ok 0

/-- The variable a symbol is, if it is one. -/
def asVariable? : Symbol → Option Variable
  | .var found => some found
  | .function _ => none

/-- The function a symbol is, if it is one. -/
def asFunction? : Symbol → Option Signature
  | .var _ => none
  | .function signature => some signature

end Symbol

/-- The sum of two cell counts, if it fits in one frame. -/
def frameSum? (first second : Nat) : Option Nat :=
  if first + second < Counter.bound then some (first + second) else none

/-- The cells of a list of types in one frame, if they fit. -/
def frameTotal? (total : Nat) : List Ty → Except Fault (Option Nat)
  | [] => .ok (some total)
  | type :: rest => do
    match frameSum? total (← type.slots) with
    | none => return none
    | some sum => frameTotal? sum rest

/-- The cells that the arguments of a call take, if they fit in one frame. -/
def Signature.argumentSlots? (signature : Signature) : Except Fault (Option Nat) :=
  frameTotal? 0 signature.parameters

/-! ### Scopes -/

/-- The construct that opens a scope. -/
inductive ScopeKind where
  | global
  | consequent
  | alternative
  | forLoop
  | whileLoop
  | function
  | block
deriving DecidableEq, Repr

/-- A scope. Its declared cells are the size of its frame; the next free cell moves up as
its variables are given storage. -/
structure Scope where
  kind : ScopeKind
  name : Option String := none
  parent : Option ScopeId := none
  children : List ScopeId := []
  symbols : List (String × Symbol) := []
  declaredSlots : Nat := 0
  nextFree : Nat := 0
deriving DecidableEq, Repr

namespace Scope

/-- The symbol of a name. -/
def find? (scope : Scope) (name : String) : Option Symbol :=
  scope.symbols.lookup name

/-- The variable of a name. -/
def findVariable? (scope : Scope) (name : String) : Option Variable :=
  (scope.find? name).bind Symbol.asVariable?

/-- The function of a name. -/
def findFunction? (scope : Scope) (name : String) : Option Signature :=
  (scope.find? name).bind Symbol.asFunction?

end Scope

/-- Why a declaration is refused. -/
inductive Conflict where
  /-- The scope already has the name. -/
  | redeclared
  /-- The frame of the scope would have too many cells. -/
  | frameTooLarge
deriving DecidableEq, Repr

/-- All scopes of a program, by number. -/
structure ScopeTree where
  scopes : List Scope
deriving DecidableEq, Repr

namespace ScopeTree

/-- The number of the global scope. -/
def global : ScopeId := 0

/-- The tree that holds only the global scope. -/
def initial : ScopeTree := ⟨[{ kind := .global }]⟩

/-- A scope by its number. -/
def get? (tree : ScopeTree) (scope : ScopeId) : Option Scope :=
  tree.scopes[scope]?

/-- A scope by its number, where it has to exist. -/
def get (tree : ScopeTree) (scope : ScopeId) : Except Fault Scope :=
  match tree.get? scope with
  | some found => .ok found
  | none => .error (.unknownScope scope)

/-- Replaces a scope. -/
def set (tree : ScopeTree) (scope : ScopeId) (replacement : Scope) : ScopeTree :=
  ⟨tree.scopes.set scope replacement⟩

/-- Whether a scope is that of a function. -/
def isFunction (tree : ScopeTree) (scope : ScopeId) : Bool :=
  match tree.get? scope with
  | some found => found.kind == .function
  | none => false

/-! ### Opening and detaching -/

/-- Opens a scope inside another. Function scopes need a name. -/
def openScope (tree : ScopeTree) (parent : ScopeId) (kind : ScopeKind) (name : Option String) :
    Except Fault (ScopeId × ScopeTree) := do
  if kind = .function ∧ name = none then throw .unnamedFunctionScope
  let outer ← tree.get parent
  let opened := tree.scopes.length
  let extended := tree.set parent { outer with children := outer.children ++ [opened] }
  return (opened, ⟨extended.scopes ++ [{ kind, name, parent := some parent }]⟩)

/-- Takes a scope off the list of its parent's children. -/
def detach (tree : ScopeTree) (scope : ScopeId) : Except Fault ScopeTree := do
  let found ← tree.get scope
  match found.parent with
  | none => return tree
  | some parent =>
    let outer ← tree.get parent
    return tree.set parent { outer with children := outer.children.filter (· != scope) }

/-- Moves the function scopes in front of the other children of a scope. Each of the two
groups keeps its order. -/
def hoistFunctions (tree : ScopeTree) (scope : ScopeId) : Except Fault ScopeTree := do
  let found ← tree.get scope
  let (functions, others) := found.children.partition tree.isFunction
  return tree.set scope { found with children := functions ++ others }

/-! ### Declaring -/

/-- Declares a name in a scope. -/
def declare (tree : ScopeTree) (scope : ScopeId) (name : String) (symbol : Symbol) :
    Except Fault (Except Conflict ScopeTree) := do
  let found ← tree.get scope
  if (found.find? name).isSome then return .error .redeclared
  match frameSum? found.declaredSlots (← symbol.slots) with
  | none => return .error .frameTooLarge
  | some declaredSlots =>
    return .ok (tree.set scope
      { found with declaredSlots, symbols := found.symbols ++ [(name, symbol)] })

/-- Takes back the declaration of a name, if there is one. -/
def undeclare (tree : ScopeTree) (scope : ScopeId) (name : String) : Except Fault ScopeTree := do
  let found ← tree.get scope
  match found.find? name with
  | none => return tree
  | some symbol =>
    let declaredSlots ← Counter.subtract found.declaredSlots (← symbol.slots)
    return tree.set scope
      { found with declaredSlots, symbols := found.symbols.filter (·.1 != name) }

/-! ### Looking up -/

/-- The scopes from one towards the global scope, at most so many. -/
def climb (tree : ScopeTree) : (limit : Nat) → ScopeId → List ScopeId
  | 0, _ => []
  | limit + 1, scope =>
    match tree.get? scope with
    | none => []
    | some found =>
      match found.parent with
      | none => [scope]
      | some parent => scope :: climb tree limit parent

/-- The scopes around a place, from the innermost to the global one. -/
def ancestors (tree : ScopeTree) (scope : ScopeId) : List ScopeId :=
  tree.climb (scope + 1) scope

/-- The part of a walk up to and with the first function scope. -/
def throughFunction (tree : ScopeTree) : List ScopeId → List ScopeId
  | [] => []
  | scope :: rest => if tree.isFunction scope then [scope] else scope :: throughFunction tree rest

/-- The scopes whose variables are visible: a function does not see the variables of the
scopes around it. -/
def visible (tree : ScopeTree) (scope : ScopeId) : List ScopeId :=
  tree.throughFunction (tree.ancestors scope)

/-- The variable of a name in one scope. -/
def variableIn? (tree : ScopeTree) (name : String) (scope : ScopeId) : Option Variable :=
  (tree.get? scope).bind (·.findVariable? name)

/-- The function of a name in one scope. -/
def functionIn? (tree : ScopeTree) (name : String) (scope : ScopeId) : Option Signature :=
  (tree.get? scope).bind (·.findFunction? name)

/-- The variable that a name stands for in a scope. -/
def lookupVariable? (tree : ScopeTree) (scope : ScopeId) (name : String) : Option Variable :=
  (tree.visible scope).findSome? (tree.variableIn? name)

/-- The function that a name stands for. Functions live in the global scope. -/
def lookupFunction? (tree : ScopeTree) (name : String) : Option Signature :=
  tree.functionIn? name global

/-- Whether one of the scopes around a place has a function of this name. -/
def functionInChain (tree : ScopeTree) (scope : ScopeId) (name : String) : Bool :=
  (tree.ancestors scope).any fun ancestor => (tree.functionIn? name ancestor).isSome

/-- The frames open between a place and the frame of the call around it. -/
def functionDepth (tree : ScopeTree) (scope : ScopeId) : Nat :=
  ((tree.ancestors scope).takeWhile fun ancestor => !tree.isFunction ancestor).length

/-! ### Storage -/

/-- Labels a function symbol with its name. -/
def labelled : String × Symbol → String × Symbol
  | (name, .function signature) => (name, .function { signature with label := some name })
  | other => other

/-- Labels every function of the global scope with its name. -/
def labelFunctions (tree : ScopeTree) : ScopeTree :=
  match tree.get? global with
  | none => tree
  | some found => tree.set global { found with symbols := found.symbols.map labelled }

/-- The cells that the symbols of a scope take. -/
def symbolSlots (total : Nat) : List (String × Symbol) → Except Fault Nat
  | [] => .ok total
  | (_, symbol) :: rest => do
    match frameSum? total (← symbol.slots) with
    | none => throw .oversizedFrame
    | some sum => symbolSlots sum rest

/-- Counts the cells of one scope again and frees all of them. -/
def recount (scope : Scope) : Except Fault Scope := do
  let declaredSlots ← symbolSlots 0 scope.symbols
  return { scope with declaredSlots, nextFree := 0 }

/-- Counts the cells of a list of scopes again. -/
def recountAll : List Scope → Except Fault (List Scope)
  | [] => .ok []
  | scope :: rest => do
    let counted ← recount scope
    let others ← recountAll rest
    return counted :: others

/-- Counts the cells of every scope again. A scope counts what it declares itself: its
children have frames of their own. -/
def countSlots (tree : ScopeTree) : Except Fault ScopeTree := do
  return ⟨← recountAll tree.scopes⟩

/-- Sets the storage of a variable among the symbols of a scope. -/
def store (name : String) (index : Nat) : List (String × Symbol) → List (String × Symbol)
  | [] => []
  | (other, symbol) :: rest =>
    if other = name then
      match symbol with
      | .var found => (other, .var { found with storage := some index }) :: rest
      | .function _ => (other, symbol) :: rest
    else (other, symbol) :: store name index rest

/-- Gives a variable of a scope the next free cells of its frame. -/
def allocate (tree : ScopeTree) (scope : ScopeId) (name : String) :
    Except Fault (Nat × ScopeTree) := do
  let found ← tree.get scope
  match found.findVariable? name with
  | none => throw (.undeclaredVariable name)
  | some info =>
    let index := found.nextFree
    let nextFree ← Counter.add index (← info.type.slots)
    return (index, tree.set scope
      { found with nextFree, symbols := store name index found.symbols })

/-- Where a variable is, and its type. -/
structure Resolved where
  slot : Slot
  type : Ty
deriving DecidableEq, Repr

/-- The place of a variable of one scope, if it has storage there. -/
def placeIn? (tree : ScopeTree) (name : String) (scope : ScopeId) (level : Nat) :
    Option Resolved := do
  let info ← tree.variableIn? name scope
  let index ← info.storage
  return { slot := { index, level }, type := info.type }

/-- The place of a variable in the first of these scopes that gives it storage, the first
scope being at this level. -/
def resolveIn? (tree : ScopeTree) (name : String) : (level : Nat) → List ScopeId → Option Resolved
  | _, [] => none
  | level, scope :: rest =>
    (tree.placeIn? name scope level).or (resolveIn? tree name (level + 1) rest)

/-- The place of a variable as seen from a scope. Variables without storage are passed over,
because their declaration has not been reached yet. -/
def resolve? (tree : ScopeTree) (scope : ScopeId) (name : String) : Option Resolved :=
  tree.resolveIn? name 0 (tree.visible scope)

end ScopeTree

end PadLang
