/-
This file checks statements and opens the scopes of blocks.

Statements are checked in order. A statement that is complained about does not stop the
check: the statements after it are checked all the same, and a declaration counts as made
even if its value is wrong, so that one mistake is not reported again at every use of the
name. Blocks inside a rejected statement are still checked.

Functions are declared before anything else, so a call may come before the function. They
stand at the top level only.
-/

import PadLang.Typing.Expr

namespace PadLang

namespace Typing

/-- A checked piece of a program, the scopes after it and the complaints about it. -/
structure Checked (α : Type) where
  value : α
  tree : ScopeTree
  complaints : Complaints

/-- What a statement may refer to besides the scopes: the function it stands in, with the
type that function returns. -/
abbrev Enclosing := Option (String × Ty)

/-- The complaints of a result. -/
def complaintsOf {α : Type} : Except Complaints α → Complaints
  | .ok _ => []
  | .error complaints => complaints

/-- The value of a result, or what stood there before. -/
def valueOr {α : Type} (before : α) : Except Complaints α → α
  | .ok value => value
  | .error _ => before

/-- A check that leaves the scopes as they are. -/
def pureCheck {α : Type} (tree : ScopeTree) (before : α) (result : Except Complaints α) :
    Checked α :=
  { value := valueOr before result, tree, complaints := complaintsOf result }

/-! ### Declarations -/

/-- The complaint about a declaration that a scope refuses. -/
def conflictComplaint (name : String) : Conflict → Complaint
  | .redeclared => .redeclared name
  | .frameTooLarge => .frameTooLarge name

/-- Declares a variable in a scope. A variable must not bear the name of a function that is
declared in a scope around it. -/
def declareVariable (tree : ScopeTree) (scope : ScopeId) (name : Ident) (type : Ty) :
    Except Fault (ScopeTree × Complaints) := do
  if tree.functionInChain scope name.value then
    return (tree, [{ position := name.position, value := .shadowsFunction name.value }])
  match ← tree.declare scope name.value (.var { type }) with
  | .ok declared => return (declared, [])
  | .error conflict =>
    return (tree, [{ position := name.position, value := conflictComplaint name.value conflict }])

/-- Requires the value of a declaration or an assignment to have the type of its target. -/
def fits (typed : Typed) (position : Position) (target : Ty) : Except Complaints Expr := do
  let (expr, found) ← typed
  if found = target then return expr
  else complain position (.mismatch target found)

/-- Checks a declaration. The name is declared even if the value is wrong; if it cannot be
declared, the type of the value does not matter any more. -/
def declaration (tree : ScopeTree) (scope : ScopeId) (declaration : Declaration) :
    Except Fault (Checked Declaration) := do
  let typed := expression tree scope declaration.value
  let (declared, conflicts) ←
    declareVariable tree scope declaration.name declaration.type.value
  return {
    value := { declaration with value := valueOr declaration.value (typed.map Prod.fst) }
    tree := declared
    complaints :=
      if conflicts = [] then
        complaintsOf (fits typed declaration.value.position declaration.type.value)
      else complaintsOf typed ++ conflicts }

/-- Declares the parameters of a function. -/
def parameters (tree : ScopeTree) (scope : ScopeId) :
    List Parameter → Except Fault (ScopeTree × Complaints)
  | [] => .ok (tree, [])
  | parameter :: rest => do
    let (declared, first) ← declareVariable tree scope parameter.name parameter.type.value
    let (declared, others) ← parameters declared scope rest
    return (declared, first ++ others)

/-! ### Simple statements -/

/-- Checks an assignment. -/
def assignment (tree : ScopeTree) (scope : ScopeId) (assignment : Assignment) :
    Except Complaints Assignment := do
  let target ← variableType tree scope assignment.target
  match assignment.index with
  | none =>
    let value ← fits (expression tree scope assignment.value) assignment.value.position target
    return { assignment with value }
  | some index =>
    let element ← elementType assignment.target target
    let index ← expect tree scope index .int
    let value ← fits (expression tree scope assignment.value) assignment.value.position element
    return { assignment with index := some index, value }

/-- Checks an action. -/
def action (tree : ScopeTree) (scope : ScopeId) : Action → Except Complaints Action
  | .print value => do
    let (value, _) ← expression tree scope value
    return .print value
  | .delay milliseconds => do
    let milliseconds ← expect tree scope milliseconds .int
    return .delay milliseconds
  | .write x y colour => do
    let x ← expect tree scope x .int
    let y ← expect tree scope y .int
    let colour ← expect tree scope colour .colour
    return .write x y colour
  | .writeBox x y width height colour => do
    let x ← expect tree scope x .int
    let y ← expect tree scope y .int
    let width ← expect tree scope width .int
    let height ← expect tree scope height .int
    let colour ← expect tree scope colour .colour
    return .writeBox x y width height colour
  | .clear colour => do
    let colour ← expect tree scope colour .colour
    return .clear colour

/-- Checks the value that a function returns. -/
def returnedValue (tree : ScopeTree) (scope : ScopeId) (enclosing : Enclosing)
    (position : Position) (value : Expr) : Except Complaints Expr :=
  match enclosing with
  | none => complain position .returnOutsideFunction
  | some (function, returns) => do
    let (typed, found) ← expression tree scope value
    if found = returns then return typed
    else complain value.position (.returnType function returns found)

/-! ### Clauses of a loop -/

/-- Checks the declaration that opens a loop, if there is one. -/
def loopInit (tree : ScopeTree) (scope : ScopeId) :
    Option Declaration → Except Fault (Checked (Option Declaration))
  | none => .ok { value := none, tree, complaints := [] }
  | some init => do
    let checked ← declaration tree scope init
    return { checked with value := some checked.value }

/-- Checks the assignment that ends each round of a loop, if there is one. -/
def loopUpdate (tree : ScopeTree) (scope : ScopeId) :
    Option Assignment → Except Complaints (Option Assignment)
  | none => .ok none
  | some update => do return some (← assignment tree scope update)

/-! ### Statements -/

mutual

/-- Checks a statement. -/
def statement (tree : ScopeTree) (scope : ScopeId) (enclosing : Enclosing) :
    Stmt → Except Fault (Checked Stmt)
  | .assignment span made =>
    .ok (pureCheck tree (.assignment span made)
      ((assignment tree scope made).map (Stmt.assignment span)))
  | .declaration span made => do
    let checked ← declaration tree scope made
    return { checked with value := .declaration span checked.value }
  | .action span done =>
    .ok (pureCheck tree (.action span done) ((action tree scope done).map (Stmt.action span)))
  | .returnValue span value =>
    .ok (pureCheck tree (.returnValue span value)
      ((returnedValue tree scope enclosing span.first value).map (Stmt.returnValue span)))
  | .block span body => do
    let checked ← block tree scope enclosing .block body
    return { checked with value := .block span checked.value }
  | .function span header body =>
    if scope ≠ ScopeTree.global then
      .ok {
        value := .function span header body
        tree
        complaints :=
          [{ position := header.name.position, value := .nestedFunction header.name.value }] }
    else do
      let (opened, inner) ← tree.openScope scope .function (some header.name.value)
      let (declared, conflicts) ← parameters inner opened header.parameters
      let checked ←
        block declared opened (some (header.name.value, header.returns.value)) .block body
      return {
        value := .function span { header with scope := some opened } checked.value
        tree := checked.tree
        complaints := conflicts ++ checked.complaints }
  | .conditional span condition consequent none => do
    let test := expect tree scope condition .bool
    let first ← block tree scope enclosing .consequent consequent
    return {
      value := .conditional span (valueOr condition test) first.value none
      tree := first.tree
      complaints := complaintsOf test ++ first.complaints }
  | .conditional span condition consequent (some alternative) => do
    let test := expect tree scope condition .bool
    let first ← block tree scope enclosing .consequent consequent
    let second ← block first.tree scope enclosing .alternative alternative
    return {
      value := .conditional span (valueOr condition test) first.value (some second.value)
      tree := second.tree
      complaints := complaintsOf test ++ first.complaints ++ second.complaints }
  | .forLoop span init condition update (.mk position _ body) => do
    let (opened, inner) ← tree.openScope scope .forLoop none
    let start ← loopInit inner opened init
    let test := expect start.tree opened condition .bool
    let step := loopUpdate start.tree opened update
    let checked ← statements start.tree opened enclosing body
    return {
      value := .forLoop span start.value (valueOr condition test) (valueOr update step)
        (.mk position (some opened) checked.value)
      tree := checked.tree
      complaints :=
        start.complaints ++ complaintsOf test ++ complaintsOf step ++ checked.complaints }
  | .whileLoop span condition body => do
    let test := expect tree scope condition .bool
    let checked ← block tree scope enclosing .whileLoop body
    return {
      value := .whileLoop span (valueOr condition test) checked.value
      tree := checked.tree
      complaints := complaintsOf test ++ checked.complaints }

/-- Opens the scope of a block and checks its statements in it. -/
def block (tree : ScopeTree) (scope : ScopeId) (enclosing : Enclosing) (kind : ScopeKind) :
    Block → Except Fault (Checked Block)
  | .mk position _ body => do
    let (opened, inner) ← tree.openScope scope kind none
    let checked ← statements inner opened enclosing body
    return { checked with value := .mk position (some opened) checked.value }

/-- Checks statements in order. -/
def statements (tree : ScopeTree) (scope : ScopeId) (enclosing : Enclosing) :
    List Stmt → Except Fault (Checked (List Stmt))
  | [] => .ok { value := [], tree, complaints := [] }
  | first :: rest => do
    let checked ← statement tree scope enclosing first
    let others ← statements checked.tree scope enclosing rest
    return {
      value := checked.value :: others.value
      tree := others.tree
      complaints := checked.complaints ++ others.complaints }

end

/-! ### Programs -/

/-- The interface that a function declares. -/
def signatureOf (header : Header) : Signature :=
  { parameters := header.parameters.map fun parameter => parameter.type.value
    returns := header.returns.value }

/-- Declares one function in the global scope. The name of the entry point is taken. -/
def declareFunction (tree : ScopeTree) (header : Header) :
    Except Fault (ScopeTree × Complaints) := do
  let name := header.name
  if name.value = "main" then
    return (tree, [{ position := name.position, value := .reservedMain }])
  match ← tree.declare ScopeTree.global name.value (.function (signatureOf header)) with
  | .ok declared => return (declared, [])
  | .error _ => return (tree, [{ position := name.position, value := .redeclared name.value }])

/-- Declares the functions among the statements of a program. -/
def declareFunctions (tree : ScopeTree) : List Stmt → Except Fault (ScopeTree × Complaints)
  | [] => .ok (tree, [])
  | .function _ header _ :: rest => do
    let (declared, first) ← declareFunction tree header
    let (declared, others) ← declareFunctions declared rest
    return (declared, first ++ others)
  | _ :: rest => declareFunctions tree rest

/-- Checks a program from an empty tree of scopes. -/
def program (program : Program) : Except Fault (Checked Program) := do
  let (declared, conflicts) ← declareFunctions .initial program.statements
  let checked ← statements declared ScopeTree.global none program.statements
  return {
    value := ⟨checked.value⟩
    tree := checked.tree
    complaints := conflicts ++ checked.complaints }

end Typing

end PadLang
