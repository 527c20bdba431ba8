/-
This file generates the code of statements and of whole programs.

Every scope is a frame while the program runs: entering it pushes the number of its cells
and opens the frame, leaving it closes the frame. Only the frame of the parameters of a
function is opened by its caller. A return closes the frames between it and the frame of
the call.

Jumps are relative to the instruction that pushes their target, so the code of a statement
does not depend on what comes before it. Functions come first, each under its label, and
the other statements of the program follow under the label of the entry point.
-/

import PadLang.Code.Expr

namespace PadLang

namespace Code

/-- Code, and the scopes with the storage given out on the way. -/
structure Emitted where
  code : Code
  tree : ScopeTree

/-- The scope that analysis gave a block. -/
def scopeOf : Option ScopeId → Except Fault ScopeId
  | some scope => .ok scope
  | none => .error .unscopedBlock

/-- Opens the frame of a scope. -/
def openFrame (tree : ScopeTree) (scope : ScopeId) : Except Fault Code := do
  let found ← tree.get scope
  return [pushInt found.declaredSlots, .op .oframe]

/-! ### Simple statements -/

/-- Stores the value on the stack in a variable. -/
def store (type : Ty) (slot : Slot) : Code :=
  match type with
  | .base _ => [pushInt slot.index, pushInt slot.level, .op .st]
  | .array size _ => [pushInt size, pushInt slot.index, pushInt slot.level, .op .sta]

/-- Gives a declared variable its storage and stores its value there. -/
def declaration (tree : ScopeTree) (scope : ScopeId) (made : Declaration) :
    Except Fault Emitted := do
  let value ← expression tree scope made.value
  let (index, allocated) ← tree.allocate scope made.name.value
  return { code := value ++ store made.type.value { index, level := 0 }, tree := allocated }

/-- Stores a value in a variable or in an element of an array. -/
def assignment (tree : ScopeTree) (scope : ScopeId) (made : Assignment) : Except Fault Code := do
  let place ← resolve tree scope made.target.value
  let value ← expression tree scope made.value
  match made.index with
  | none => return value ++ store place.type place.slot
  | some index =>
    let offset ← expression tree scope index
    return value ++ offset
      ++ [pushInt place.slot.index, .op .add, pushInt place.slot.level, .op .st]

/-- The instructions that print a value of a type. -/
def printed : Ty → Code
  | .base _ => [.op .print]
  | .array size _ => [pushInt size, .op .printa]

/-- Does something on the pad. -/
def action (tree : ScopeTree) (scope : ScopeId) : Action → Except Fault Code
  | .print value => do
    let code ← expression tree scope value
    let type ← typeOf value
    return code ++ printed type
  | .delay milliseconds => do
    let code ← expression tree scope milliseconds
    return code ++ [.op .delay]
  | .write x y colour => do
    let code ← backwards tree scope [x, y, colour]
    return code ++ [.op .write]
  | .writeBox x y width height colour => do
    let code ← backwards tree scope [x, y, width, height, colour]
    return code ++ [.op .writebox]
  | .clear colour => do
    let code ← expression tree scope colour
    return code ++ [.op .clear]

/-- Leaves a function with a value. -/
def returnValue (tree : ScopeTree) (scope : ScopeId) (value : Expr) : Except Fault Code := do
  let code ← expression tree scope value
  return code ++ List.replicate (tree.functionDepth scope) (.op .cframe) ++ [.op .ret]

/-! ### Jumps -/

/-- Skips so many instructions if the condition on the stack is false. -/
def branchUnless (condition : Code) (skipped : Nat) : Code :=
  condition ++ [.op .not, .push (.target (skipped + 2)), .op .cjmp]

/-- Skips so many instructions. -/
def skipForward (skipped : Nat) : Code :=
  [.push (.target (skipped + 2)), .op .jmp]

/-- Goes back over so many instructions. -/
def jumpBack (length : Nat) : Code :=
  [.push (.target (-length)), .op .jmp]

/-- Runs some code if a condition holds. -/
def ifThen (condition consequent : Code) : Code :=
  branchUnless condition consequent.length ++ consequent

/-- Runs one of two pieces of code. -/
def ifThenElse (condition consequent alternative : Code) : Code :=
  let taken := consequent ++ skipForward alternative.length
  branchUnless condition taken.length ++ taken ++ alternative

/-- Runs some code as long as a condition holds. The jump back ends the part to skip. -/
def repeatWhile (condition body : Code) : Code :=
  let entry := branchUnless condition (body.length + 2)
  entry ++ body ++ jumpBack (entry.length + body.length)

/-! ### Statements -/

/-- Gives the parameters of a function their storage, in order. -/
def allocateAll (tree : ScopeTree) (scope : ScopeId) : List Parameter → Except Fault ScopeTree
  | [] => .ok tree
  | parameter :: rest => do
    let (_, allocated) ← tree.allocate scope parameter.name.value
    allocateAll allocated scope rest

/-- The declaration that opens a loop, if there is one. -/
def loopInit (tree : ScopeTree) (scope : ScopeId) : Option Declaration → Except Fault Emitted
  | none => .ok { code := [], tree }
  | some init => declaration tree scope init

/-- The assignment that ends each round of a loop, if there is one. -/
def loopUpdate (tree : ScopeTree) (scope : ScopeId) : Option Assignment → Except Fault Code
  | none => .ok []
  | some update => assignment tree scope update

mutual

/-- The code of a statement that stands in a scope. -/
def statement (tree : ScopeTree) (scope : ScopeId) : Stmt → Except Fault Emitted
  | .declaration _ made => declaration tree scope made
  | .assignment _ made => do return { code := ← assignment tree scope made, tree }
  | .action _ done => do return { code := ← action tree scope done, tree }
  | .returnValue _ value => do return { code := ← returnValue tree scope value, tree }
  | .block _ body => block tree body
  | .function _ header body => do
    let opened ← scopeOf header.scope
    let found ← tree.get opened
    match found.name with
    | none => throw .unlabelledFunction
    | some label =>
      let allocated ← allocateAll tree opened header.parameters
      let emitted ← block allocated body
      return { emitted with code := .label label :: emitted.code }
  | .conditional _ condition consequent none => do
    let test ← expression tree scope condition
    let first ← block tree consequent
    return { code := ifThen test first.code, tree := first.tree }
  | .conditional _ condition consequent (some alternative) => do
    let test ← expression tree scope condition
    let first ← block tree consequent
    let second ← block first.tree alternative
    return { code := ifThenElse test first.code second.code, tree := second.tree }
  | .whileLoop _ condition body => do
    let test ← expression tree scope condition
    let emitted ← block tree body
    return { code := repeatWhile test emitted.code, tree := emitted.tree }
  | .forLoop _ init condition update (.mk _ opened body) => do
    let inner ← scopeOf opened
    let entry ← openFrame tree inner
    let start ← loopInit tree inner init
    let test ← expression start.tree inner condition
    let emitted ← statements start.tree inner body
    let step ← loopUpdate emitted.tree inner update
    return {
      code := entry ++ start.code ++ repeatWhile test (emitted.code ++ step) ++ [.op .cframe]
      tree := emitted.tree }

/-- The code of a block: its statements in a frame of their own. -/
def block (tree : ScopeTree) : Block → Except Fault Emitted
  | .mk _ opened body => do
    let inner ← scopeOf opened
    let entry ← openFrame tree inner
    let emitted ← statements tree inner body
    return { emitted with code := entry ++ emitted.code ++ [.op .cframe] }

/-- The code of statements in order. -/
def statements (tree : ScopeTree) (scope : ScopeId) : List Stmt → Except Fault Emitted
  | [] => .ok { code := [], tree }
  | first :: rest => do
    let emitted ← statement tree scope first
    let others ← statements emitted.tree scope rest
    return { code := emitted.code ++ others.code, tree := others.tree }

end

/-! ### Programs -/

/-- The code of a program and its scopes. -/
def generate (program : Program) (tree : ScopeTree) : Except Fault Code := do
  let prepared := (← tree.countSlots).labelFunctions
  let (functions, others) := program.statements.partition Stmt.isFunction
  let first ← statements prepared ScopeTree.global functions
  let entry ← openFrame first.tree ScopeTree.global
  let main ← statements first.tree ScopeTree.global others
  return first.code ++ [.label "main"] ++ entry ++ main.code ++ [.op .cframe, .op .halt]

end Code

end PadLang
