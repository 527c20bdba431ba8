/-
This file generates code from contexts, without the tree of scopes.

The code of a well-scoped program is a function of its syntax alone. The level of a variable
is the position of its layer in the context, its first cell comes after the variables declared
before it in that layer, and the frame of a block has the cells of the variables that the block
declares directly. The update of a loop is placed in the context after the body, with the
declarations of the body still in view.
-/

import PadLang.Code.Stmt
import PadLang.Proofs.Layout

namespace PadLang

namespace Lexical

open Code (pushInt)

/-! ### Expressions -/

/-- Reads a variable. An array is copied through a frame of its own. -/
def readVariable (place : ScopeTree.Resolved) : Code :=
  match place.type with
  | .base _ => [.pushSlot place.slot]
  | .array size _ => [
      pushInt size, .op .oframe,
      pushInt size, .pushBlock { place.slot with level := place.slot.level + 1 },
      pushInt size, pushInt 0, pushInt 0, .op .sta,
      pushInt size, .pushBlock { index := 0, level := 0 },
      .op .cframe]

/-- Code for the place of a name, where it has one. -/
def atPlace (context : Context) (name : String) (code : ScopeTree.Resolved → Code) : Code :=
  ((context.place? name).map code).getD []

/-- Calls a function whose arguments are on the stack. -/
def call (functions : Functions) (function : String) : Code :=
  ((functions function).map fun signature =>
    [pushInt signature.cells, .push (.label function), .op .call]).getD []

mutual

/-- The code of an expression. -/
def expression (functions : Functions) (context : Context) : Expr → Code
  | .literal _ value => [.push (Code.literalOperand value)]
  | .array _ items => backwards functions context items
  | .side _ .width => [.op .width]
  | .side _ .height => [.op .height]
  | .read _ x y => expression functions context y ++ expression functions context x ++ [.op .read]
  | .randomInt _ limit => expression functions context limit ++ [.op .irnd]
  | .var _ name => atPlace context name readVariable
  | .index _ name offset =>
    atPlace context name.value fun place =>
      expression functions context offset ++ [.pushIndexed place.slot]
  | .call _ function arguments =>
    backwards functions context arguments ++ call functions function.value
  | .group _ inner => expression functions context inner
  | .binary _ left operator right =>
    (left.type?.map fun type =>
      Code.combine operator type (expression functions context left)
        (expression functions context right)).getD []
  | .unary _ .not operand => expression functions context operand ++ [.op .not]
  | .unary _ .negate operand => expression functions context operand ++ [pushInt 0, .op .sub]

/-- The code of expressions from the last to the first. -/
def backwards (functions : Functions) (context : Context) : List Expr → Code
  | [] => []
  | first :: rest => backwards functions context rest ++ expression functions context first

end

/-! ### Simple statements -/

/-- Opens a frame for variables. -/
def openFrame (vars : Vars) : Code := [pushInt vars.cells, .op .oframe]

/-- Stores the value of a declaration behind the variables already declared. -/
def declaration (functions : Functions) (layer : Layer) (outer : Context) (made : Declaration) :
    Code :=
  expression functions (layer :: outer) made.value ++
    Code.store made.type.value { index := layer.vars.cells, level := 0 }

/-- Stores a value in a variable or in an element of an array. -/
def assignment (functions : Functions) (context : Context) (made : Assignment) : Code :=
  atPlace context made.target.value fun place =>
    match made.index with
    | none => expression functions context made.value ++ Code.store place.type place.slot
    | some index =>
      expression functions context made.value ++ expression functions context index
        ++ [pushInt place.slot.index, .op .add, pushInt place.slot.level, .op .st]

/-- Does something on the pad. -/
def action (functions : Functions) (context : Context) : Action → Code
  | .print value =>
    expression functions context value ++ (value.type?.map Code.printed).getD []
  | .delay milliseconds => expression functions context milliseconds ++ [.op .delay]
  | .write x y colour => backwards functions context [x, y, colour] ++ [.op .write]
  | .writeBox x y width height colour =>
    backwards functions context [x, y, width, height, colour] ++ [.op .writebox]
  | .clear colour => expression functions context colour ++ [.op .clear]

/-- Leaves a function: all frames but that of the parameters are closed first. -/
def returnValue (functions : Functions) (context : Context) (value : Expr) : Code :=
  expression functions context value ++ List.replicate (context.length - 1) (.op .cframe)
    ++ [.op .ret]

/-- The declaration that opens a loop, if there is one. -/
def loopInit (functions : Functions) (layer : Layer) (outer : Context) : Option Declaration → Code
  | none => []
  | some init => declaration functions layer outer init

/-- The assignment that ends each round of a loop, if there is one. -/
def loopUpdate (functions : Functions) (context : Context) : Option Assignment → Code
  | none => []
  | some update => assignment functions context update

/-! ### Statements -/

mutual

/-- The code of a statement. -/
def statement (functions : Functions) (layer : Layer) (outer : Context) : Stmt → Code
  | .declaration _ made => declaration functions layer outer made
  | .assignment _ made => assignment functions (layer :: outer) made
  | .action _ done => action functions (layer :: outer) done
  | .returnValue _ value => returnValue functions (layer :: outer) value
  | .block _ body => block functions (layer :: outer) body
  | .function _ header body =>
    .label header.name.value ::
      block functions
        [{ scope := header.scope.getD ScopeTree.global, vars := parameterVars header.parameters }]
        body
  | .conditional _ condition first none =>
    Code.ifThen (expression functions (layer :: outer) condition)
      (block functions (layer :: outer) first)
  | .conditional _ condition first (some second) =>
    Code.ifThenElse (expression functions (layer :: outer) condition)
      (block functions (layer :: outer) first) (block functions (layer :: outer) second)
  | .whileLoop _ condition body =>
    Code.repeatWhile (expression functions (layer :: outer) condition)
      (block functions (layer :: outer) body)
  | .forLoop _ init condition update (.mk _ scope body) =>
    let entered : Layer := { scope := scope.getD ScopeTree.global, vars := [] }
    let started : Layer := { entered with vars := initVars init }
    let finished : Layer := { entered with vars := initVars init ++ declaredBy body }
    openFrame finished.vars ++ loopInit functions entered (layer :: outer) init ++
      Code.repeatWhile (expression functions (started :: layer :: outer) condition)
        (statements functions started (layer :: outer) body ++
          loopUpdate functions (finished :: layer :: outer) update) ++
      [.op .cframe]

/-- The code of a block: its statements in a frame of their own. -/
def block (functions : Functions) (context : Context) : Block → Code
  | .mk _ scope body =>
    openFrame (declaredBy body) ++
      statements functions { scope := scope.getD ScopeTree.global, vars := [] } context body ++
      [.op .cframe]

/-- The code of statements in order. -/
def statements (functions : Functions) (layer : Layer) (outer : Context) : List Stmt → Code
  | [] => []
  | first :: rest =>
    statement functions layer outer first ++
      statements functions { layer with vars := layer.vars ++ first.declares } outer rest

end

/-- The code of a program: its functions, and then its other statements under the label of the
entry point. -/
def program (functions : Functions) (statements : List Stmt) : Code :=
  let entered : Layer := { scope := ScopeTree.global, vars := [] }
  Lexical.statements functions entered [] (statements.filter Stmt.isFunction) ++
    [.label "main"] ++ openFrame (declaredBy statements) ++
    Lexical.statements functions entered []
      (statements.filter fun statement => !statement.isFunction) ++
    [.op .cframe, .op .halt]

end Lexical

/-! ### How deep statements are nested -/

mutual

/-- The number of blocks inside one another in a statement. -/
def Stmt.depth : Stmt → Nat
  | .assignment _ _ | .declaration _ _ | .action _ _ | .returnValue _ _ => 0
  | .block _ body => body.depth
  | .function _ _ body => body.depth
  | .conditional _ _ first none => first.depth
  | .conditional _ _ first (some second) => max first.depth second.depth
  | .forLoop _ _ _ _ body => body.depth
  | .whileLoop _ _ body => body.depth

/-- The number of blocks inside one another in a block, itself included. -/
def Block.depth : Block → Nat
  | .mk _ _ body => depthOf body + 1

/-- The number of blocks inside one another in statements. -/
def depthOf : List Stmt → Nat
  | [] => 0
  | first :: rest => max first.depth (depthOf rest)

end

theorem depthOf_le_iff {statements : List Stmt} {most : Nat} :
    depthOf statements ≤ most ↔ ∀ statement ∈ statements, statement.depth ≤ most := by
  induction statements with
  | nil => simp [depthOf]
  | cons first rest inductionHypothesis =>
    rw [depthOf, Nat.max_le, inductionHypothesis, List.forall_mem_cons]

theorem depthOf_le_of_sublist {part whole : List Stmt} (sublist : part.Sublist whole) :
    depthOf part ≤ depthOf whole :=
  depthOf_le_iff.mpr fun statement member =>
    depthOf_le_iff.mp (Nat.le_refl _) statement (sublist.subset member)

end PadLang
