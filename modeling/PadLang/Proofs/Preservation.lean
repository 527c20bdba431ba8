/-
This file shows that compiling a program preserves its meaning.

The programs in question are made of declarations, assignments, actions, blocks, conditionals and
`while` loops. Analysis removes nothing from such a program and moves nothing in it, so the code
is generated from the program itself, and whatever the program shows when it is run by its meaning
is shown by the machine that runs the code.
-/

import PadLang.Proofs.Resolution
import PadLang.Proofs.Simulation.Stmt

namespace PadLang

/-! ### Structured programs -/

mutual

/-- Whether a statement is made of declarations, assignments, actions, blocks, conditionals and
`while` loops. -/
def Stmt.isStructured : Stmt → Bool
  | .assignment _ _ | .declaration _ _ | .action _ _ => true
  | .block _ body => body.isStructured
  | .conditional _ _ first none => first.isStructured
  | .conditional _ _ first (some second) => first.isStructured && second.isStructured
  | .whileLoop _ _ body => body.isStructured
  | .function _ _ _ | .forLoop _ _ _ _ _ | .returnValue _ _ => false

/-- Whether a block is made of structured statements. -/
def Block.isStructured : Block → Bool
  | .mk _ _ body => allStructured body

/-- Whether all statements are structured. -/
def allStructured : List Stmt → Bool
  | [] => true
  | first :: rest => first.isStructured && allStructured rest

end

mutual

theorem Stmt.isStructured_erase (statement : Stmt) :
    statement.erase.isStructured = statement.isStructured := by
  match statement with
  | .assignment _ _ | .declaration _ _ | .action _ _ | .function _ _ _ | .forLoop _ _ _ _ _
  | .returnValue _ _ => rfl
  | .block _ body | .whileLoop _ _ body => exact body.isStructured_erase
  | .conditional _ _ first none => exact first.isStructured_erase
  | .conditional _ _ first (some second) =>
    exact congrArg₂ (· && ·) first.isStructured_erase second.isStructured_erase

theorem Block.isStructured_erase (block : Block) :
    block.erase.isStructured = block.isStructured := by
  match block with
  | .mk _ _ body => exact allStructured_eraseAll body

theorem allStructured_eraseAll (statements : List Stmt) :
    allStructured (eraseAll statements) = allStructured statements := by
  match statements with
  | [] => rfl
  | first :: rest =>
    exact congrArg₂ (· && ·) first.isStructured_erase (allStructured_eraseAll rest)

end

/-! ### Analysis of structured programs -/

mutual

theorem Stmt.alwaysReturns_of_isStructured {statement : Stmt}
    (structured : statement.isStructured = true) : statement.alwaysReturns = false := by
  match statement with
  | .assignment _ _ | .declaration _ _ | .action _ _ | .conditional _ _ _ none
  | .whileLoop _ _ _ => rfl
  | .block _ body => exact Block.alwaysReturns_of_isStructured structured
  | .conditional _ _ first (some second) =>
    rw [Stmt.isStructured, Bool.and_eq_true] at structured
    rw [Stmt.alwaysReturns, first.alwaysReturns_of_isStructured structured.1, Bool.false_and]

theorem Block.alwaysReturns_of_isStructured {block : Block}
    (structured : block.isStructured = true) : block.alwaysReturns = false := by
  match block with
  | .mk _ _ body => exact anyReturns_of_allStructured structured

theorem anyReturns_of_allStructured {statements : List Stmt}
    (structured : allStructured statements = true) : anyReturns statements = false := by
  match statements with
  | [] => rfl
  | first :: rest =>
    rw [allStructured, Bool.and_eq_true] at structured
    rw [anyReturns, Stmt.alwaysReturns_of_isStructured structured.1,
      anyReturns_of_allStructured structured.2, Bool.false_or]

end

mutual

/-- Nothing of a structured statement is removed. -/
theorem Stmt.pruned_of_isStructured {statement : Stmt}
    (structured : statement.isStructured = true) : statement.pruned = statement := by
  match statement with
  | .assignment _ _ | .declaration _ _ | .action _ _ => rfl
  | .block _ _ | .conditional _ _ _ none | .whileLoop _ _ _ =>
    rw [Stmt.pruned, Block.pruned_of_isStructured structured]
  | .conditional _ _ first (some second) =>
    rw [Stmt.isStructured, Bool.and_eq_true] at structured
    rw [Stmt.pruned, Block.pruned_of_isStructured structured.1,
      Block.pruned_of_isStructured structured.2]

theorem Block.pruned_of_isStructured {block : Block}
    (structured : block.isStructured = true) : block.pruned = block := by
  match block with
  | .mk _ _ body => rw [Block.pruned, prunedAll_of_allStructured structured]

theorem prunedAll_of_allStructured {statements : List Stmt}
    (structured : allStructured statements = true) : prunedAll statements = statements := by
  match statements with
  | [] => rfl
  | first :: rest =>
    rw [allStructured, Bool.and_eq_true] at structured
    rw [prunedAll, Stmt.alwaysReturns_of_isStructured structured.1,
      Stmt.pruned_of_isStructured structured.1, prunedAll_of_allStructured structured.2]
    rfl

end

theorem filter_isFunction_of_allStructured {statements : List Stmt}
    (structured : allStructured statements = true) :
    statements.filter Stmt.isFunction = [] ∧
      statements.filter (fun statement => !statement.isFunction) = statements := by
  induction statements with
  | nil => exact ⟨rfl, rfl⟩
  | cons first rest inductionHypothesis =>
    rw [allStructured, Bool.and_eq_true] at structured
    obtain ⟨none, all⟩ := inductionHypothesis structured.2
    have notFunction : first.isFunction = false := by
      cases first <;> first | rfl | cases structured.1
    rw [List.filter_cons, List.filter_cons, notFunction, none, all]
    exact ⟨rfl, rfl⟩

/-- The code of a structured program is the code of one block. Its statements differ from those of
the program only in what analysis has written on them. -/
theorem Build.exists_block_of_structured {program : Program} {product : Product}
    (lowered : lower program = .ok product) (structured : allStructured program.statements = true) :
    ∃ functions checked, eraseAll checked = eraseAll program.statements ∧
      allScoped functions none [{ scope := ScopeTree.global, vars := [] }] checked ∧
      product.code = [.label "main"] ++
        Lexical.block functions [] (.mk {} (some ScopeTree.global) checked) ++ [.op .halt] := by
  obtain ⟨analysis, analyzed, generated⟩ := lower_eq_ok lowered
  obtain ⟨checked, accepted⟩ :=
    (Analysis.analyze_meets program).good_of_ok analyzed analysis rfl
  have structuredChecked : allStructured checked = true := by
    rw [← allStructured_eraseAll, accepted.erased, allStructured_eraseAll, structured]
  obtain ⟨noFunctions, others⟩ := filter_isFunction_of_allStructured structuredChecked
  have same : analysis.program.statements = checked := by
    rw [accepted.statements, prunedAll_of_allStructured structuredChecked, Analysis.hoist_eq,
      noFunctions, others, List.nil_append]
  have code := (Code.generate_meets accepted.consistent).good_of_ok generated
  have inScope := accepted.consistent.inScope
  rw [same] at code inScope
  refine ⟨_, checked, accepted.erased, inScope, code.trans ?_⟩
  rw [Lexical.program, noFunctions, others]
  simp [Lexical.statements, Lexical.block]

/-- A structured program that is compiled shows on the machine what it means: if it ends after
some events, the machine that runs its code stops after the same events, with nothing on the stack
and no open frame. -/
theorem compilation_preserves_meaning (ops : WordOps) (pad : Pad) {program : Program}
    {product : Product} {events : List Event} (lowered : Build.lower program = .ok product)
    (structured : allStructured program.statements = true)
    (ends : program.Shows ops pad events) : Machine.Finishes ops pad product.code events := by
  obtain ⟨functions, checked, erased, inScope, code⟩ :=
    Build.exists_block_of_structured lowered structured
  obtain ⟨fuel, env, ran⟩ := ends.of_eraseAll erased
  have ranBlock : Block.run? ops pad (fuel + 1) [] (.mk {} (some ScopeTree.global) checked) =
      some (env.tail, events) := by
    rw [Block.run?, ran]
    rfl
  have inBlock : (Block.mk {} (some ScopeTree.global) checked).Scoped functions none [] :=
    ⟨_, rfl, inScope⟩
  obtain ⟨written, _, same, performs⟩ :=
    (simulates ops pad functions (fuel + 1)).block inBlock .nil ranBlock
  obtain rfl := List.map_eq_nil_iff.mp same
  have enters : Machine.Performs ops pad [.label "main"] ⟨[], [], []⟩ ⟨[], [], []⟩ :=
    .instruction rfl
  have stands : Machine.Stands product.code 0 ([.label "main"] ++
      Lexical.block functions [] (.mk {} (some ScopeTree.global) checked) ++ [.op .halt]) :=
    ⟨[], [], by rw [code, List.append_nil]; rfl, rfl⟩
  have runs := (enters.append (performs [] [])) stands.left
  have entry : Machine.start product.code = { counter := 0, data := ⟨[], [], []⟩ } := by
    rw [code]
    rfl
  refine ⟨_, stands.right.head, ?_⟩
  rw [entry]
  exact runs

/-- Halves the elements of an array one after the other. The halves are kept in a variable that
hides another one, and shown in ways that depend on their sign. -/
def halving : Program :=
  let span : Span := ⟨{}, {}⟩
  let note : Note := { position := {} }
  let int (value : Int) : Expr := .literal note (.int value)
  let colour (red green blue : UInt8) : Expr := .literal note (.colour ⟨red, green, blue⟩)
  let var (name : String) : Expr := .var note name
  ⟨[.declaration span ⟨⟨{}, "half"⟩, ⟨{}, .int⟩, int 0⟩,
    .declaration span ⟨⟨{}, "all"⟩, ⟨{}, .array 3 .int⟩,
      .array note [int 6, .unary note .negate (int 7), int 9]⟩,
    .whileLoop span (.binary note (var "half") .less (int 3)) (.mk {} none
      [.declaration span ⟨⟨{}, "at"⟩, ⟨{}, .int⟩, var "half"⟩,
       .assignment span ⟨⟨{}, "half"⟩, none, .binary note (var "at") .add (int 1)⟩,
       .declaration span ⟨⟨{}, "half"⟩, ⟨{}, .int⟩,
         .binary note (.index note ⟨{}, "all"⟩ (var "at")) .divide (int 2)⟩,
       .assignment span ⟨⟨{}, "all"⟩, some (var "at"), var "half"⟩,
       .conditional span (.binary note (var "half") .less (int 0))
         (.mk {} none [.action span (.print (var "half"))])
         (some (.mk {} none [.action span (.write (var "at") (var "half")
           (.binary note (colour 255 255 254) .add (colour 0 0 3)))]))]),
    .action span (.print (var "all"))]⟩

theorem compilation_preserves_halving :
    ∃ product, Build.lower halving = .ok product ∧ allStructured halving.statements = true ∧
      halving.Shows .numeric ⟨36, 36⟩ [⟨.write, [0, 3, 1]⟩, ⟨.print, [-3]⟩, ⟨.write, [2, 4, 1]⟩,
        ⟨.printArray, [3, -3, 4]⟩] ∧
      Machine.Finishes .numeric ⟨36, 36⟩ product.code [⟨.write, [0, 3, 1]⟩, ⟨.print, [-3]⟩,
        ⟨.write, [2, 4, 1]⟩, ⟨.printArray, [3, -3, 4]⟩] := by
  obtain ⟨product, lowered⟩ := Build.exists_of_isOk (by decide +kernel : (Build.lower halving).isOk)
  have structured : allStructured halving.statements = true := by decide
  have ends : halving.Shows .numeric ⟨36, 36⟩ [⟨.write, [0, 3, 1]⟩, ⟨.print, [-3]⟩,
      ⟨.write, [2, 4, 1]⟩, ⟨.printArray, [3, -3, 4]⟩] := ⟨20, by decide +kernel⟩
  exact ⟨product, lowered, structured, ends,
    compilation_preserves_meaning .numeric ⟨36, 36⟩ lowered structured ends⟩

end PadLang
