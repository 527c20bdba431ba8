/-
This file shows that a compilation always ends with code or with a report.

A fault is left to the caller of a pass in two cases only: a counter overflows, or a pass is
handed something that another should have prepared. Analysis prepares what generation needs,
and a level counts the blocks around it. Blocks are nested at most half as deep as there are
tokens, and none of the passes nests them deeper.
-/

import PadLang.Build
import PadLang.Proofs.Analysis
import PadLang.Proofs.Code.Generation
import PadLang.Proofs.Grammar.Lossless
import PadLang.Proofs.Scanning

namespace PadLang

variable {program : Program}

/-! ### Depth under the passes -/

mutual

theorem Stmt.depth_erase (statement : Stmt) : statement.erase.depth = statement.depth := by
  match statement with
  | .assignment _ _ | .declaration _ _ | .action _ _ | .returnValue _ _ => rfl
  | .block _ body | .function _ _ body | .conditional _ _ body none | .forLoop _ _ _ _ body
  | .whileLoop _ _ body =>
    rw [Stmt.erase, Stmt.depth, Stmt.depth, body.depth_erase]
  | .conditional _ _ first (some second) =>
    rw [Stmt.erase, Stmt.depth, Stmt.depth, first.depth_erase, second.depth_erase]

theorem Block.depth_erase (block : Block) : block.erase.depth = block.depth := by
  match block with
  | .mk _ _ body => rw [Block.erase, Block.depth, Block.depth, depthOf_eraseAll body]

theorem depthOf_eraseAll (statements : List Stmt) :
    depthOf (eraseAll statements) = depthOf statements := by
  match statements with
  | [] => rfl
  | first :: rest => rw [eraseAll, depthOf, depthOf, first.depth_erase, depthOf_eraseAll rest]

end

mutual

theorem Stmt.depth_pruned (statement : Stmt) : statement.pruned.depth ≤ statement.depth := by
  match statement with
  | .assignment _ _ | .declaration _ _ | .action _ _ | .returnValue _ _ => exact Nat.le_refl _
  | .block _ body | .function _ _ body | .conditional _ _ body none | .forLoop _ _ _ _ body
  | .whileLoop _ _ body => exact body.depth_pruned
  | .conditional _ _ first (some second) =>
    exact Nat.max_le.mpr ⟨Nat.le_trans first.depth_pruned (Nat.le_max_left _ _),
      Nat.le_trans second.depth_pruned (Nat.le_max_right _ _)⟩

theorem Block.depth_pruned (block : Block) : block.pruned.depth ≤ block.depth := by
  match block with
  | .mk _ _ body => exact Nat.succ_le_succ (depthOf_prunedAll body)

theorem depthOf_prunedAll (statements : List Stmt) :
    depthOf (prunedAll statements) ≤ depthOf statements := by
  match statements with
  | [] => exact Nat.le_refl _
  | first :: rest =>
    have shallowFirst := first.depth_pruned
    have shallowRest := depthOf_prunedAll rest
    rw [prunedAll]
    split
    · rw [depthOf, depthOf, depthOf]
      omega
    · rw [depthOf, depthOf]
      omega

end

theorem Analysis.depthOf_hoist (statements : List Stmt) :
    depthOf (hoist statements) ≤ depthOf statements := by
  refine depthOf_le_iff.mpr fun statement member => ?_
  exact depthOf_le_iff.mp (Nat.le_refl _) statement ((hoist_perm statements).mem_iff.mp member)

theorem Accepted.depthOf_le {checked : List Stmt} {analysis : Analysis}
    (accepted : Accepted program checked analysis) :
    depthOf analysis.program.statements ≤ depthOf program.statements :=
  calc depthOf analysis.program.statements
      = depthOf (Analysis.hoist (prunedAll checked)) := by rw [accepted.statements]
    _ ≤ depthOf (prunedAll checked) := Analysis.depthOf_hoist _
    _ ≤ depthOf checked := depthOf_prunedAll _
    _ = depthOf program.statements := by
      rw [← depthOf_eraseAll, accepted.erased, depthOf_eraseAll]

/-! ### Steps that end -/

/-- A step ends with a value or with a report, and not with a fault. -/
def Settled {α : Type} (step : Step α) : Prop :=
  (∃ value, step = .ok value) ∨ ∃ phase report, step = .error (.rejected phase report)

namespace Settled

variable {α β : Type}

theorem ok {value : α} : Settled (.ok value) := .inl ⟨value, rfl⟩

theorem reject {phase : Phase} {report : Report} : Settled (Build.reject phase report : Step α) :=
  .inr ⟨phase, _, rfl⟩

theorem bind {first : Step α} {second : α → Step β} (start : Settled first)
    (next : ∀ value, first = .ok value → Settled (second value)) : Settled (first >>= second) := by
  rcases start with ⟨value, rfl⟩ | ⟨phase, report, rfl⟩
  · exact next value rfl
  · exact .inr ⟨phase, report, rfl⟩

theorem guarded {result : Except Fault α} {safe : Prop} {good : α → Prop}
    (met : Meets safe good result) (isSafe : safe) : Settled (Build.guarded result) := by
  obtain ⟨value, rfl, -⟩ := met.exists_ok isSafe
  exact .ok

end Settled

/-! ### The passes -/

namespace Build

variable {tokens : List Token} {source : String}

theorem guarded_eq_ok {α : Type} {result : Except Fault α} {value : α} :
    guarded result = .ok value ↔ result = .ok value := by
  cases result with
  | ok other => exact ⟨fun same => by cases same; rfl, fun same => by cases same; rfl⟩
  | error fault => exact ⟨nofun, nofun⟩

theorem tokenize_settled (small : source.length * Position.tabStop + 1 < Counter.bound) :
    Settled (tokenize source) := by
  refine Settled.bind (.guarded (Scan.items_meets source) small) fun items _ => ?_
  cases Scan.settle items with
  | ok tokens => exact .ok
  | error errors => exact .reject

theorem length_tokenize_le (found : tokenize source = .ok tokens) :
    tokens.length ≤ source.length + 1 := by
  obtain ⟨items, scanned, settled⟩ := bind_eq_ok_iff.mp found
  have few := (Scan.items_meets source).good_of_ok (guarded_eq_ok.mp scanned)
  rw [Scan.settle] at settled
  cases errors : Scan.errors items with
  | nil =>
    rw [errors] at settled
    cases settled
    exact Nat.le_trans (Scan.length_tokens_le items) few
  | cons first rest =>
    rw [errors] at settled
    cases settled

theorem parse_settled (tokens : List Token) : Settled (parse tokens) := by
  refine Settled.bind (.guarded (Grammar.program_meets tokens) trivial) fun result _ => ?_
  cases result with
  | ok program => exact .ok
  | error errors => exact .reject

theorem fresh_of_parse (read : parse tokens = .ok program) :
    allFresh program.statements ∧ 2 * depthOf program.statements ≤ tokens.length := by
  obtain ⟨result, parsed, delivered⟩ := bind_eq_ok_iff.mp read
  have met := (Grammar.program_meets tokens).good_of_ok (guarded_eq_ok.mp parsed)
  cases result with
  | ok other =>
    cases delivered
    exact met _ rfl
  | error errors => cases delivered

theorem lower_settled (fresh : allFresh program.statements)
    (shallow : depthOf program.statements + 1 < Counter.bound) : Settled (lower program) := by
  refine Settled.bind (.guarded (Analysis.analyze_meets program) fresh.sized)
    fun result analyzed => ?_
  have met := (Analysis.analyze_meets program).good_of_ok (guarded_eq_ok.mp analyzed)
  cases result with
  | error rejection => exact .reject
  | ok analysis =>
    obtain ⟨checked, accepted⟩ := met analysis rfl
    have depth := accepted.depthOf_le
    refine Settled.bind (.guarded (Code.generate_meets accepted.consistent) ?_) fun _ _ => .ok
    exact Lexical.program_addressable (by omega)

theorem lower_settled_of_parse (few : tokens.length < Counter.bound)
    (read : parse tokens = .ok program) : Settled (lower program) := by
  obtain ⟨fresh, depth⟩ := fresh_of_parse read
  refine lower_settled fresh ?_
  rw [Counter.bound] at *
  omega

end Build

/-- Neither a program that is read from fewer tokens than a counter can count nor a text of
fewer than a quarter as many characters causes a fault. -/
theorem compilation_settles :
    (∀ (tokens : List Token) (program : Program), tokens.length < 2 ^ 32 →
      Build.parse tokens = .ok program → Settled (Build.lower program)) ∧
    ∀ source : String, source.length < 2 ^ 30 → Settled (Build.compile source) := by
  refine ⟨fun tokens program few read => Build.lower_settled_of_parse few read, ?_⟩
  intro source short
  have small : source.length * Position.tabStop + 1 < Counter.bound := by
    rw [Position.tabStop, Counter.bound]
    omega
  refine Settled.bind (Build.tokenize_settled small) fun tokens found => ?_
  have few := Build.length_tokenize_le found
  refine Settled.bind (Build.parse_settled tokens) fun program read => ?_
  refine Build.lower_settled_of_parse ?_ read
  rw [Counter.bound]
  omega

/-- The tokens of a block that declares a variable and assigns to it. -/
def blockTokens : List Token :=
  [(.mark .openCurly, "\x7b"), (.mark .letWord, "let"), (.mark .identifier, "x"),
    (.mark .colon, ":"), (.mark .intType, "int"), (.mark .assign, "="), (.literal (.int 1), "1"),
    (.mark .semicolon, ";"), (.mark .identifier, "x"), (.mark .assign, "="),
    (.mark .identifier, "x"), (.mark .plus, "+"), (.literal (.int 2), "2"),
    (.mark .semicolon, ";"), (.mark .closeCurly, "\x7d")].map
    fun (content, lexeme) => { position := {}, lexeme, content }

theorem compilation_settles_block :
    blockTokens.length < 2 ^ 32 ∧
      (∃ program, Build.parse blockTokens = .ok program ∧ program.statements ≠ [] ∧
        Settled (Build.lower program)) ∧
      "let x: int = 1; for (; x < 3; ) \x7b\x7d".length < 2 ^ 30 ∧
      Settled (Build.compile "let x: int = 1; for (; x < 3; ) \x7b\x7d") := by
  refine ⟨by decide, ⟨_, rfl, nofun, ?_⟩, by decide, ?_⟩
  · exact compilation_settles.1 blockTokens _ (by decide) rfl
  · exact compilation_settles.2 _ (by decide)

end PadLang
