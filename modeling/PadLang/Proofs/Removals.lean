/-
This file shows that the warnings about unreachable code describe what is removed.

The tokens of a program are cut: some are kept, and runs of others are removed, one run for each
dead tail. What is kept spells the program that pruning leaves. Positions increase along the tokens,
so no run reaches into another one, and the first and the last statement of a tail tell all lines
that its run is on.
-/

import PadLang.Proofs.DeadTails
import PadLang.Proofs.Lexing.Partition
import PadLang.Proofs.Mirroring
import PadLang.Proofs.Totality

namespace PadLang

variable {read run tokens : List Token} {position : Position}

/-! ### Cutting out runs of tokens -/

/-- Of some tokens, in order, these are kept and these runs are removed. -/
inductive Cut : List Token → List Token → List (List Token) → Prop where
  | nil : Cut [] [] []
  | keep {read kept : List Token} {removed : List (List Token)} (token : Token)
      (cut : Cut read kept removed) : Cut (token :: read) (token :: kept) removed
  | remove {read kept : List Token} {removed : List (List Token)} (run : List Token)
      (cut : Cut read kept removed) : Cut (run ++ read) kept (run :: removed)

namespace Cut

variable {read kept more keptMore : List Token} {removed removedMore : List (List Token)}

theorem all (read : List Token) : Cut read read [] := by
  induction read with
  | nil => exact .nil
  | cons token rest inductionHypothesis => exact .keep token inductionHypothesis

theorem append (first : Cut read kept removed) (second : Cut more keptMore removedMore) :
    Cut (read ++ more) (kept ++ keptMore) (removed ++ removedMore) := by
  induction first with
  | nil => exact second
  | keep token cut inductionHypothesis => exact .keep token inductionHypothesis
  | remove run cut inductionHypothesis =>
    rw [List.append_assoc]
    exact .remove run inductionHypothesis

theorem flatten_sublist (cut : Cut read kept removed) : removed.flatten.Sublist read := by
  induction cut with
  | nil => exact List.Sublist.refl _
  | keep token cut inductionHypothesis => exact inductionHypothesis.cons token
  | remove run cut inductionHypothesis => exact inductionHypothesis.append_left run

end Cut

/-! ### Cutting out dead tails -/

/-- The tokens are cut so that what is kept spells these terminals and what is removed are these
tails. -/
def Divides (left : List Terminal) (tails : List (Stmt × List Stmt)) (read : List Token) : Prop :=
  ∃ kept removed, Cut read kept removed ∧ Spelled left kept ∧
    List.Forall₂ (fun run tail => allReadFrom (tail.1 :: tail.2) run) removed tails

theorem Spelled.divides {terminals : List Terminal} (spelled : Spelled terminals read) :
    Divides terminals [] read :=
  ⟨read, [], .all read, spelled, .nil⟩

theorem Then.divides {first second : List Token → Prop} {left others : List Terminal}
    {tails more : List (Stmt × List Stmt)} (reads : Then first second read)
    (isFirst : ∀ {own}, first own → Divides left tails own)
    (isSecond : ∀ {own}, second own → Divides others more own) :
    Divides (left ++ others) (tails ++ more) read := by
  obtain ⟨own, rest, rfl, ownRead, restRead⟩ := reads
  obtain ⟨kept, removed, cut, spelled, isTails⟩ := isFirst ownRead
  obtain ⟨keptRest, removedRest, cutRest, spelledRest, isMore⟩ := isSecond restRead
  refine ⟨kept ++ keptRest, removed ++ removedRest, cut.append cutRest, ?_, ?_⟩
  · rw [Spelled, List.map_append, spelled, spelledRest]
  · exact List.rel_append isTails isMore

theorem allReadFrom.divides_tail {statements : List Stmt} (reads : allReadFrom statements read) :
    Divides [] (tailOf statements) read := by
  cases statements with
  | nil => exact Spelled.divides reads
  | cons first rest =>
    have cut : Cut (read ++ []) [] [read] := .remove read .nil
    rw [List.append_nil] at cut
    exact ⟨[], [read], cut, rfl, .cons reads .nil⟩

mutual

theorem Stmt.ReadFrom.divides {statement : Stmt} {read : List Token}
    (reads : statement.ReadFrom read) :
    Divides statement.pruned.terminals statement.deadTails read := by
  match statement with
  | .assignment _ _ | .declaration _ _ | .action _ _ | .returnValue _ _ =>
    exact Spelled.divides reads
  | .block _ _ => exact Block.ReadFrom.divides reads
  | .function _ _ _ | .conditional _ _ _ none | .forLoop _ _ _ _ _ | .whileLoop _ _ _ =>
    exact Then.divides reads Spelled.divides Block.ReadFrom.divides
  | .conditional _ _ _ (some _) =>
    have divides := Then.divides reads Spelled.divides fun rest => Then.divides rest
      Block.ReadFrom.divides fun last => Then.divides last Spelled.divides Block.ReadFrom.divides
    exact divides

theorem Block.ReadFrom.divides {block : Block} {read : List Token} (reads : block.ReadFrom read) :
    Divides block.pruned.terminals block.deadTails read := by
  match block with
  | .mk _ _ _ =>
    have divides := Then.divides reads Spelled.divides fun rest =>
      Then.divides rest allReadFrom.divides Spelled.divides
    rwa [List.append_nil] at divides

/-- The dead tails of statements are cut out of the tokens that these are read from. -/
theorem allReadFrom.divides {statements : List Stmt} {read : List Token}
    (reads : allReadFrom statements read) :
    Divides (terminalsOf (prunedAll statements)) (deadTailsOf statements) read := by
  match statements with
  | [] => exact Spelled.divides reads
  | first :: rest =>
    rw [prunedAll, deadTailsOf]
    split
    · exact Then.divides reads (fun own => own.2.divides) allReadFrom.divides_tail
    · exact Then.divides reads (fun own => own.2.divides) allReadFrom.divides

end

/-! ### Describing a run of tokens -/

/-- A warning describes a run of tokens: it stands where the run begins, and it names the first and
the last line that a token of the run is on. -/
structure Describes (run : List Token) (warning : Located Unreachable) : Prop where
  begins : run.head?.map Token.position = some warning.position
  first : IsLeast {line | ∃ token ∈ run, token.position.line = line} warning.value.firstLine
  last : IsGreatest {line | ∃ token ∈ run, token.position.line = line} warning.value.lastLine

theorem Position.line_le_of_lt {first second : Position} (before : first < second) :
    first.line ≤ second.line := by
  rcases lt_iff.mp before with above | ⟨same, _⟩
  · exact above.le
  · exact same.le

theorem isLeast_line
    (increasing : run.Pairwise fun first second => first.position < second.position)
    (begins : run.head?.map Token.position = some position) :
    IsLeast {line | ∃ token ∈ run, token.position.line = line} position.line := by
  obtain ⟨token, isHead, rfl⟩ := Option.map_eq_some_iff.mp begins
  obtain ⟨rest, rfl⟩ := List.head?_eq_some_iff.mp isHead
  refine ⟨⟨token, List.mem_cons_self, rfl⟩, ?_⟩
  rintro _ ⟨other, member, rfl⟩
  rcases List.mem_cons.mp member with rfl | later
  · exact le_rfl
  · exact Position.line_le_of_lt (List.rel_of_pairwise_cons increasing later)

theorem isGreatest_line
    (increasing : run.Pairwise fun first second => first.position < second.position)
    (ends : run.getLast?.map Token.position = some position) :
    IsGreatest {line | ∃ token ∈ run, token.position.line = line} position.line := by
  obtain ⟨token, isLast, rfl⟩ := Option.map_eq_some_iff.mp ends
  obtain ⟨rest, rfl⟩ := List.getLast?_eq_some_iff.mp isLast
  refine ⟨⟨token, List.mem_append_right _ List.mem_cons_self, rfl⟩, ?_⟩
  rintro _ ⟨other, member, rfl⟩
  rcases List.mem_append.mp member with earlier | last
  · exact Position.line_le_of_lt
      ((List.pairwise_append.mp increasing).2.2 other earlier token List.mem_cons_self)
  · rw [List.mem_singleton.mp last]

/-- Statements begin where the first one does and end where the last one does. -/
theorem allReadFrom.spans {first : Stmt} {rest : List Stmt}
    (reads : allReadFrom (first :: rest) read) :
    read.head?.map Token.position = some first.span.first ∧
      read.getLast?.map Token.position = some ((first :: rest).getLastD first).span.last := by
  induction rest generalizing first read with
  | nil =>
    obtain ⟨own, more, rfl, isFirst, nothing⟩ := reads
    rw [List.map_eq_nil_iff.mp nothing, List.append_nil]
    exact isFirst.1
  | cons second others inductionHypothesis =>
    obtain ⟨own, more, rfl, isFirst, restRead⟩ := reads
    obtain ⟨token, isHead, begins⟩ := Option.map_eq_some_iff.mp isFirst.1.1
    obtain ⟨last, isLast, ends⟩ := Option.map_eq_some_iff.mp (inductionHypothesis restRead).2
    rw [List.head?_append, isHead, List.getLast?_append, isLast]
    exact ⟨congrArg some begins, congrArg some ends⟩

theorem describes_of_reads {tail : Stmt × List Stmt}
    (increasing : run.Pairwise fun first second => first.position < second.position)
    (reads : allReadFrom (tail.1 :: tail.2) run) :
    Describes run (ReturnPaths.warning tail.1 tail.2) :=
  ⟨reads.spans.1, isLeast_line increasing reads.spans.1, isGreatest_line increasing reads.spans.2⟩

/-! ### Whole texts -/

theorem Build.positions_increase {source : String} (tokenized : tokenize source = .ok tokens) :
    (significant tokens).Pairwise fun first second => first.position < second.position := by
  obtain ⟨items, scanned, settled⟩ := bind_eq_ok_iff.mp tokenized
  have laid := Scan.itemsFrom_laid (guarded_eq_ok.mp scanned)
  have increase := laid.places_increase
  cases isSettled : Scan.settle items with
  | error errors =>
    rw [isSettled] at settled
    cases settled
  | ok found =>
    rw [isSettled] at settled
    cases settled
    rw [Scan.settle_eq_ok_iff.mp isSettled, List.pairwise_map] at increase
    exact increase.sublist ((List.takeWhile_sublist _).trans List.filter_sublist)

theorem Build.program_of_parse {program : Program} (parsed : parse tokens = .ok program) :
    Grammar.program tokens = .ok (.ok program) := by
  obtain ⟨result, isResult, delivered⟩ := bind_eq_ok_iff.mp parsed
  rw [guarded_eq_ok.mp isResult]
  cases result with
  | ok other =>
    cases delivered
    rfl
  | error errors => cases delivered

/-- Warnings describe what is removed. The significant tokens of a text that is read are cut into
tokens that are kept and runs that are removed. What is kept spells the program that pruning
leaves; there is one run for each dead tail, which it spells, and one warning for each run, which
describes it; and the runs do not overlap, since each is behind those before it. All this holds
whether the program is accepted or not. -/
theorem warnings_describe_removals {source : String} {tokens : List Token} {program : Program}
    (tokenized : Build.tokenize source = .ok tokens) (parsed : Build.parse tokens = .ok program) :
    ∃ result checked pruned kept removed, Analysis.analyze program = .ok result ∧
      Typing.program program = .ok checked ∧
      ReturnPaths.program checked.tree checked.value = .ok pruned ∧
      eraseAll pruned.value.statements = eraseAll (prunedAll program.statements) ∧
      (∀ analysis, result = .ok analysis → eraseAll analysis.program.statements =
        Analysis.hoist (prunedAll (eraseAll program.statements))) ∧
      Cut (significant tokens) kept removed ∧
      kept.map Token.terminal = terminalsOf (prunedAll program.statements) ∧
      List.Forall₂ (fun run tail => run.map Token.terminal = terminalsOf (tail.1 :: tail.2)) removed
        (deadTailsOf program.statements) ∧
      List.Forall₂ Describes removed (Analysis.warningsOf result) ∧
      removed.Pairwise fun earlier later =>
        ∀ token ∈ earlier, ∀ other ∈ later, token.position < other.position := by
  have fresh := (Build.fresh_of_parse parsed).1.sized
  obtain ⟨result, analyzed, _⟩ := (Analysis.analyze_meets program).exists_ok fresh
  obtain ⟨checked, pruned, isChecked, isPruned, erased, warnings⟩ := Analysis.exists_passes analyzed
  obtain ⟨reads, _⟩ := allReadFrom_of_program (Build.program_of_parse parsed)
  obtain ⟨kept, removed, cut, spelled, isTails⟩ := reads.divides
  have increasing : removed.flatten.Pairwise fun first second => first.position < second.position :=
    (Build.positions_increase tokenized).sublist cut.flatten_sublist
  rw [List.pairwise_flatten] at increasing
  refine ⟨result, checked, pruned, kept, removed, analyzed, isChecked, isPruned, erased, ?_, cut,
    spelled, isTails.imp fun _ _ reads => reads.covers.terminals, ?_, increasing.2⟩
  · rintro analysis rfl
    exact Analysis.erased_of_accepted analyzed
  · rw [warnings, warningsAbout, List.forall₂_map_right_iff]
    exact ((List.forall₂_and_left _ _).mpr ⟨increasing.1, isTails⟩).imp
      fun _ _ both => describes_of_reads both.1 both.2

/-- A function with statements behind a return, and more behind a conditional that always returns.
Among these is a loop with a dead tail of its own. -/
def rambling : String :=
  "fun f(x: int) -> int \x7b if (x < 1) \x7b return 1; __print 2;\n" ++
  "__print 3; \x7d else \x7b return 4; \x7d __print\n" ++
  "5; while (true) \x7b return 6; __print 7; \x7d \x7d"

theorem warnings_describe_removals_rambling :
    ∃ tokens program result removed, Build.tokenize rambling = .ok tokens ∧
      Build.parse tokens = .ok program ∧ Analysis.analyze program = .ok result ∧
      Analysis.warningsOf result = [⟨⟨1, 47⟩, ⟨1, 2⟩⟩, ⟨⟨2, 33⟩, ⟨2, 3⟩⟩] ∧
      List.Forall₂ Describes removed (Analysis.warningsOf result) := by
  have seen : ((Build.tokenize rambling).toOption.bind fun tokens =>
      (Build.parse tokens).toOption.bind fun program =>
        (Analysis.analyze program).toOption.map Analysis.warningsOf) =
      some [⟨⟨1, 47⟩, ⟨1, 2⟩⟩, ⟨⟨2, 33⟩, ⟨2, 3⟩⟩] := by
    decide +kernel
  obtain ⟨tokens, isTokens, seen⟩ := Option.bind_eq_some_iff.mp seen
  obtain ⟨program, isProgram, seen⟩ := Option.bind_eq_some_iff.mp seen
  obtain ⟨result, isResult, warned⟩ := Option.map_eq_some_iff.mp seen
  have tokenized := eq_ok_of_toOption isTokens
  have parsed := eq_ok_of_toOption isProgram
  have analyzed := eq_ok_of_toOption isResult
  obtain ⟨_, _, _, _, removed, same, _, _, _, _, _, _, _, describes, _⟩ :=
    warnings_describe_removals tokenized parsed
  cases analyzed.symm.trans same
  exact ⟨tokens, program, result, removed, tokenized, parsed, analyzed, warned, describes⟩

end PadLang
