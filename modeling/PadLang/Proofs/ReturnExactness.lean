/-
This file shows that the pass over the return paths is exact.

The pass takes a sequence for one that always returns just if no execution completes it normally.
Of every sequence that it comes to it removes the statements that no execution can come to, and
no others. It complains about the functions among the rest whose bodies can be completed normally,
about each of them once. What is left has nothing in it to remove: the pass leaves it and its
scopes alone when it is run again, and warns about nothing.
-/

import Mathlib.Data.List.Nodup
import PadLang.Proofs.DeadTails
import PadLang.Proofs.Executions

namespace PadLang

open ReturnPaths

variable {alternative : Bool} {statements : List Stmt} {spot : Spot} {header : Header}

/-! ### Functions without a return -/

/-- An execution may come to the function with this header at a spot, and may complete its body
normally. -/
def Spot.Misses (spot : Spot) (statements : List Stmt) (header : Header) : Prop :=
  spot.Reached statements ∧ ∃ span body,
    spot.find? statements = some (.function span header body) ∧ body.Completes .normal

namespace Spot

variable {first : Stmt} {rest : List Stmt} {header : Header}

theorem misses_here_zero_iff :
    (here 0).Misses (first :: rest) header ↔
      ∃ span body, first = .function span header body ∧ body.Completes .normal := by
  rw [Misses, find?, List.getElem?_cons_zero]
  simp only [reached_here_zero, true_and, Option.some.injEq]

theorem misses_within_zero_iff {inner : Spot} :
    (within 0 alternative inner).Misses (first :: rest) header ↔
      ∃ block, first.block? alternative = some block ∧ inner.Misses block.statements header := by
  rw [Misses, reached_within_zero_iff, find?, List.getElem?_cons_zero, Option.bind_some]
  constructor
  · rintro ⟨⟨block, isBlock, reached⟩, found⟩
    rw [isBlock, Option.bind_some] at found
    exact ⟨block, isBlock, reached, found⟩
  · rintro ⟨block, isBlock, reached, found⟩
    rw [isBlock, Option.bind_some]
    exact ⟨⟨block, rfl, reached⟩, found⟩

theorem misses_next_iff :
    spot.next.Misses (first :: rest) header ↔
      first.Completes .normal ∧ spot.Misses rest header := by
  rw [Misses, reached_next_iff, find?_next, Misses, and_assoc]

end Spot

/-- The function that a statement defines, if it lacks a return. -/
def Stmt.lacking : Stmt → List (Spot × Header)
  | .function _ header body => if body.alwaysReturns then [] else [(.here 0, header)]
  | _ => []

theorem Stmt.missing_eq (statement : Stmt) :
    statement.missing =
      ((statement.block? false).toList.flatMap fun block =>
        block.missing.map (Prod.map (.within 0 false) id)) ++
      ((statement.block? true).toList.flatMap fun block =>
        block.missing.map (Prod.map (.within 0 true) id)) ++ statement.lacking := by
  fun_cases Stmt.missing statement <;>
    simp [Stmt.block?, Stmt.lacking]

section Membership

variable {statement first : Stmt} {rest : List Stmt} {spot : Spot} {header : Header}

theorem Stmt.mem_lacking_iff :
    (spot, header) ∈ statement.lacking ↔ spot = .here 0 ∧
      ∃ span body, statement = .function span header body ∧ body.Completes .normal := by
  constructor
  · intro member
    unfold Stmt.lacking at member
    split at member
    · next span found body =>
      split at member
      · cases member
      · next goesOn =>
        cases List.mem_singleton.mp member
        exact ⟨rfl, span, body, rfl, body.completes_normal_iff.mpr (Bool.eq_false_iff.mpr goesOn)⟩
    · cases member
  · rintro ⟨rfl, span, body, rfl, completes⟩
    rw [Stmt.lacking, body.completes_normal_iff.mp completes]
    exact List.mem_singleton_self _

theorem mem_map_within_iff {entries : List (Spot × Header)} :
    (spot, header) ∈ entries.map (Prod.map (.within 0 alternative) id) ↔
      ∃ inner, spot = .within 0 alternative inner ∧ (inner, header) ∈ entries := by
  rw [List.mem_map]
  constructor
  · rintro ⟨⟨inner, found⟩, member, same⟩
    cases same
    exact ⟨inner, rfl, member⟩
  · rintro ⟨inner, rfl, member⟩
    exact ⟨(inner, header), member, rfl⟩

theorem Stmt.mem_missing_iff :
    (spot, header) ∈ statement.missing ↔
      (∃ alternative inner block, spot = .within 0 alternative inner ∧
        statement.block? alternative = some block ∧ (inner, header) ∈ block.missing) ∨
      (spot = .here 0 ∧
        ∃ span body, statement = .function span header body ∧ body.Completes .normal) := by
  have inBlock (alternative : Bool) :
      ((spot, header) ∈ (statement.block? alternative).toList.flatMap fun block =>
        block.missing.map (Prod.map (.within 0 alternative) id)) ↔
      ∃ inner block, spot = .within 0 alternative inner ∧
        statement.block? alternative = some block ∧ (inner, header) ∈ block.missing := by
    simp only [List.mem_flatMap, Option.mem_toList, mem_map_within_iff]
    constructor
    · rintro ⟨block, isBlock, inner, isSpot, member⟩
      exact ⟨inner, block, isSpot, isBlock, member⟩
    · rintro ⟨inner, block, isSpot, isBlock, member⟩
      exact ⟨block, isBlock, inner, isSpot, member⟩
  rw [Stmt.missing_eq, List.mem_append, List.mem_append, inBlock, inBlock, Stmt.mem_lacking_iff,
    Bool.exists_bool]

theorem mem_missingOf_cons_iff :
    (spot, header) ∈ missingOf (first :: rest) ↔ (spot, header) ∈ first.missing ∨
      first.Completes .normal ∧
        ∃ earlier : Spot, spot = earlier.next ∧ (earlier, header) ∈ missingOf rest := by
  have behind : (spot, header) ∈ (missingOf rest).map (Prod.map Spot.next id) ↔
      ∃ earlier : Spot, spot = earlier.next ∧ (earlier, header) ∈ missingOf rest := by
    rw [List.mem_map]
    constructor
    · rintro ⟨⟨earlier, found⟩, member, same⟩
      cases same
      exact ⟨earlier, rfl, member⟩
    · rintro ⟨earlier, rfl, member⟩
      exact ⟨(earlier, header), member, rfl⟩
  rw [missingOf, first.completes_normal_iff]
  split
  · next returns => simp [returns]
  · next goesOn => simp [goesOn, List.mem_append, behind]

theorem Spot.next_ne_here (spot : Spot) : spot.next ≠ .here 0 := by
  cases spot <;> rintro ⟨⟩

theorem Spot.next_ne_within (spot : Spot) {inner : Spot} :
    spot.next ≠ .within 0 alternative inner := by
  cases spot <;> rintro ⟨⟩

/-- A spot in the first statement is not behind it. -/
theorem mem_missing_next_iff : (spot.next, header) ∈ first.missing ↔ False := by
  rw [iff_false, Stmt.mem_missing_iff]
  rintro (⟨_, _, _, same, _⟩ | ⟨same, _⟩)
  · exact spot.next_ne_within same
  · exact spot.next_ne_here same

end Membership

/-- The list has the functions that lack a return, if it has those at the spots further in. -/
theorem mem_missingOf_iff_of
    (further : ∀ index alternative inner, spot = .within index alternative inner →
      ∀ inside, (inner, header) ∈ missingOf inside ↔ inner.Misses inside header) :
    (spot, header) ∈ missingOf statements ↔ spot.Misses statements header := by
  induction statements generalizing spot with
  | nil =>
    refine ⟨fun member => absurd member List.not_mem_nil, ?_⟩
    rintro ⟨reached, _⟩
    cases spot with
    | here index => exact absurd reached.1 (Nat.not_lt_zero _)
    | within index alternative inner =>
      obtain ⟨_, _, _, isStatement, _⟩ := reached
      cases isStatement
  | cons first rest inductionHypothesis =>
    rw [mem_missingOf_cons_iff]
    obtain rfl | ⟨alternative, inner, rfl⟩ | ⟨earlier, rfl⟩ := spot.eq_first_or_next
    · rw [Spot.misses_here_zero_iff, Stmt.mem_missing_iff]
      constructor
      · rintro ((⟨_, _, _, ⟨⟩, _⟩ | ⟨_, isFunction⟩) | ⟨_, earlier, same, _⟩)
        · exact isFunction
        · exact absurd same.symm earlier.next_ne_here
      · exact fun isFunction => .inl (.inr ⟨rfl, isFunction⟩)
    · rw [Spot.misses_within_zero_iff, Stmt.mem_missing_iff]
      have inBlock (block : Block) :
          (inner, header) ∈ block.missing ↔ inner.Misses block.statements header := by
        cases block
        exact further 0 alternative inner rfl _
      constructor
      · rintro ((⟨_, _, block, ⟨⟩, isBlock, member⟩ | ⟨⟨⟩, _⟩) | ⟨_, earlier, same, _⟩)
        · exact ⟨block, isBlock, (inBlock block).mp member⟩
        · exact absurd same.symm earlier.next_ne_within
      · rintro ⟨block, isBlock, misses⟩
        exact .inl (.inl ⟨alternative, inner, block, rfl, isBlock, (inBlock block).mpr misses⟩)
    · have same : (earlier, header) ∈ missingOf rest ↔ earlier.Misses rest header :=
        inductionHypothesis fun index alternative inner isWithin =>
          further (index + 1) alternative inner (by rw [isWithin]; rfl)
      rw [mem_missing_next_iff, false_or, Spot.misses_next_iff, ← same]
      constructor
      · rintro ⟨completes, other, isOther, member⟩
        cases Spot.next_injective isOther
        exact ⟨completes, member⟩
      · rintro ⟨completes, member⟩
        exact ⟨completes, earlier, rfl, member⟩

/-- The list has the functions that lack a return, with their spots. -/
theorem mem_missingOf_iff :
    (spot, header) ∈ missingOf statements ↔ spot.Misses statements header := by
  induction spot generalizing statements with
  | here index => exact mem_missingOf_iff_of (by rintro _ _ _ ⟨⟩)
  | within index alternative inner inductionHypothesis =>
    refine mem_missingOf_iff_of ?_
    rintro _ _ _ ⟨⟩ inside
    exact inductionHypothesis

/-! ### Each function once -/

/-- The entries are at different spots. -/
def Apart (entries : List (Spot × Header)) : Prop := (entries.map Prod.fst).Nodup

namespace Apart

variable {entries others : List (Spot × Header)}

theorem map {shift : Spot → Spot} (apart : Apart entries) (injective : Function.Injective shift) :
    Apart (entries.map (Prod.map shift id)) := by
  have spots : (entries.map (Prod.map shift id)).map Prod.fst =
      (entries.map Prod.fst).map shift := by
    rw [List.map_map, List.map_map]
    rfl
  rw [Apart, spots]
  exact List.Nodup.map injective apart

theorem append (apart : Apart entries) (apartOthers : Apart others)
    (differ : ∀ entry ∈ entries, ∀ other ∈ others, entry.1 ≠ other.1) :
    Apart (entries ++ others) := by
  rw [Apart, List.map_append]
  refine List.nodup_append.mpr ⟨apart, apartOthers, ?_⟩
  intro spot member other isOther
  obtain ⟨entry, isEntry, rfl⟩ := List.mem_map.mp member
  obtain ⟨found, isFound, rfl⟩ := List.mem_map.mp isOther
  exact differ entry isEntry found isFound

end Apart

mutual

theorem Stmt.apart_missing (statement : Stmt) : Apart statement.missing := by
  match statement with
  | .assignment _ _ | .declaration _ _ | .action _ _ | .returnValue _ _ => exact List.nodup_nil
  | .block _ body | .conditional _ _ body none | .forLoop _ _ _ _ body | .whileLoop _ _ body =>
    exact body.apart_missing.map (Spot.within_injective 0 false)
  | .conditional _ _ first (some second) =>
    refine (first.apart_missing.map (Spot.within_injective 0 false)).append
      (second.apart_missing.map (Spot.within_injective 0 true)) ?_
    intro entry member other isOther
    obtain ⟨_, _, rfl⟩ := List.mem_map.mp member
    obtain ⟨_, _, rfl⟩ := List.mem_map.mp isOther
    rintro ⟨⟩
  | .function _ header body =>
    refine (body.apart_missing.map (Spot.within_injective 0 false)).append ?_ ?_
    · split
      · exact List.nodup_nil
      · exact List.nodup_singleton _
    · intro entry member other isOther
      obtain ⟨_, _, rfl⟩ := List.mem_map.mp member
      split at isOther
      · cases isOther
      · cases List.mem_singleton.mp isOther
        rintro ⟨⟩

theorem Block.apart_missing (block : Block) : Apart block.missing := by
  match block with
  | .mk _ _ body => exact apart_missingOf body

/-- No function that lacks a return is in the list twice. -/
theorem apart_missingOf (statements : List Stmt) : Apart (missingOf statements) := by
  match statements with
  | [] => exact List.nodup_nil
  | first :: rest =>
    rw [missingOf]
    split
    · exact first.apart_missing
    · refine first.apart_missing.append ((apart_missingOf rest).map Spot.next_injective) ?_
      rintro ⟨spot, header⟩ member other isOther rfl
      obtain ⟨⟨earlier, _⟩, _, rfl⟩ := List.mem_map.mp isOther
      exact mem_missing_next_iff.mp member

end

/-! ### Exactness -/

namespace ReturnPaths

/-- What is known of statements, what the pass leaves of them, whether it takes them to return
always and what it complains about. -/
structure Exact (before after : List Stmt) (returns : Bool) (complaints : Typing.Complaints) :
    Prop where
  /-- They always return just if no execution completes them normally. -/
  returns_iff : returns = true ↔ ¬ CompletesAll before .normal
  /-- Something is left just at the spots that an execution may come to. -/
  kept : ∀ spot : Spot, (∃ left, spot.find? after = some left) ↔ spot.Reached before
  /-- What is left at a spot stood there before, but for statements in its blocks. -/
  same : ∀ (spot : Spot) left, spot.find? after = some left →
    ∃ whole, spot.find? before = some whole ∧ left.shell = whole.shell
  /-- No statement is left behind one that cannot be completed normally. -/
  settled : ∀ (spot : Spot) left, spot.find? after = some left → spot.Reached after
  /-- There is one complaint for each function that an execution may come to and whose body it may
  complete normally. -/
  complaints_eq : ∃ entries : List (Spot × Header), Apart entries ∧
    (∀ spot header, (spot, header) ∈ entries ↔ spot.Misses before header) ∧
    complaints = entries.map fun entry => entry.2.missingReturn

theorem exact_prunedAll (before : List Stmt) :
    Exact before (prunedAll before) (anyReturns before) (complaintsAbout (missingOf before)) where
  returns_iff := by rw [completesAll_normal_iff, Bool.not_eq_false]
  kept spot := Spot.reached_iff.symm
  same spot left isLeft := by
    obtain ⟨_, whole, isWhole, rfl⟩ := Spot.find?_prunedAll_eq_some_iff.mp isLeft
    exact ⟨whole, isWhole, whole.shell_pruned⟩
  settled spot left isLeft := by
    rw [← prunedAll_prunedAll] at isLeft
    exact (Spot.find?_prunedAll_eq_some_iff.mp isLeft).1
  complaints_eq :=
    ⟨missingOf before, apart_missingOf before, fun _ _ => mem_missingOf_iff, rfl⟩

end ReturnPaths

theorem prunedAll_singleton (statement : Stmt) : prunedAll [statement] = [statement.pruned] := by
  rw [prunedAll]
  split <;> rfl

theorem missingOf_singleton (statement : Stmt) : missingOf [statement] = statement.missing := by
  rw [missingOf]
  split
  · rfl
  · exact List.append_nil _

/-- The pass over the return paths is exact, for a sequence of statements and for a single one. It
takes them to return always just if no execution completes them normally; it removes the statements
that no execution can come to, and no others; it complains about each function that an execution
can come to and whose body it can complete normally, and about nothing else; and run again on what
it has left, with whatever scopes, it removes nothing, changes no scope and gives no warning. It
has a result wherever the scopes of the statements are scopes of a sound tree. -/
theorem return_paths_exact (tree : ScopeTree) :
    (∀ around before result, sequence tree around before = .ok result →
      Exact before result.value result.returns result.complaints ∧
      ∀ again inside, sequence again inside result.value =
        .ok { result with tree := again, warnings := [] }) ∧
    (∀ before result, statement tree before = .ok result →
      (result.returns = true ↔ ¬ before.Completes .normal) ∧
      Exact [before] [result.value] result.returns result.complaints ∧
      ∀ again, statement again result.value =
        .ok { result with tree := again, warnings := [] }) ∧
    (tree.Sound →
      (∀ (around : Option ScopeId) before, (∀ id ∈ around.toList ++ scopesOf before,
        (id : Nat) < tree.size) → ∃ result, sequence tree around before = .ok result) ∧
      ∀ before : Stmt, (∀ id ∈ before.scopes, (id : Nat) < tree.size) →
        ∃ result, statement tree before = .ok result) := by
  refine ⟨fun around before result ended => ?_, fun before result ended => ?_,
    fun sound => ⟨?_, ?_⟩⟩
  · rw [sequence_eq] at ended
    obtain ⟨left, _, same⟩ := bind_eq_ok_iff.mp ended
    cases same
    exact ⟨exact_prunedAll before, fun again inside => sequence_prunedAll inside before⟩
  · rw [statement_eq] at ended
    obtain ⟨left, _, same⟩ := bind_eq_ok_iff.mp ended
    cases same
    refine ⟨?_, ?_, fun again => statement_pruned before⟩
    · rw [before.completes_normal_iff, Bool.not_eq_false]
    · have exact_one := exact_prunedAll [before]
      rw [prunedAll_singleton, missingOf_singleton, anyReturns, anyReturns, Bool.or_false]
        at exact_one
      exact exact_one
  · intro around before held
    have met : Meets True _ (sequence tree around before) := sequence_meets sound around before held
    obtain ⟨result, ended, _⟩ := met.exists_ok trivial
    exact ⟨result, ended⟩
  · intro before held
    have met : Meets True _ (statement tree before) := statement_meets sound before held
    obtain ⟨result, ended, _⟩ := met.exists_ok trivial
    exact ⟨result, ended⟩

/-- The checker leaves a program without scopes of its own in the scopes of a sound tree. -/
theorem Typing.held_of_checked {program : Program} {checked : Checked Program}
    (bare : scopesOf program.statements = []) (isChecked : Typing.program program = .ok checked) :
    checked.tree.Sound ∧ ∀ id ∈ (some ScopeTree.global).toList ++ scopesOf checked.value.statements,
      (id : Nat) < checked.tree.size := by
  obtain ⟨steady, _⟩ := (Typing.program_meets program).good_of_ok isChecked
  refine ⟨steady.sound, List.forall_mem_append.mpr ⟨fun id isGlobal => ?_, steady.held bare⟩⟩
  cases List.mem_singleton.mp isGlobal
  exact steady.sound.rooted.global_lt

/-- A function whose loop returns, but need not be entered, and one whose two branches return. Both
have statements behind a return. -/
def strayingProgram : Program :=
  let number (value : Int) : Expr := .literal { position := {} } (.int value)
  let condition : Expr := .literal { position := {} } (.bool true)
  let give (value : Int) : Stmt := .returnValue ⟨{}, {}⟩ (number value)
  let display (value : Int) : Stmt := .action ⟨{}, {}⟩ (.print (number value))
  let body (statements : List Stmt) : Block := .mk {} none statements
  let function (name : String) (statements : List Stmt) : Stmt :=
    .function ⟨{}, {}⟩ { name := ⟨{}, name⟩, parameters := [], returns := ⟨{}, .int⟩ }
      (body statements)
  ⟨[function "f" [.whileLoop ⟨{}, {}⟩ condition (body [give 1, display 2])],
    function "g" [.conditional ⟨{}, {}⟩ condition (body [give 1]) (some (body [give 2])),
      display 3, display 4]]⟩

theorem return_paths_exact_straying :
    ∃ checked result, Typing.program strayingProgram = .ok checked ∧
      sequence checked.tree (some ScopeTree.global) checked.value.statements = .ok result ∧
      result.complaints.length = 1 ∧ result.warnings.length = 2 ∧
      Exact checked.value.statements result.value result.returns result.complaints ∧
      sequence result.tree (some ScopeTree.global) result.value =
        .ok { result with tree := result.tree, warnings := [] } := by
  have seen : ((Typing.program strayingProgram).toOption.map fun checked =>
      (sequence checked.tree (some ScopeTree.global) checked.value.statements).toOption.map
        fun result => (result.complaints.length, result.warnings.length)) = some (some (1, 2)) := by
    decide +kernel
  obtain ⟨checked, isChecked, counted⟩ := Option.map_eq_some_iff.mp seen
  have isChecked := eq_ok_of_toOption isChecked
  obtain ⟨sound, held⟩ := Typing.held_of_checked rfl isChecked
  obtain ⟨exact_of_ok, _, settles⟩ := return_paths_exact checked.tree
  obtain ⟨result, ended⟩ := (settles sound).1 (some ScopeTree.global) _ held
  obtain ⟨isExact, again⟩ := exact_of_ok _ _ _ ended
  rw [ended] at counted
  obtain ⟨complaints, warnings⟩ := Prod.ext_iff.mp (Option.some.inj counted)
  exact ⟨checked, result, isChecked, ended, complaints, warnings, isExact, again _ _⟩

end PadLang
