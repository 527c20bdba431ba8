/-
This file shows that the order of the functions of a program is irrelevant.

Functions are declared before anything else and see nothing around them. So where they stand among
the other statements, and in which order, decides neither whether a program is accepted nor what
any of its functions or its entry point is compiled to. The scopes of two such programs bear
different numbers, and different variables of the top level are declared already where a function
is checked; but well-typedness speaks of neither, and code does not depend on numbers. What the
order of the functions does decide is the order of their segments.
-/

import PadLang.Proofs.Code.Segments
import PadLang.Proofs.DeadCode
import Mathlib.Data.List.Find

namespace PadLang

variable {piece : String × Code} {statement : Stmt}

/-! ### Reordered programs -/

/-- Two programs have the same statements at the top level, and those that are no functions in the
same order. -/
structure Program.Reordered (first second : Program) : Prop where
  statements : first.statements.Perm second.statements
  others : (first.statements.filter fun statement => !statement.isFunction) =
    second.statements.filter fun statement => !statement.isFunction

/-- The names of functions do not depend on the other statements. -/
theorem functionNames_eq_of_filter {first second : List Stmt}
    (same : first.filter Stmt.isFunction = second.filter Stmt.isFunction) :
    functionNames first = functionNames second := by
  have alone (statements : List Stmt) :
      functionNames (statements.filter Stmt.isFunction) = functionNames statements := by
    rw [functionNames, List.filterMap_filter, functionNames]
    refine congrArg (fun header? => (statements.filterMap header?).map _) (funext ?_)
    intro statement
    cases statement <;> rfl
  rw [← alone first, same, alone second]

namespace Program.Reordered

variable {first second : Program}

variable (reordered : first.Reordered second)

include reordered

theorem symm : second.Reordered first :=
  ⟨reordered.statements.symm, reordered.others.symm⟩

theorem declaredBy_eq : declaredBy first.statements = declaredBy second.statements := by
  rw [← declaredBy_filter_not_isFunction, reordered.others, declaredBy_filter_not_isFunction]

theorem functionNames_perm :
    (functionNames first.statements).Perm (functionNames second.statements) :=
  (reordered.statements.filterMap _).map _

/-- Functions with distinct names are found in any order. -/
theorem functionsOf_eq (distinct : (functionNames first.statements).Nodup) :
    functionsOf first.statements = functionsOf second.statements := by
  funext name
  refine congrArg (Option.map Typing.signatureOf)
    (List.find?_eq_find?_of_perm (reordered.statements.filterMap _) ?_)
  rintro header ⟨isHeader, hasName⟩ other ⟨isOther, otherHasName⟩
  have sameName : header.name.value = other.name.value :=
    (beq_iff_eq.mp hasName).trans (beq_iff_eq.mp otherHasName).symm
  exact List.inj_on_of_nodup_map distinct isHeader isOther sameName

/-- The rules do not look at the order of functions. -/
theorem wellTyped (typed : first.WellTyped) : second.WellTyped := by
  have functions_eq := reordered.functionsOf_eq typed.distinct
  have names := reordered.functionNames_perm
  refine ⟨names.nodup_iff.mp typed.distinct,
    fun reserved => typed.unreserved (names.mem_iff.mpr reserved), ?_, ?_, ?_⟩
  · intro span header body member
    rw [← functions_eq]
    exact typed.functions span header body (reordered.statements.mem_iff.mpr member)
  · rw [← functions_eq, ← reordered.declaredBy_eq]
    exact typed.globals
  · rw [← functions_eq, ← reordered.others]
    exact typed.statements

end Program.Reordered

namespace Analysis

/-! ### Acceptance -/

/-- A program is accepted if another order of its functions is. -/
theorem exists_analyze_reordered {first second : Program} {analysis : Analysis}
    (reordered : first.Reordered second) (accepted : analyze first = .ok (.ok analysis)) :
    ∃ other, analyze second = .ok (.ok other) := by
  have sized := allTypes_iff.mp (sized_of_accepted accepted)
  exact exists_analyze_of_wellTyped (reordered.wellTyped (wellTyped_of_accepted accepted))
    (allTypes_iff.mpr fun statement member =>
      sized statement (reordered.statements.mem_iff.mpr member))

/-! ### What is left of an accepted program -/

theorem filter_hoist (statements : List Stmt) :
    ((hoist statements).filter fun statement => !statement.isFunction) =
      statements.filter fun statement => !statement.isFunction := by
  rw [hoist_eq, List.filter_append, List.filter_filter, List.filter_filter]
  simp

section Left

variable {program : Program} {analysis : Analysis}
  (accepted : analyze program = .ok (.ok analysis))

include accepted

/-- What is left is the program without its dead tails and with its functions in front, up to
types and scopes. -/
theorem eraseAll_left :
    eraseAll analysis.program.statements = eraseAll (hoist (prunedAll program.statements)) := by
  rw [erased_of_accepted accepted, ← hoist_eraseAll, prunedAll_eraseAll]

theorem functionNames_left :
    functionNames analysis.program.statements = functionNames program.statements := by
  refine functionNames_eq_of_headersOf ?_
  rw [← headersOf_eraseAll, eraseAll_left accepted, headersOf_eraseAll, headersOf_hoist,
    headersOf_prunedAll (goesOn_of_accepted accepted)]

theorem flat_left : ∀ statement ∈ analysis.program.statements, statement.Flat := by
  refine (forall_mem_iff_of_eraseAll Stmt.flat_erase (eraseAll_left accepted)).mpr ?_
  have checks := ((Program.wellTyped_iff program).mp (wellTyped_of_accepted accepted)).1
  intro statement member
  obtain ⟨original, isOriginal, rfl⟩ :=
    exists_of_mem_prunedAll ((hoist_perm _).mem_iff.mp member)
  exact (checks.flat original isOriginal).pruned

/-- The statements that are no functions are left in their order. -/
theorem eraseAll_others_left :
    eraseAll (analysis.program.statements.filter fun statement => !statement.isFunction) =
      eraseAll (prunedAll (program.statements.filter fun statement => !statement.isFunction)) := by
  rw [← filter_prunedAll (goesOn_of_accepted accepted),
    ← filter_hoist (prunedAll program.statements)]
  refine Lexical.filter_eq_of_eraseAll (eraseAll_left accepted) fun statement => ?_
  rw [statement.isFunction_erase]

end Left

end Analysis

/-! ### Segments -/

/-- A function is well scoped wherever it stands. -/
theorem allScoped.of_mem {functions : Functions} {returns : Option Ty} {context : Context}
    {statements : List Stmt} (inScope : allScoped functions returns context statements)
    (member : statement ∈ statements) (isFunction : statement.isFunction = true)
    (elsewhere : Context) : statement.Scoped functions returns elsewhere := by
  induction statements generalizing context with
  | nil => cases member
  | cons first rest inductionHypothesis =>
    rcases List.mem_cons.mp member with rfl | later
    · exact inScope.1.of_isFunction isFunction
    · exact inductionHypothesis inScope.2 later

namespace Lexical

variable {functions : Functions} {layer : Layer}

theorem statement_of_piece? {outer : Context} (isPiece : piece? functions statement = some piece) :
    Lexical.statement functions layer outer statement = .label piece.1 :: piece.2 := by
  cases statement with
  | function span header body =>
    cases isPiece
    rfl
  | _ => cases isPiece

theorem isSome_piece? (functions : Functions) (statement : Stmt) :
    (piece? functions statement).isSome = statement.isFunction := by
  cases statement <;> rfl

/-- Well-scoped functions that are the same up to types and scopes are the same piece. -/
theorem piece?_eq_some_of_erase {before after : Stmt}
    (inScope : before.Scoped functions none [layer])
    (inScopeAfter : after.Scoped functions none [layer]) (erased : before.erase = after.erase)
    (isPiece : piece? functions before = some piece) : piece? functions after = some piece := by
  have isFunction : (piece? functions after).isSome = true := by
    rw [isSome_piece?, ← after.isFunction_erase, ← erased, before.isFunction_erase,
      ← isSome_piece? functions, isPiece]
    rfl
  obtain ⟨other, isOther⟩ := Option.isSome_iff_exists.mp isFunction
  have same := statement_eq_of_erase inScope inScopeAfter erased
  rw [statement_of_piece? isPiece, statement_of_piece? isOther] at same
  obtain ⟨sameLabel, sameCode⟩ := List.cons.inj same
  rw [isOther, ← Prod.ext (Instruction.label.inj sameLabel) sameCode]

section Pieces

variable {before after : List Stmt}
  (inScope : allScoped functions none [{ scope := ScopeTree.global, vars := [] }] before)
  (inScopeAfter : allScoped functions none [{ scope := ScopeTree.global, vars := [] }] after)

include inScope inScopeAfter

theorem mem_filterMap_piece? (perm : (eraseAll before).Perm (eraseAll after))
    (member : piece ∈ before.filterMap (piece? functions)) :
    piece ∈ after.filterMap (piece? functions) := by
  obtain ⟨statement, isStatement, isPiece⟩ := List.mem_filterMap.mp member
  have isErased : statement.erase ∈ eraseAll after := by
    refine perm.mem_iff.mp ?_
    rw [eraseAll_eq_map]
    exact List.mem_map_of_mem isStatement
  rw [eraseAll_eq_map] at isErased
  obtain ⟨other, isOther, erased⟩ := List.mem_map.mp isErased
  have isFunction : statement.isFunction = true := by
    rw [← isSome_piece? functions, isPiece]
    rfl
  have isFunctionOther : other.isFunction = true := by
    rw [← other.isFunction_erase, erased, statement.isFunction_erase, isFunction]
  let entered : Layer := { scope := ScopeTree.global, vars := [] }
  exact List.mem_filterMap.mpr ⟨other, isOther,
    piece?_eq_some_of_erase (inScope.of_mem isStatement isFunction [entered])
      (inScopeAfter.of_mem isOther isFunctionOther [entered]) erased.symm isPiece⟩

theorem entryPoint_eq_of_erase
    (others : eraseAll (before.filter fun statement => !statement.isFunction) =
      eraseAll (after.filter fun statement => !statement.isFunction)) :
    entryPoint functions before = entryPoint functions after := by
  have declared : declaredBy before = declaredBy after := by
    rw [← declaredBy_filter_not_isFunction before, ← declaredBy_eraseAll, others,
      declaredBy_eraseAll, declaredBy_filter_not_isFunction]
  rw [entryPoint, entryPoint, declared,
    statements_eq_of_erase inScope.filter_not_isFunction inScopeAfter.filter_not_isFunction
      others]

/-- Well-scoped programs with the same functions in any order, and the same other statements in one
order, are made of the same pieces. -/
theorem pieces_perm (perm : (eraseAll before).Perm (eraseAll after))
    (others : eraseAll (before.filter fun statement => !statement.isFunction) =
      eraseAll (after.filter fun statement => !statement.isFunction))
    (distinct : (functionNames before ++ ["main"]).Nodup)
    (distinctAfter : (functionNames after ++ ["main"]).Nodup) :
    (pieces functions before).Perm (pieces functions after) := by
  rw [← map_fst_pieces functions] at distinct distinctAfter
  refine (List.perm_ext_iff_of_nodup distinct.of_map distinctAfter.of_map).mpr fun piece => ?_
  rw [pieces, pieces, entryPoint_eq_of_erase inScope inScopeAfter others, List.mem_append,
    List.mem_append]
  exact or_congr_left ⟨mem_filterMap_piece? inScope inScopeAfter perm,
    mem_filterMap_piece? inScopeAfter inScope perm.symm⟩

end Pieces

end Lexical

namespace Analysis

variable {code : Code}

section Compiled

variable {program : Program} {analysis : Analysis}
  (accepted : analyze program = .ok (.ok analysis))

include accepted

theorem lookupFunction?_eq : analysis.tree.lookupFunction? = functionsOf program.statements :=
  ((analyze_exact program).good_of_ok accepted).2 analysis rfl

theorem inScope_left :
    allScoped (functionsOf program.statements) none [{ scope := ScopeTree.global, vars := [] }]
      analysis.program.statements := by
  obtain ⟨_, made⟩ := (analyze_meets program).good_of_ok accepted analysis rfl
  rw [← lookupFunction?_eq accepted]
  exact made.consistent.inScope

/-- The names of the segments of an accepted program are distinct. -/
theorem distinct_names : (functionNames program.statements ++ ["main"]).Nodup := by
  have typed := wellTyped_of_accepted accepted
  refine List.nodup_append.mpr ⟨typed.distinct, List.nodup_singleton _, ?_⟩
  intro name isFunction other isMain
  rw [List.mem_singleton.mp isMain]
  rintro rfl
  exact typed.unreserved isFunction

/-- The code of an accepted program is put together from its pieces. -/
theorem generate_eq_ok_iff_assembled :
    Code.generate analysis.program analysis.tree = .ok code ↔
      code = Code.assembled
        (Lexical.pieces (functionsOf program.statements) analysis.program.statements) ∧
      Code.Addressable code := by
  obtain ⟨_, made⟩ := (analyze_meets program).good_of_ok accepted analysis rfl
  rw [Code.generate_eq_ok_iff made.consistent, lookupFunction?_eq accepted,
    Lexical.program_eq_assembled]

theorem map_fst_pieces_left :
    (Lexical.pieces (functionsOf program.statements) analysis.program.statements).map Prod.fst =
      functionNames program.statements ++ ["main"] := by
  rw [Lexical.map_fst_pieces, functionNames_left accepted]

/-- The code of an accepted program is its segments, those of its functions in their order and that
of the entry point at the end. -/
theorem generated_eq_flatMap (generated : Code.generate analysis.program analysis.tree = .ok code) :
    code = (functionNames program.statements ++ ["main"]).flatMap fun name =>
      .label name :: (code.segment? name).getD [] := by
  obtain ⟨rfl, _⟩ := (generate_eq_ok_iff_assembled accepted).mp generated
  have distinct := distinct_names accepted
  rw [← map_fst_pieces_left accepted] at distinct ⊢
  exact Code.assembled_eq_flatMap (Lexical.unlabelled_pieces (flat_left accepted)) distinct

/-- Each piece of an accepted program is the segment of its name. -/
theorem segment?_of_mem_pieces (generated : Code.generate analysis.program analysis.tree = .ok code)
    (member : piece ∈
      Lexical.pieces (functionsOf program.statements) analysis.program.statements) :
    code.segment? piece.1 = some piece.2 := by
  obtain ⟨rfl, _⟩ := (generate_eq_ok_iff_assembled accepted).mp generated
  have distinct := distinct_names accepted
  rw [← map_fst_pieces_left accepted] at distinct
  rw [Code.segment?_assembled (Lexical.unlabelled_pieces (flat_left accepted)),
    Code.lookup_eq_some_of_mem distinct member]

end Compiled

section Reordered

variable {first second : Program} {one other : Analysis}
  (reordered : first.Reordered second) (accepted : analyze first = .ok (.ok one))
  (acceptedOther : analyze second = .ok (.ok other))

include reordered accepted acceptedOther

/-- Programs that differ in the order of their functions are made of the same pieces. -/
theorem pieces_left_perm :
    (Lexical.pieces (functionsOf first.statements) one.program.statements).Perm
      (Lexical.pieces (functionsOf second.statements) other.program.statements) := by
  have functions_eq := reordered.functionsOf_eq (wellTyped_of_accepted accepted).distinct
  have inScopeOther := inScope_left acceptedOther
  rw [← functions_eq] at inScopeOther ⊢
  have perm : (eraseAll one.program.statements).Perm (eraseAll other.program.statements) := by
    rw [eraseAll_left accepted, eraseAll_left acceptedOther, eraseAll_eq_map, eraseAll_eq_map,
      prunedAll_eq_map (goesOn_of_accepted accepted),
      prunedAll_eq_map (goesOn_of_accepted acceptedOther)]
    exact (((hoist_perm _).trans (reordered.statements.map _)).trans (hoist_perm _).symm).map _
  have others := eraseAll_others_left accepted
  rw [reordered.others, ← eraseAll_others_left acceptedOther] at others
  refine Lexical.pieces_perm (inScope_left accepted) inScopeOther perm others ?_ ?_
  · rw [functionNames_left accepted]
    exact distinct_names accepted
  · rw [functionNames_left acceptedOther]
    exact distinct_names acceptedOther

/-- Programs that differ in the order of their functions have the same instructions. -/
theorem addressable_iff :
    Code.Addressable (Code.assembled
        (Lexical.pieces (functionsOf first.statements) one.program.statements)) ↔
      Code.Addressable (Code.assembled
        (Lexical.pieces (functionsOf second.statements) other.program.statements)) := by
  have perm := (pieces_left_perm reordered accepted acceptedOther).flatMap_right
    fun piece => Instruction.label piece.1 :: piece.2
  exact forall_congr' fun instruction => imp_congr_left perm.mem_iff

/-- Programs that differ in the order of their functions have the same segments. -/
theorem exists_common_segment {otherCode : Code}
    (generated : Code.generate one.program one.tree = .ok code)
    (generatedOther : Code.generate other.program other.tree = .ok otherCode) {name : String}
    (isName : name ∈ functionNames first.statements ++ ["main"]) :
    ∃ segment, code.segment? name = some segment ∧ otherCode.segment? name = some segment := by
  rw [← map_fst_pieces_left accepted] at isName
  obtain ⟨piece, member, rfl⟩ := List.mem_map.mp isName
  have memberOther := (pieces_left_perm reordered accepted acceptedOther).mem_iff.mp member
  exact ⟨piece.2, segment?_of_mem_pieces accepted generated member,
    segment?_of_mem_pieces acceptedOther generatedOther memberOther⟩

end Reordered

end Analysis

/-- The order of functions is irrelevant. A program is accepted just if it is accepted with its
functions in any other order and at any other places among the other statements. Then one has code
just if the other has, and there is code if blocks are not nested deeper than levels can be counted.
Each of the two codes is its segments, those of the functions in the order of the program and that
of the entry point at the end, and the segments of a name are the same in both. So the codes are the
same if the functions stand in the same order. -/
theorem function_order_irrelevant {first second : Program} (reordered : first.Reordered second) :
    ((∃ analysis, Analysis.analyze first = .ok (.ok analysis)) ↔
      ∃ analysis, Analysis.analyze second = .ok (.ok analysis)) ∧
    ∀ one other, Analysis.analyze first = .ok (.ok one) →
      Analysis.analyze second = .ok (.ok other) →
      ((∃ code, Code.generate one.program one.tree = .ok code) ↔
        ∃ code, Code.generate other.program other.tree = .ok code) ∧
      (depthOf first.statements + 1 < Counter.bound →
        ∃ code, Code.generate one.program one.tree = .ok code) ∧
      ∀ code otherCode, Code.generate one.program one.tree = .ok code →
        Code.generate other.program other.tree = .ok otherCode →
        (code = (functionNames first.statements ++ ["main"]).flatMap fun name =>
          .label name :: (code.segment? name).getD []) ∧
        (otherCode = (functionNames second.statements ++ ["main"]).flatMap fun name =>
          .label name :: (otherCode.segment? name).getD []) ∧
        (∀ name ∈ functionNames first.statements ++ ["main"], ∃ segment,
          code.segment? name = some segment ∧ otherCode.segment? name = some segment) ∧
        (first.statements.filter Stmt.isFunction = second.statements.filter Stmt.isFunction →
          code = otherCode) := by
  refine ⟨⟨?_, ?_⟩, fun one other accepted acceptedOther => ⟨?_, ?_, ?_⟩⟩
  · rintro ⟨analysis, accepted⟩
    exact Analysis.exists_analyze_reordered reordered accepted
  · rintro ⟨analysis, accepted⟩
    exact Analysis.exists_analyze_reordered reordered.symm accepted
  · simp only [Analysis.generate_eq_ok_iff_assembled accepted,
      Analysis.generate_eq_ok_iff_assembled acceptedOther, exists_eq_left]
    exact Analysis.addressable_iff reordered accepted acceptedOther
  · intro shallow
    obtain ⟨_, made⟩ := (Analysis.analyze_meets first).good_of_ok accepted one rfl
    have shallower := made.depthOf_le
    exact ⟨_, (Code.generate_eq_ok_iff made.consistent).mpr
      ⟨rfl, Lexical.program_addressable (by omega)⟩⟩
  · intro code otherCode generated generatedOther
    have inOrder := Analysis.generated_eq_flatMap accepted generated
    have inOrderOther := Analysis.generated_eq_flatMap acceptedOther generatedOther
    have common {name : String} (isName : name ∈ functionNames first.statements ++ ["main"]) :=
      Analysis.exists_common_segment reordered accepted acceptedOther generated generatedOther
        isName
    refine ⟨inOrder, inOrderOther, fun name isName => common isName, fun sameOrder => ?_⟩
    rw [inOrder, inOrderOther, ← functionNames_eq_of_filter sameOrder]
    refine List.flatMap_congr fun name isName => ?_
    obtain ⟨segment, isSegment, isSegmentOther⟩ := common isName
    rw [isSegment, isSegmentOther]

/-- A program whose functions stand between its other statements, the first calling the second, and
the same program with the second function in front. -/
def scatteredPrograms : Program × Program :=
  let number (value : Int) : Expr := .literal { position := {} } (.int value)
  let name (value : String) : Expr := .var { position := {} } value
  let called (function : String) (argument : Expr) : Expr :=
    .call { position := {} } ⟨{}, function⟩ [argument]
  let declare (declared : String) (value : Expr) : Stmt :=
    .declaration ⟨{}, {}⟩ { name := ⟨{}, declared⟩, type := ⟨{}, .int⟩, value }
  let define (function : String) (body : List Stmt) : Stmt :=
    .function ⟨{}, {}⟩
      { name := ⟨{}, function⟩, parameters := [⟨⟨{}, "n"⟩, ⟨{}, .int⟩⟩], returns := ⟨{}, .int⟩ }
      (.mk {} none body)
  let twice : Stmt := define "twice"
    [.returnValue ⟨{}, {}⟩ (.binary { position := {} } (called "next" (name "n")) .add (name "n"))]
  let next : Stmt := define "next"
    [declare "a" (number 1),
      .returnValue ⟨{}, {}⟩ (.binary { position := {} } (name "n") .add (name "a"))]
  let shown : Stmt := .action ⟨{}, {}⟩ (.print (called "twice" (name "a")))
  (⟨[declare "a" (number 5), twice, shown, next]⟩, ⟨[next, declare "a" (number 5), twice, shown]⟩)

theorem function_order_irrelevant_scattered :
    scatteredPrograms.1.Reordered scatteredPrograms.2 ∧
    ∃ one other code otherCode,
      Analysis.analyze scatteredPrograms.1 = .ok (.ok one) ∧
      Analysis.analyze scatteredPrograms.2 = .ok (.ok other) ∧
      Code.generate one.program one.tree = .ok code ∧
      Code.generate other.program other.tree = .ok otherCode ∧
      code ≠ otherCode ∧
      ∀ name ∈ ["twice", "next", "main"], ∃ segment,
        code.segment? name = some segment ∧ otherCode.segment? name = some segment := by
  have reordered : scatteredPrograms.1.Reordered scatteredPrograms.2 :=
    ⟨List.perm_append_singleton _ (scatteredPrograms.1.statements.take 3), rfl⟩
  obtain ⟨one, accepted, -⟩ := Analysis.exists_of_view
    (by decide +kernel : ((Analysis.analyze scatteredPrograms.1).toOption.bind
      Except.toOption).map (fun _ => ()) = some ())
  obtain ⟨decides, compiled⟩ := function_order_irrelevant reordered
  obtain ⟨other, acceptedOther⟩ := decides.mp ⟨one, accepted⟩
  obtain ⟨both, generates, compared⟩ := compiled one other accepted acceptedOther
  obtain ⟨code, generated⟩ := generates (by decide)
  obtain ⟨otherCode, generatedOther⟩ := both.mp ⟨code, generated⟩
  obtain ⟨inOrder, inOrderOther, common, _⟩ := compared code otherCode generated generatedOther
  refine ⟨reordered, one, other, code, otherCode, accepted, acceptedOther, generated,
    generatedOther, ?_, common⟩
  have head : code.head? = some (.label "twice") := by
    rw [inOrder]
    rfl
  have headOther : otherCode.head? = some (.label "next") := by
    rw [inOrderOther]
    rfl
  rintro rfl
  exact absurd (head.symm.trans headOther) (by decide)

end PadLang
