/-
This file shows what callers and functions agree on.

A caller knows the interface of the function, and the function knows the scope of its parameters.
Both count the same cells, and the words of an argument begin where the function looks for its
parameter. The exception is an argument in the update of a loop that reads a variable which the
body declares again with another number of cells.
-/

import PadLang.Proofs.FunctionOrder
import PadLang.Proofs.Flow.Arguments

namespace PadLang

variable {code : Code} {index : Nat} {name : String} {statements : List Stmt} {parts : List Lowered}
  {type : Ty}

/-! ### Labels -/

/-- The name of a label. -/
def Instruction.label? : Instruction → Option String
  | .label name => some name
  | _ => none

/-- The names of the labels in some code, in order. -/
def Code.labels (code : Code) : List String := code.filterMap Instruction.label?

namespace Code

theorem Unlabelled.labels_eq (unlabelled : Unlabelled code) : code.labels = [] := by
  rw [labels, List.filterMap_eq_nil_iff]
  intro instruction member
  have notLabel := unlabelled instruction member
  cases instruction with
  | label name => cases notLabel
  | _ => rfl

theorem labels_assembled {pieces : List (String × Code)}
    (unlabelled : ∀ piece ∈ pieces, Unlabelled piece.2) :
    (assembled pieces).labels = pieces.map Prod.fst := by
  induction pieces with
  | nil => rfl
  | cons piece rest inductionHypothesis =>
    obtain ⟨name, body⟩ := piece
    obtain ⟨bare, others⟩ := List.forall_mem_cons.mp unlabelled
    have first : labels (.label name :: body) = [name] := congrArg (name :: ·) bare.labels_eq
    rw [assembled_cons, ← List.cons_append, labels, List.filterMap_append]
    exact congrArg₂ (· ++ ·) first (inductionHypothesis others)

end Code

/-- The code of an accepted program has a label for each function and one for the entry point. -/
theorem Analysis.labels_eq {program : Program} {analysis : Analysis}
    (accepted : analyze program = .ok (.ok analysis))
    (generated : Code.generate analysis.program analysis.tree = .ok code) :
    code.labels = functionNames program.statements ++ ["main"] := by
  obtain ⟨rfl, _⟩ := (generate_eq_ok_iff_assembled accepted).mp generated
  rw [Code.labels_assembled (Lexical.unlabelled_pieces (flat_left accepted)),
    map_fst_pieces_left accepted]

/-! ### Storage of parameters -/

/-- A variable begins behind the cells of those before it. -/
theorem Vars.place?_of_getElem? {vars : Vars} (distinct : (vars.map Prod.fst).Nodup)
    (found : vars[index]? = some (name, type)) (offset : Nat) :
    vars.place? name offset = some (offset + Vars.cells (vars.take index), type) := by
  obtain ⟨inside, isEntry⟩ := List.getElem?_eq_some_iff.mp found
  have whole : vars.take index ++ (name, type) :: vars.drop (index + 1) = vars := by
    rw [← isEntry, List.cons_getElem_drop_succ, List.take_append_drop]
  rw [← whole, List.map_append, List.nodup_append] at distinct
  have missing : place? name offset (vars.take index) = none := by
    rw [place?_eq_none_iff, lookup_eq_none_iff_notMem_keys]
    exact fun isEarlier => distinct.2.2 name isEarlier name List.mem_cons_self rfl
  have placed := place?_append name offset (vars.take index)
    ((name, type) :: vars.drop (index + 1))
  rw [whole, missing, Option.none_or, place?, if_pos rfl] at placed
  exact placed

namespace ScopeTree

variable {tree : ScopeTree} {scope : ScopeId}

/-- The frame of a scope whose variables all have storage has the cells of these. -/
theorem Filled.exists_counted (filled : tree.Filled scope) (tidy : tree.Tidy) :
    ∃ found, tree.get? scope = some found ∧
      found.declaredSlots = (tree.varsOf scope).cells := by
  obtain ⟨row, vars, found, stocked⟩ := filled
  have counted := stocked.declaredSlots_eq (tidy found)
  rw [← varsOf_eq_of_stocked found stocked] at counted
  obtain ⟨whole, here, rfl⟩ := row?_eq_some_iff.mp found
  exact ⟨whole, here, counted⟩

/-- Each variable of such a scope is stored behind the cells of those before it. -/
theorem Filled.variableIn?_eq (filled : tree.Filled scope) (tidy : tree.Tidy)
    (isVariable : (tree.varsOf scope)[index]? = some (name, type)) :
    tree.variableIn? name scope =
      some { type, storage := some (Vars.cells ((tree.varsOf scope).take index)) } := by
  obtain ⟨row, vars, found, stocked⟩ := filled
  have distinct := stocked.keys_nodup (tidy found)
  rw [List.append_nil] at distinct
  rw [varsOf_eq_of_stocked found stocked, List.append_nil] at isVariable ⊢
  rw [ScopeTree.variableIn?_eq, found, Option.bind_some,
    Scope.findVariable?_eq_lookup (tidy found).distinct, stocked.stored, unplaced, List.map_nil,
    List.append_nil, lookup_placed, Vars.place?_of_getElem? distinct isVariable, Nat.zero_add]
  rfl

end ScopeTree

/-- The cells of the first parameters. -/
theorem cells_take_parameterVars (parameters : List Parameter) (count : Nat) :
    Vars.cells ((parameterVars parameters).take count) =
      ((parameters.map fun parameter => parameter.type.value.size).take count).sum := by
  rw [parameterVars, ← List.map_take, ← List.map_take, Vars.cells, List.map_map]
  rfl

/-! ### Words of the first arguments -/

/-- The words of an argument lie below those of the arguments before it. -/
theorem stacked_split {part : Lowered} (found : parts[index]? = some part) :
    stacked parts =
      stacked (parts.drop (index + 1)) ++ part.code ++ stacked (parts.take index) := by
  induction parts generalizing index with
  | nil => cases found
  | cons first rest inductionHypothesis =>
    cases index with
    | zero =>
      cases found
      exact (List.append_nil _).symm
    | succ index =>
      rw [List.getElem?_cons_succ] at found
      rw [stacked, inductionHypothesis found, List.drop_succ_cons, List.take_succ_cons, stacked,
        List.append_assoc]

theorem Machine.Stands.suffix_take_append {α : Type} {whole piece rest : List α} {start : Nat}
    (stands : Stands whole start (piece ++ rest)) :
    piece <:+ whole.take (start + piece.length) := by
  obtain ⟨ahead, behind, rfl, rfl⟩ := stands
  refine ⟨ahead, ?_⟩
  rw [List.append_assoc, List.append_assoc, ← List.append_assoc, ← List.length_append,
    List.take_left]

namespace Flow

open Code (pushInt)

variable {tree : ScopeTree} {cells : Nat}

/-- What a call and the function that it calls agree on. The arguments have these types and this
code, and the parameters have these widths. The caller pushes the sum of the widths, which is the
size of the frame for the parameters before and after code generation. The storage of a parameter
begins behind the widths of those before it. As many words lie on top of the argument for it,
unless a variable is displaced in one of the arguments before. -/
structure HandsOver (tree stored : ScopeTree) (code : Code) (counter : Nat) (header : Header)
    (scope : ScopeId) (widths : List Nat) (late : Vars) (parts : List Lowered) : Prop where
  widths_eq : header.parameters.map (fun parameter => parameter.type.value.slots) =
    widths.map .ok
  types_eq : parts.map Lowered.type =
    header.parameters.map fun parameter => parameter.type.value
  pushed : stacked parts ++ [pushInt widths.sum, .push (.label header.name.value)] <:+
    code.take counter
  scope_eq : header.scope = some scope
  isFunction : tree.isFunction scope = true
  framed : ∃ before after, tree.get? scope = some before ∧ stored.get? scope = some after ∧
    before.declaredSlots = widths.sum ∧ after.declaredSlots = widths.sum
  fits : widths.sum < 2 ^ 32
  placed : ∀ index parameter, header.parameters[index]? = some parameter →
    stored.variableIn? parameter.name.value scope =
      some { type := parameter.type.value, storage := some (widths.take index).sum }
  argument : ∀ index part, parts[index]? = some part →
    stacked parts =
        stacked (parts.drop (index + 1)) ++ part.code ++ stacked (parts.take index) ∧
      (¬part.expr.Displaced late →
        ∃ words, Climbs tree.lookupFunction? part.code words 0 ∧
          widths[index]? = some words.length)
  above : ∀ index, (∀ part ∈ parts.take index, ¬part.expr.Displaced late) →
    ∃ words, Climbs tree.lookupFunction? (stacked (parts.take index)) words 0 ∧
      words.length = (widths.take index).sum

/-- A call passes on the arguments of a call in one of the expressions of the program. -/
def Calls (tree stored : ScopeTree) (statements : List Stmt) (code : Code) (counter : Nat) :
    Prop :=
  ∃ header ∈ statements.filterMap Stmt.header?, ∃ site ∈ sitesOf statements,
    ∃ scope widths parts,
      Arguments tree.lookupFunction? site header.name.value widths.sum parts ∧
      HandsOver tree stored code counter header scope widths site.late parts

theorem exists_header_of_functionsOf {signature : Signature}
    (found : functionsOf statements name = some signature) :
    ∃ header ∈ statements.filterMap Stmt.header?, header.name.value = name ∧
      Typing.signatureOf header = signature := by
  obtain ⟨header, isHeader, rfl⟩ := Option.map_eq_some_iff.mp found
  exact ⟨header, List.mem_of_find?_eq_some isHeader, by simpa using List.find?_some isHeader, rfl⟩

/-- The scope of the parameters of a function of the program. -/
theorem exists_opens_of_header (ready : Ready tree statements) {header : Header}
    (isDefined : header ∈ statements.filterMap Stmt.header?) :
    ∃ scope ∈ scopesOf statements, header.scope = some scope ∧
      tree.Opens scope ScopeTree.global .function (some header.name.value)
        (parameterVars header.parameters) ∧
      ∀ parameter ∈ header.parameters, parameter.type.value.Written := by
  obtain ⟨statement, isStatement, isHeader⟩ := List.mem_filterMap.mp isDefined
  cases statement with
  | function span other body =>
    cases isHeader
    obtain ⟨scope, isScope, opens, _⟩ := ready.consistent.laidOut.of_mem isStatement
    refine ⟨scope, ?_, isScope, opens, (allTypes_iff.mp ready.types _ isStatement).1⟩
    exact mem_scopesOf.mpr ⟨_, isStatement,
      List.mem_append_left _ (Option.mem_toList.mpr isScope)⟩
  | _ => cases isHeader

/-- The first arguments leave as many words as their parameters have cells. -/
theorem Arguments.above {functions : Functions} {site : Site}
    (arguments : Arguments functions site name cells parts) {count : Nat}
    (steady : ∀ part ∈ parts.take count, ¬part.expr.Displaced site.late) :
    ∃ words, Climbs functions (stacked (parts.take count)) words 0 ∧
      words.length = (((parts.map Lowered.type).map Ty.size).take count).sum := by
  rw [← List.map_take, ← List.map_take]
  exact stacked_climbs fun part member =>
    arguments.raises part (List.mem_of_mem_take member) (steady part member)

/-- A call that passes on the arguments of a call in the program agrees with the function. -/
theorem PassedBy.calls {stored : ScopeTree} (ready : Ready tree statements)
    (vars : stored.varsOf = tree.varsOf) (tidy : stored.Tidy)
    (filled : ∀ scope ∈ scopesOf statements, stored.Filled scope) {arguments : Code} {counter : Nat}
    (passed : PassedBy tree.lookupFunction? (sitesOf statements) name cells arguments)
    (pushed : arguments ++ [pushInt cells, .push (.label name)] <:+ code.take counter) :
    Calls tree stored statements code counter := by
  obtain ⟨site, isSite, parts, rfl, made⟩ := passed
  obtain ⟨signature, isSignature, parameters, rfl⟩ := made.parameters
  rw [ready.functions] at isSignature
  obtain ⟨header, isDefined, rfl, rfl⟩ := exists_header_of_functionsOf isSignature
  obtain ⟨scope, isScope, scopeOf, opens, written⟩ := exists_opens_of_header ready isDefined
  let sizes := header.parameters.map fun parameter => parameter.type.value.size
  have areSizes : (parts.map Lowered.type).map Ty.size = sizes := by
    rw [← parameters, Typing.signatureOf, List.map_map]
    rfl
  have total : (Typing.signatureOf header).cells = sizes.sum := by
    rw [Signature.cells, parameters, areSizes]
  have cells_eq : (parameterVars header.parameters).cells = sizes.sum := by
    rw [← cells_signatureOf, total]
  have declares := vars ▸ opens.varsOf_eq
  obtain ⟨after, isAfter, countedAfter⟩ := (filled scope isScope).exists_counted tidy
  rw [declares, cells_eq] at countedAfter
  obtain ⟨row, isRow, _, _, _, _, locals⟩ := id opens
  obtain ⟨before, isBefore, rfl, holds⟩ := ready.consistent.sound.holds isRow locals
  have fits := (ready.consistent.sound.tidy isRow).fits
  have counted : before.declaredSlots = sizes.sum := holds.slots.trans cells_eq
  rw [total] at made pushed
  refine ⟨header, isDefined, site, isSite, scope, sizes, parts, made, ?_⟩
  refine ⟨?_, parameters.symm, pushed, scopeOf, opens.isFunction_eq,
    ⟨before, after, isBefore, isAfter, counted, countedAfter⟩, counted ▸ fits, ?_, ?_, ?_⟩
  · rw [List.map_map]
    exact List.map_congr_left fun parameter member => (written parameter member).sized
  · intro index parameter isParameter
    have isVariable : (stored.varsOf scope)[index]? =
        some (parameter.name.value, parameter.type.value) := by
      rw [declares, parameterVars, List.getElem?_map, isParameter]
      rfl
    rw [(filled scope isScope).variableIn?_eq tidy isVariable, declares, cells_take_parameterVars]
  · intro index part isPart
    refine ⟨stacked_split isPart, fun steady => ?_⟩
    obtain ⟨words, climbs, slots⟩ := made.raises part (List.mem_of_getElem? isPart) steady
    refine ⟨words, climbs, ?_⟩
    rw [← areSizes, List.map_map, List.getElem?_map, isPart, Ty.size_eq_of_slots slots]
    rfl
  · intro index steady
    have above := made.above steady
    rwa [areSizes] at above

end Flow

open PadLang.Flow
open Machine (Stands)

/-- In compiled code the labels are distinct, those of the functions first and that of the entry
point at the end, and only functions are named to be called. At every call the caller and the
function agree on the words that are passed on. -/
theorem calls_agree_with_functions {tokens : List Token} {program : Program} {product : Product}
    (read : Build.parse tokens = .ok program) (lowered : Build.lower program = .ok product) :
    ∃ analysis emitted,
      Analysis.analyze program = .ok (.ok analysis) ∧
      Code.furnish analysis.program analysis.tree = .ok emitted ∧
      emitted.code = product.code ∧
      product.code.labels = functionNames program.statements ++ ["main"] ∧
      product.code.labels.Nodup ∧
      (∀ (counter : Nat) (name : String), product.code[counter]? = some (.push (.label name)) →
        name ∈ functionNames program.statements) ∧
      ∀ counter : Nat, product.code[counter]? = some (.op .call) →
        Calls analysis.tree emitted.tree analysis.program.statements product.code counter := by
  obtain ⟨fresh, _⟩ := Build.fresh_of_parse read
  obtain ⟨analysis, analyzed, generated⟩ := Build.lower_eq_ok lowered
  have ready := Analysis.ready analyzed fresh.1
  have labels := Analysis.labels_eq analyzed generated
  have isProgram := (Code.generate_meets ready.consistent).good_of_ok generated
  rw [Code.generate_eq, ← bind_pure_comp, bind_eq_ok_iff] at generated
  obtain ⟨emitted, furnished, isCode⟩ := generated
  obtain ⟨_, vars, formed, filled⟩ :=
    (Code.furnish_meets ready.consistent).good_of_ok furnished
  have passes := program_passes ready
  rw [← isProgram] at passes
  refine ⟨analysis, emitted, analyzed, furnished, Except.ok.inj isCode, labels,
    labels ▸ Analysis.distinct_names analyzed, ?_, ?_⟩
  · intro counter name isPush
    obtain ⟨named, ⟨start, other, cells, arguments, rfl, stands, passed⟩, isHere⟩ :=
      passes.callsAt isPush rfl
    obtain ⟨site, _, parts, _, made⟩ := passed
    have pushes := stands.right.tail.head
    have calls := stands.right.tail.tail.head
    rcases isHere with rfl | rfl
    · cases isPush.symm.trans pushes
      obtain ⟨signature, isSignature, _⟩ := made.parameters
      rw [ready.functions] at isSignature
      obtain ⟨header, isDefined, rfl, _⟩ := exists_header_of_functionsOf isSignature
      rw [← Analysis.functionNames_left analyzed]
      exact List.mem_map_of_mem isDefined
    · cases isPush.symm.trans calls
  · intro counter isCall
    obtain ⟨named, ⟨start, name, cells, arguments, rfl, stands, passed⟩, isHere⟩ :=
      passes.callsAt isCall rfl
    have pushes := stands.right.tail.head
    rcases isHere with rfl | rfl
    · cases isCall.symm.trans pushes
    · refine passed.calls ready vars formed.tidy
        (fun scope member => filled scope (List.mem_cons_of_mem _ member)) ?_
      have split : Stands product.code start
          (arguments ++ [Code.pushInt cells, .push (.label name)] ++ [.op .call]) := by
        rw [List.append_assoc]
        exact stands
      have suffix := split.suffix_take_append
      rwa [List.length_append, ← Nat.add_assoc] at suffix

/-- The tokens of two functions that call each other, and of a loop whose update passes on a
variable that the body declares again with more cells. -/
def forwardingTokens : List Token :=
  let mark (mark : Mark) : Token := { position := {}, lexeme := "", content := .mark mark }
  let name (lexeme : String) : Token := { position := {}, lexeme, content := .mark .identifier }
  let number (value : Int) : Token :=
    { position := {}, lexeme := "", content := .literal (.int value) }
  let pair : List Token := [mark .intType, mark .openSquare, number 2, mark .closeSquare]
  let call (function first second : String) : List Token :=
    [name function, mark .openParen, name first, mark .comma, name second, mark .closeParen]
  [mark .funWord, name "f", mark .openParen, name "a", mark .colon, mark .intType, mark .comma,
    name "b", mark .colon] ++ pair ++ [mark .closeParen, mark .arrow, mark .intType,
    mark .openCurly, mark .returnWord] ++ call "g" "b" "a" ++ [mark .semicolon, mark .closeCurly,
    mark .funWord, name "g", mark .openParen, name "c", mark .colon] ++ pair ++ [mark .comma,
    name "d", mark .colon, mark .intType, mark .closeParen, mark .arrow, mark .intType,
    mark .openCurly, mark .returnWord] ++ call "f" "d" "c" ++ [mark .semicolon, mark .closeCurly,
    mark .letWord, name "x", mark .colon, mark .intType, mark .assign, number 0, mark .semicolon,
    mark .forWord, mark .openParen, mark .letWord, name "i", mark .colon] ++ pair ++
    [mark .assign, mark .openSquare, number 0, mark .comma, number 1, mark .closeSquare,
    mark .semicolon, name "i", mark .openSquare, number 0, mark .closeSquare, mark .less, number 3,
    mark .semicolon, name "i", mark .openSquare, number 0, mark .closeSquare, mark .assign] ++
    call "f" "x" "i" ++ [mark .closeParen, mark .openCurly, mark .letWord, name "x",
    mark .colon] ++ pair ++ [mark .assign, mark .openSquare, number 1, mark .comma, number 2,
    mark .closeSquare, mark .semicolon, mark .closeCurly]

theorem calls_agree_with_functions_forwarding :
    ∃ program product analysis emitted, Build.parse forwardingTokens = .ok program ∧
      Build.lower program = .ok product ∧ Analysis.analyze program = .ok (.ok analysis) ∧
      Code.furnish analysis.program analysis.tree = .ok emitted ∧
      product.code.labels.Nodup ∧
      product.code[16]? = some (.push (.label "g")) ∧ "g" ∈ functionNames program.statements ∧
      product.code[17]? = some (.op .call) ∧
      Calls analysis.tree emitted.tree analysis.program.statements product.code 17 := by
  have seen : ((Build.parse forwardingTokens >>= Build.lower).toOption.map
      fun product => (product.code[16]?, product.code[17]?)) =
        some (some (.push (.label "g")), some (.op .call)) := by decide +kernel
  obtain ⟨program, product, read, lowered, there⟩ := Build.exists_of_view seen
  obtain ⟨isPush, isCall⟩ := Prod.mk.inj there
  obtain ⟨analysis, emitted, analyzed, furnished, _, _, distinct, named, calls⟩ :=
    calls_agree_with_functions read lowered
  exact ⟨program, product, analysis, emitted, read, lowered, analyzed, furnished, distinct, isPush,
    named 16 "g" isPush, isCall, calls 17 isCall⟩

/-- The compiled program of these tokens, with its scopes after code generation. -/
def forwarded? : Option Code.Emitted :=
  (Build.parse forwardingTokens).toOption.bind fun program =>
    ((Analysis.analyze program).toOption.bind Except.toOption).bind fun analysis =>
      (Code.furnish analysis.program analysis.tree).toOption

/-- In the update of the loop the words of the second argument lie under two words, and the
function looks for them in the cells behind the first. -/
theorem displaced_argument_lies_deeper :
    let second := Lexical.readVariable { slot := { index := 0, level := 0 }, type := .array 2 .int }
    let first := Lexical.readVariable { slot := { index := 2, level := 0 }, type := .array 2 .int }
    forwarded?.map (fun emitted => (emitted.code.drop 70).take 25) =
        some (second ++ first ++ [Code.pushInt 3, .push (.label "f"), .op .call]) ∧
      (∀ functions, ∃ words, Climbs functions first words 0 ∧ words.length = 2) ∧
      (forwarded?.bind fun emitted => emitted.tree.variableIn? "b" 1) =
        some { type := .array 2 .int, storage := some 1 } := by
  refine ⟨by decide +kernel, fun functions => ?_, by decide +kernel⟩
  have written : (Ty.array 2 .int).Written := ⟨rfl, by rintro _ ⟨⟩; rfl⟩
  obtain ⟨words, climbs, slots⟩ : Raises functions (Lexical.readVariable
    { slot := { index := 2, level := 0 }, type := .array 2 .int }) _ := readVariable_raises written
  exact ⟨words, climbs, (Except.ok.inj slots).symm⟩

end PadLang
