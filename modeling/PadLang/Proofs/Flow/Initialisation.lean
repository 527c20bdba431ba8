/-
This file shows that compiled code reads no variable before it has been stored.

Every instruction that opens a frame stands in front of code that is followed by the one that
closes the frame. The frame is that of a scope, or it holds the copy of an array. Inside it all
variables are stored as a whole before they are read, whichever way control takes. The frame of the
parameters of a function is open at its label, and its cells are those that the callers pass.
-/

import PadLang.Proofs.Code.Segments
import PadLang.Proofs.Flow.Storage
import PadLang.Proofs.Flow.Supply
import PadLang.Proofs.Mirroring

namespace PadLang

variable {start counter : Nat} {name : String} {scope : ScopeId} {statements : List Stmt}
  {pieces : List (String × Code)} {α : Type}

/-! ### Pieces inside pieces -/

theorem Machine.Stands.within {whole part piece : List α} {base offset : Nat}
    (stands : Stands whole base part) (inside : Stands part offset piece) :
    Stands whole (base + offset) piece := by
  obtain ⟨ahead, behind, rfl, rfl⟩ := stands
  obtain ⟨before, after, rfl, rfl⟩ := inside
  exact ⟨ahead ++ before, after ++ behind, by simp only [List.append_assoc],
    List.length_append.symm⟩

theorem Machine.Stands.suffix_take {whole rest : List α} {first : α}
    (stands : Stands whole start (first :: rest)) : [first] <:+ whole.take (start + 1) := by
  obtain ⟨ahead, behind, rfl, rfl⟩ := stands
  refine ⟨ahead, ?_⟩
  simp [List.take_append]

namespace Code

/-- A label among pieces is that of one of them. -/
theorem exists_piece_of_label (unlabelled : ∀ piece ∈ pieces, Unlabelled piece.2)
    (isLabel : (assembled pieces)[counter]? = some (.label name)) :
    ∃ before body after, pieces = before ++ (name, body) :: after ∧
      counter = (assembled before).length := by
  induction pieces generalizing counter with
  | nil => cases isLabel
  | cons piece rest inductionHypothesis =>
    obtain ⟨label, body⟩ := piece
    obtain ⟨bare, others⟩ := List.forall_mem_cons.mp unlabelled
    rw [assembled_cons] at isLabel
    cases counter with
    | zero =>
      cases isLabel
      exact ⟨[], body, rest, rfl, rfl⟩
    | succ counter =>
      rw [List.getElem?_cons_succ] at isLabel
      have beyond : body.length ≤ counter := by
        by_contra inside
        rw [List.getElem?_append_left (Nat.lt_of_not_le inside)] at isLabel
        cases bare _ (List.mem_of_getElem? isLabel)
      rw [List.getElem?_append_right beyond] at isLabel
      obtain ⟨before, found, after, rfl, isCounter⟩ := inductionHypothesis others isLabel
      refine ⟨(label, body) :: before, found, after, rfl, ?_⟩
      rw [assembled_cons, List.length_cons, List.length_append, ← isCounter,
        Nat.add_sub_cancel' beyond]

theorem assembled_split (before : List (String × Code)) (name : String) (body : Code)
    (after : List (String × Code)) :
    assembled (before ++ (name, body) :: after) =
      assembled before ++ .label name :: body ++ assembled after := by
  rw [assembled, List.flatMap_append, List.flatMap_cons, List.append_assoc]
  rfl

end Code

namespace Flow

open Code (pushInt)
open Machine (Stands)

variable {cells : Nat}

/-! ### The frames that code opens -/

/-- Every frame that is opened in some code is closed behind a body that is fit for it. -/
def Tended (fit : Nat → Code → Prop) (code : Code) : Prop :=
  ∀ counter, code[counter]? = some (.op .oframe) → ∃ (start cells : Nat) (body : Code),
    counter = start + 1 ∧
    Stands code start ([pushInt cells, .op .oframe] ++ body ++ [.op .cframe]) ∧ fit cells body

namespace Tended

variable {fit : Nat → Code → Prop} {code first second test : Code}

theorem of_ne (none : ∀ instruction ∈ code, instruction ≠ .op .oframe) : Tended fit code :=
  fun _ found => absurd rfl (none _ (List.mem_of_getElem? found))

theorem append (earlier : Tended fit first) (later : Tended fit second) :
    Tended fit (first ++ second) := by
  intro counter found
  by_cases inFirst : counter < first.length
  · rw [List.getElem?_append_left inFirst] at found
    obtain ⟨start, cells, body, rfl, stands, isFit⟩ := earlier counter found
    have whole : Stands (first ++ second) 0 first := ⟨[], second, rfl, rfl⟩
    have inside := whole.within stands
    rw [Nat.zero_add] at inside
    exact ⟨start, cells, body, rfl, inside, isFit⟩
  · rw [Nat.not_lt] at inFirst
    rw [List.getElem?_append_right inFirst] at found
    obtain ⟨start, cells, body, isCounter, stands, isFit⟩ := later _ found
    have whole : Stands (first ++ second) first.length second :=
      ⟨first, [], (List.append_nil _).symm, rfl⟩
    exact ⟨first.length + start, cells, body, by omega, whole.within stands, isFit⟩

theorem framed (isFit : fit cells code) (inside : Tended fit code) :
    Tended fit ([pushInt cells, .op .oframe] ++ code ++ [.op .cframe]) := by
  intro counter found
  match counter with
  | 0 => cases found
  | 1 => exact ⟨0, cells, code, rfl, ⟨[], [], (List.append_nil _).symm, rfl⟩, isFit⟩
  | counter + 2 =>
    have closed : Tended fit (code ++ [.op .cframe]) :=
      inside.append (of_ne (List.forall_mem_singleton.mpr (by rintro ⟨⟩)))
    obtain ⟨start, size, body, rfl, stands, isFit⟩ := closed counter found
    have whole : Stands ([pushInt cells, .op .oframe] ++ code ++ [.op .cframe]) 2
        (code ++ [.op .cframe]) := ⟨[pushInt cells, .op .oframe], [], by simp, rfl⟩
    exact ⟨2 + start, size, body, by omega, whole.within stands, isFit⟩

theorem spreads : Code.Spreads (Tended fit) where
  append := append
  ordinary ordinary := of_ne fun instruction member isOpening => by
    have here := List.all_eq_true.mp ordinary instruction member
    rw [isOpening] at here
    cases here

end Tended

/-! ### Frames of scopes and of copies -/

/-- The inside of a frame reads what has been stored. The frame is that of one of these scopes, or
it holds the copy of an array and nothing else. -/
inductive Kept (tree : ScopeTree) (scopes : List ScopeId) : Nat → Code → Prop where
  | scope {scope : ScopeId} {cells : Nat} {body : Code} {vars : Vars} (member : scope ∈ scopes)
      (sized : (tree.varsOf scope).cells = cells)
      (secures : Secures false (locatedIn tree.varsOf scope) (Supplied false 0 []) body
        (Supplied false 0 vars)) :
      Kept tree scopes cells body
  | copy {size : Nat} {body : Code} {vars : Vars}
      (secures : Secures false (fun index width => index = 0 ∧ width = size)
        (Supplied false 0 []) body (Supplied false 0 vars)) :
      Kept tree scopes size body

section Frames

variable {tree : ScopeTree} {scopes : List ScopeId} {functions : Functions}
  {located : Nat → Nat → Prop} {context : Context} {body : List Stmt} {vars : Vars} {code : Code}

/-- An array is stored as a whole in the frame through which it is copied. -/
theorem readVariable_tended (place : ScopeTree.Resolved) :
    Tended (Kept tree scopes) (Lexical.readVariable place) := by
  obtain ⟨slot, type⟩ := place
  cases type with
  | base scalar => exact .of_ne (List.forall_mem_singleton.mpr (by rintro ⟨⟩))
  | array size element =>
    let located (index width : Nat) : Prop := index = 0 ∧ width = size
    have loads : Maintains false located 0 []
        [pushInt size, .pushBlock { slot with level := slot.level + 1 }] :=
      .readBlock (by rintro ⟨⟩)
    have stores : Secures false located (Supplied false 0 [])
        [pushInt size, pushInt 0, pushInt 0, .op .sta]
        (Supplied false 0 [("", .array size element)]) :=
      store_secures [] "" (.array size element)
    have copies : Maintains false located 0 [("", .array size element)]
        [pushInt size, .pushBlock { index := 0, level := 0 }] :=
      .readBlock fun _ _ supplied =>
        ⟨⟨rfl, rfl⟩, supplied.provided "" 0 (.array size element) rfl⟩
    have kept := @Kept.copy tree scopes _ _ _ ((loads.append stores).append copies)
    exact Tended.framed kept (.of_ne (by simp [pushInt]))

theorem composes_tended (context : Context) :
    Lexical.Composes functions context (Tended (Kept tree scopes)) := by
  refine Lexical.composes_of_spreads Tended.spreads (fun _ => readVariable_tended _) fun function =>
    ?_
  rw [Lexical.call]
  cases functions function with
  | none => exact .of_ne (List.forall_mem_nil _)
  | some signature => exact .of_ne (by simp [pushInt])

/-- The variables of a scope begin where the scope has variables. -/
theorem locates_of_written (declares : tree.varsOf scope = vars)
    (written : ∀ entry ∈ vars, entry.2.Written) : Locates (locatedIn tree.varsOf scope) vars := by
  intro name index type isPlace
  obtain ⟨entry, isEntry, rfl⟩ := Vars.mem_of_place? isPlace
  exact ⟨name, entry.2, declares.symm ▸ isPlace, (written entry isEntry).words_eq⟩

/-- Statements read what has been stored in the frame of their scope. -/
theorem statements_kept (member : scope ∈ scopes) (declares : tree.varsOf scope = declaredBy body)
    (types : allTypes Ty.Written body) (plain : allPlain body) :
    Kept tree scopes (declaredBy body).cells
      (Lexical.statements functions { scope, vars := [] } context body) := by
  have entered : Tracks ({ scope, vars := [] } :: context) 0 [] := rfl
  have locates := locates_of_written declares (written_of_allTypes types)
  exact .scope member (congrArg Vars.cells declares) (statements_secures entered locates plain)

/-- A loop reads what has been stored in its frame. -/
theorem loop_kept {init : Option Declaration} (member : scope ∈ scopes)
    (declares : tree.varsOf scope = initVars init ++ declaredBy body)
    (written : ∀ entry ∈ initVars init ++ declaredBy body, entry.2.Written) (plain : allPlain body)
    (condition : Expr) (update : Option Assignment) :
    Kept tree scopes (initVars init ++ declaredBy body).cells
      (Lexical.loopInit functions { scope, vars := [] } context init ++
        Code.repeatWhile
          (Lexical.expression functions ({ scope, vars := initVars init } :: context) condition)
          (Lexical.statements functions { scope, vars := initVars init } context body ++
            Lexical.loopUpdate functions
              ({ scope, vars := initVars init ++ declaredBy body } :: context) update)) := by
  have entered : Tracks ({ scope, vars := [] } :: context) 0 [] := rfl
  have locates := locates_of_written declares written
  exact .scope member (congrArg Vars.cells declares) (loop_secures entered locates
    (statements_secures (entered.declare (initVars init)) locates plain) condition update)

mutual

/-- All frames that a statement opens are those of its scopes, or they hold copies of arrays. -/
theorem statement_tended {around : ScopeId} {layer : Layer} {outer : Context} {statement : Stmt}
    (laidOut : statement.LaidOut tree around) (plain : statement.Plain)
    (types : statement.AllTypes Ty.Written) (among : statement.scopes ⊆ scopes) :
    Tended (Kept tree scopes) (Lexical.statement functions layer outer statement) := by
  have composes (context : Context) :
      Lexical.Composes functions context (Tended (Kept tree scopes)) := composes_tended context
  match statement with
  | .declaration _ made =>
    exact ((composes _).expression made.value).append (Tended.spreads.store _ _)
  | .assignment _ made => exact (composes _).assignment made
  | .action _ done => exact (composes _).action done
  | .returnValue _ value => exact Tended.spreads.leave ((composes _).expression value) _
  | .block _ body =>
    rw [Lexical.statement]
    exact block_tended laidOut plain types among
  | .conditional _ condition first none =>
    rw [Lexical.statement]
    exact Tended.spreads.ifThen ((composes _).expression condition)
      (block_tended laidOut plain types among)
  | .conditional _ condition first (some second) =>
    obtain ⟨amongFirst, amongSecond⟩ := List.append_subset.mp among
    rw [Lexical.statement]
    exact Tended.spreads.ifThenElse ((composes _).expression condition)
      (block_tended laidOut.1 plain.1 types.1 amongFirst)
      (block_tended laidOut.2 plain.2 types.2 amongSecond)
  | .whileLoop _ condition body =>
    rw [Lexical.statement]
    exact Tended.spreads.repeatWhile ((composes _).expression condition)
      (block_tended laidOut plain types among)
  | .forLoop _ init condition update (.mk _ scope body) =>
    obtain ⟨opened, rfl, opens, inside⟩ := laidOut
    obtain ⟨member, amongBody⟩ := List.cons_subset.mp among
    have declares := opens.varsOf_eq
    have written : ∀ entry ∈ initVars init ++ declaredBy body, entry.2.Written := by
      refine List.forall_mem_append.mpr ⟨?_, written_of_allTypes types.2⟩
      cases init with
      | none => exact List.forall_mem_nil _
      | some made => exact List.forall_mem_singleton.mpr (types.1 made rfl)
    have starts := (composes ({ scope := opened, vars := [] } :: layer :: outer)).loopInit
      Tended.spreads.store init
    have framed := Tended.framed (loop_kept member declares written plain condition update)
      (starts.append (Tended.spreads.repeatWhile ((composes _).expression condition)
        ((statements_tended inside plain types.2 amongBody).append
          ((composes _).loopUpdate update))))
    rw [Lexical.statement]
    rw [← List.append_assoc] at framed
    exact framed

theorem block_tended {around : ScopeId} {kind : ScopeKind} {context : Context} {block : Block}
    (laidOut : block.LaidOut tree around kind) (plain : block.Plain)
    (types : block.AllTypes Ty.Written) (among : block.scopes ⊆ scopes) :
    Tended (Kept tree scopes) (Lexical.block functions context block) := by
  match block with
  | .mk _ scope body =>
    obtain ⟨opened, rfl, opens, inside⟩ := laidOut
    obtain ⟨member, amongBody⟩ := List.cons_subset.mp among
    rw [Lexical.block]
    exact .framed (statements_kept member opens.varsOf_eq types plain)
      (statements_tended inside plain types amongBody)

theorem statements_tended {around : ScopeId} {layer : Layer} {outer : Context}
    {statements : List Stmt} (laidOut : allLaidOut tree around statements)
    (plain : allPlain statements) (types : allTypes Ty.Written statements)
    (among : scopesOf statements ⊆ scopes) :
    Tended (Kept tree scopes) (Lexical.statements functions layer outer statements) := by
  match statements with
  | [] => exact .of_ne (List.forall_mem_nil _)
  | first :: rest =>
    obtain ⟨amongFirst, amongRest⟩ := List.append_subset.mp among
    rw [Lexical.statements]
    exact (statement_tended laidOut.1 plain.1 types.1 amongFirst).append
      (statements_tended laidOut.2 plain.2 types.2 amongRest)

end

/-! ### Programs -/

theorem assembled_tended {fit : Nat → Code → Prop} (each : ∀ piece ∈ pieces, Tended fit piece.2) :
    Tended fit (Code.assembled pieces) := by
  induction pieces with
  | nil => exact .of_ne (List.forall_mem_nil _)
  | cons piece rest inductionHypothesis =>
    obtain ⟨first, others⟩ := List.forall_mem_cons.mp each
    have label : Tended fit [.label piece.1] := .of_ne (by simp)
    exact (label.append first).append (inductionHypothesis others)

/-- All frames of a program are those of its scopes, or they hold copies of arrays. -/
theorem program_tended (ready : Ready tree statements) :
    Tended (Kept tree (ScopeTree.global :: scopesOf statements))
      (Lexical.program functions statements) := by
  have consistent := ready.consistent
  rw [Lexical.program_eq_assembled]
  refine assembled_tended (List.forall_mem_append.mpr
    ⟨fun piece member => ?_, List.forall_mem_singleton.mpr ?_⟩)
  · obtain ⟨statement, isStatement, isPiece⟩ := List.mem_filterMap.mp member
    have types := allTypes_iff.mp ready.types statement isStatement
    cases statement with
    | function span header body =>
      cases isPiece
      obtain ⟨opened, _, _, inside⟩ := consistent.laidOut.of_mem isStatement
      refine block_tended inside (ready.flat _ isStatement) types.2 fun id isScope => ?_
      exact List.mem_cons_of_mem _ (mem_scopesOf.mpr ⟨_, isStatement,
        List.mem_append_right _ isScope⟩)
    | _ => cases isPiece
  · have among {holds : Stmt → Prop} (all : ∀ statement ∈ statements, holds statement) :
        ∀ statement ∈ statements.filter fun statement => !statement.isFunction, holds statement :=
      fun statement member => all statement (List.mem_of_mem_filter member)
    have types := allTypes_iff.mpr (among (allTypes_iff.mp ready.types))
    have laidOut := allLaidOut_iff.mpr (among (allLaidOut_iff.mp consistent.laidOut))
    have plain := allPlain_filter_not_isFunction ready.flat
    obtain ⟨row, found, localsOf⟩ := consistent.globals
    have declares := ScopeTree.varsOf_eq found localsOf
    rw [← declaredBy_filter_not_isFunction] at declares
    have inner : scopesOf (statements.filter fun statement => !statement.isFunction) ⊆
        ScopeTree.global :: scopesOf statements := by
      intro id isScope
      obtain ⟨statement, isStatement, isInner⟩ := mem_scopesOf.mp isScope
      exact List.mem_cons_of_mem _
        (mem_scopesOf.mpr ⟨statement, List.mem_of_mem_filter isStatement, isInner⟩)
    show Tended _ (Lexical.openFrame (declaredBy statements) ++ _ ++ ([.op .cframe] ++ [.op .halt]))
    rw [← List.append_assoc, ← declaredBy_filter_not_isFunction]
    exact (Tended.framed (statements_kept List.mem_cons_self declares types plain)
      (statements_tended laidOut plain types inner)).append (.of_ne (by simp))

/-- Inside a frame that is opened, what is read has been stored in it. -/
theorem readsProvided_of_framed {body : Code}
    (stands : Stands code start ([pushInt cells, .op .oframe] ++ body ++ [.op .cframe]))
    (secures : Secures false located (Supplied false 0 []) body (Supplied false 0 vars)) :
    ReadsProvided false located code (start + 2) := by
  have closing := stands.right.head
  rw [List.length_append, ← Nat.add_assoc] at closing
  refine secures.readsProvided stands.left.right ⟨rfl, by rintro _ _ _ ⟨⟩⟩ ?_
  intro path instruction _ supplied found
  cases found.symm.trans closing
  exact ⟨rfl, levelAfter?_eq supplied.level_eq _⟩

theorem ReadsProvided.mono {passed : Bool} {other : Nat → Nat → Prop}
    (provided : ReadsProvided passed located code start)
    (still : ∀ index width, located index width → other index width) :
    ReadsProvided passed other code start := by
  intro path counter instruction way found
  have reading := provided path counter instruction way found
  cases instruction with
  | pushSlot slot => exact fun isLevel => (reading isLevel).imp (still _ _) id
  | pushBlock slot =>
    intro isLevel
    obtain ⟨width, pushed, isLocated, isProvided⟩ := reading isLevel
    exact ⟨width, pushed, still _ _ isLocated, isProvided⟩
  | pushIndexed slot =>
    intro isLevel
    obtain ⟨width, isLocated, isProvided⟩ := reading isLevel
    exact ⟨width, still _ _ isLocated, isProvided⟩
  | _ => trivial

/-- A label of a program other than that of its entry point is that of a function, and there is
another label behind the code of the function. -/
theorem exists_function_of_label (flat : ∀ statement ∈ statements, statement.Flat)
    (isLabel : (Lexical.program functions statements)[counter]? = some (.label name))
    (notMain : name ≠ "main") :
    ∃ span header body, .function span header body ∈ statements ∧ header.name.value = name ∧
      let code := Lexical.block functions
        [{ scope := header.scope.getD ScopeTree.global, vars := parameterVars header.parameters }]
        body
      Stands (Lexical.program functions statements) counter (.label name :: code) ∧
      ∃ next, (Lexical.program functions statements)[counter + 1 + code.length]? =
        some (.label next) := by
  rw [Lexical.program_eq_assembled] at isLabel ⊢
  obtain ⟨before, code, after, split, rfl⟩ :=
    Code.exists_piece_of_label (Lexical.unlabelled_pieces flat) isLabel
  have isPiece : (name, code) ∈ Lexical.pieces functions statements := by
    rw [split]
    exact List.mem_append_right _ List.mem_cons_self
  have isFunction : (name, code) ∈ statements.filterMap (Lexical.piece? functions) := by
    rcases List.mem_append.mp isPiece with isFunction | isEntry
    · exact isFunction
    · cases List.mem_singleton.mp isEntry
      exact absurd rfl notMain
  obtain ⟨statement, isStatement, isCode⟩ := List.mem_filterMap.mp isFunction
  cases statement with
  | function span header body =>
    cases isCode
    refine ⟨span, header, body, isStatement, rfl, ?_⟩
    rw [split, Code.assembled_split]
    refine ⟨⟨_, _, rfl, rfl⟩, ?_⟩
    cases after with
    | nil =>
      obtain ⟨_, isLast⟩ := List.append_inj' split rfl
      exact absurd (congrArg Prod.fst (List.singleton_inj.mp isLast)).symm notMain
    | cons piece rest =>
      have position (ahead code : Code) (label : Instruction) :
          ahead.length + 1 + code.length = (ahead ++ label :: code).length := by
        rw [List.length_append, List.length_cons]
        omega
      refine ⟨piece.1, ?_⟩
      rw [position _ _ (.label header.name.value), List.getElem?_append_right (Nat.le_refl _),
        Nat.sub_self, Code.assembled_cons]
      rfl
  | _ => cases isCode

/-- What is read from the frame of the parameters of a function is a parameter. -/
theorem parameters_provided {parts : List Section} {main : Section} (ready : Ready tree statements)
    (assembled : Assembled tree statements parts main)
    (code : codeOf (linesOf (parts ++ [main])) = Lexical.program functions statements)
    (isLabel : (Lexical.program functions statements)[counter]? = some (.label name))
    (notMain : name ≠ "main") :
    ∃ header opened, header ∈ statements.filterMap Stmt.header? ∧ header.name.value = name ∧
      opened ∈ scopesOf statements ∧
      tree.Opens opened ScopeTree.global .function (some name) (parameterVars header.parameters) ∧
      ReadsProvided true (locatedIn tree.varsOf opened) (Lexical.program functions statements)
        counter := by
  obtain ⟨span, header, body, isStatement, rfl, stands, next, isNext⟩ :=
    exists_function_of_label ready.flat isLabel notMain
  obtain ⟨opened, isOpened, opens, _⟩ := ready.consistent.laidOut.of_mem isStatement
  rw [isOpened, Option.getD_some] at stands isNext
  have types := allTypes_iff.mp ready.types _ isStatement
  have written : ∀ entry ∈ parameterVars header.parameters, entry.2.Written := by
    rw [parameterVars, List.forall_mem_map]
    exact types.1
  have isScope : opened ∈ scopesOf statements := by
    refine mem_scopesOf.mpr ⟨_, isStatement, List.mem_append_left _ ?_⟩
    exact Option.mem_toList.mpr isOpened
  refine ⟨header, opened, List.mem_filterMap.mpr ⟨_, isStatement, rfl⟩, rfl, isScope, opens, ?_⟩
  let params := parameterVars header.parameters
  have tracks : Tracks [{ scope := opened, vars := params }] 0 params := rfl
  have inside : Maintains true (locatedIn tree.varsOf opened) 0 params
      (Lexical.block functions [{ scope := opened, vars := params }] body) :=
    block_maintains tracks (locates_of_written opens.varsOf_eq written) (ready.flat _ isStatement)
  have label : Maintains true (locatedIn tree.varsOf opened) 0 params
      [.label header.name.value] :=
    .instruction rfl (fun _ _ => trivial) fun _ _ supplied => supplied.append rfl
  refine (label.append inside).readsProvided stands ⟨rfl, fun _ _ _ _ => .inl rfl⟩ ?_
  -- control never comes to the label behind the function
  intro path instruction way _ _
  rw [← code] at way isLabel isNext
  obtain ⟨part, occupies, _⟩ := assembled.arranged.exists_occupies_of_label isLabel
  obtain ⟨_, before⟩ := (assembled.arranged.confined occupies).stays _ way.reaches
  rw [List.length_append, List.length_singleton, ← Nat.add_assoc] at before
  have behind : counter < counter + 1 + (Lexical.block functions
      [{ scope := opened, vars := params }] body).length := by omega
  exact absurd isNext ((assembled.arranged.segment occupies).inside _ next behind before)

end Frames

/-! ### Compiled programs -/

/-- An instruction opens a frame whose size is pushed in front of it. It is the frame of a scope
that is left in the tree, and the variables of the scope tile it, or it holds the copy of an array
and nothing else. On all ways from there, a variable that is read from the frame has been stored
in it as a whole. -/
def OpensForStored (tree stored : ScopeTree) (code : Code) (counter : Nat) : Prop :=
  ∃ cells : Nat, [pushInt cells] <:+ code.take counter ∧
    ((∃ scope found, tree.Survives scope ∧ stored.get? scope = some found ∧ found.Tiles cells ∧
        ReadsProvided false (stored.Stores scope) code (counter + 1)) ∨
      ReadsProvided false (fun index width => index = 0 ∧ width = cells) code (counter + 1))

/-- At a label the frame of the parameters of a function is open, and the parameters tile it. What
is read from it on any way from there is a parameter, and every call of the function passes just
the words of this frame. -/
def OpenForPassed (tree stored : ScopeTree) (code : Code) (counter : Nat) (name : String) : Prop :=
  ∃ scope found cells, tree.Survives scope ∧ tree.isFunction scope = true ∧
    tree.nameOf? scope = some name ∧ stored.get? scope = some found ∧ found.Tiles cells ∧
    ReadsProvided true (stored.Stores scope) code counter ∧
    ∀ other, code[other]? = some (.op .call) → [.push (.label name)] <:+ code.take other →
      [pushInt cells, .push (.label name)] <:+ code.take other

end Flow

open PadLang.Flow

/-- In compiled code no variable is read before it has its words. On all ways through the code,
both outcomes of each branch included, a variable of a frame that was opened has been stored as a
whole since then, in that frame. In the frame of its parameters a function reads the words that
its caller has passed. -/
theorem variables_stored_before_read {tokens : List Token} {program : Program} {product : Product}
    (read : Build.parse tokens = .ok program) (lowered : Build.lower program = .ok product) :
    ∃ analysis emitted,
      Analysis.analyze program = .ok (.ok analysis) ∧
      Code.furnish analysis.program analysis.tree = .ok emitted ∧
      emitted.code = product.code ∧
      (∀ counter, product.code[counter]? = some (.op .oframe) →
        OpensForStored analysis.tree emitted.tree product.code counter) ∧
      ∀ counter name, product.code[counter]? = some (.label name) → name ≠ "main" →
        OpenForPassed analysis.tree emitted.tree product.code counter name := by
  obtain ⟨analysis, parts, main, analyzed, generated, ready, assembled, code⟩ :=
    Build.exists_assembled read lowered
  have isProgram := (Code.generate_meets ready.consistent).good_of_ok generated
  rw [Code.generate_eq, ← bind_pure_comp, bind_eq_ok_iff] at generated
  obtain ⟨emitted, furnished, isCode⟩ := generated
  obtain ⟨_, vars, formed, filled⟩ :=
    (Code.furnish_meets ready.consistent).good_of_ok furnished
  have nested := Analysis.nested_of_accepted analyzed
  have survives : ∀ scope ∈ ScopeTree.global :: scopesOf analysis.program.statements,
      analysis.tree.Survives scope := fun _ => (ready.consistent.survives_iff nested).mpr
  have owned : ∀ scope ∈ ScopeTree.global :: scopesOf analysis.program.statements,
      ∃ stored, emitted.tree.get? scope = some stored ∧
        stored.Tiles (analysis.tree.varsOf scope).cells ∧
        ∀ index width, locatedIn analysis.tree.varsOf scope index width →
          emitted.tree.Stores scope index width := by
    intro scope member
    obtain ⟨stored, isStored, tiles⟩ := (filled scope member).exists_tiles formed.tidy
    rw [vars] at tiles
    refine ⟨stored, isStored, tiles, fun index width located => ?_⟩
    rw [← vars] at located
    exact (filled scope member).stores formed.tidy located
  refine ⟨analysis, emitted, analyzed, furnished, Except.ok.inj isCode, ?_, ?_⟩
  · intro counter opens
    rw [isProgram] at opens ⊢
    obtain ⟨start, cells, body, rfl, stands, kept⟩ := program_tended ready counter opens
    refine ⟨cells, stands.left.left.suffix_take, ?_⟩
    cases kept with
    | @scope scope _ _ _ member sized secures =>
      obtain ⟨stored, isStored, tiles, still⟩ := owned scope member
      exact .inl ⟨scope, stored, survives scope member, isStored, sized ▸ tiles,
        (readsProvided_of_framed stands secures).mono still⟩
    | copy secures => exact .inr (readsProvided_of_framed stands secures)
  · intro counter name isLabel notMain
    have isCode := isProgram.symm.trans code
    rw [isProgram] at isLabel
    obtain ⟨header, opened, isDefined, rfl, isScope, opens, provided⟩ :=
      parameters_provided ready assembled isCode.symm isLabel notMain
    have member := List.mem_cons_of_mem ScopeTree.global isScope
    obtain ⟨stored, isStored, tiles, still⟩ := owned opened member
    refine ⟨opened, stored, _, survives opened member, opens.isFunction_eq, opens.nameOf?_eq,
      isStored, tiles, isProgram ▸ provided.mono still, fun other isCall named => ?_⟩
    rw [code] at isCall named ⊢
    rw [opens.varsOf_eq]
    exact assembled.arguments_of_call ready isDefined isCall named

theorem variables_stored_before_read_searching :
    ∃ program product analysis emitted, Build.parse searchingTokens = .ok program ∧
      Build.lower program = .ok product ∧ Analysis.analyze program = .ok (.ok analysis) ∧
      Code.furnish analysis.program analysis.tree = .ok emitted ∧
      product.code[0]? = some (.label "f") ∧
      OpenForPassed analysis.tree emitted.tree product.code 0 "f" ∧
      product.code[4]? = some (.op .oframe) ∧
      OpensForStored analysis.tree emitted.tree product.code 4 := by
  have seen : ((Build.parse searchingTokens >>= Build.lower).toOption.map
      fun product => (product.code[0]?, product.code[4]?)) =
        some (some (.label "f"), some (.op .oframe)) := by decide +kernel
  obtain ⟨program, product, read, lowered, there⟩ := Build.exists_of_view seen
  obtain ⟨isLabel, opens⟩ := Prod.mk.inj there
  obtain ⟨analysis, emitted, analyzed, furnished, _, opened, called⟩ :=
    variables_stored_before_read read lowered
  exact ⟨program, product, analysis, emitted, read, lowered, analyzed, furnished, isLabel,
    called 0 "f" isLabel (by decide), opens, opened 4 opens⟩

end PadLang
