/-
This file shows that variables have cells of their own and that code keeps to the open frames.

The variables of a scope tile the frame of the scope: each one has its cells, no two share one, and
together they take all cells of the frame. The frame of the parameters of a function has the cells
that its callers push for the arguments, and any other frame is opened with its size in front of
it. Every reference to memory names a frame that is open where it stands and stays inside it.
-/

import PadLang.Proofs.Code.Generation
import PadLang.Proofs.Flow.Frames
import PadLang.Proofs.Nesting

namespace PadLang

variable {header : Header} {around : ScopeId} {index : Nat}

/-! ### Cells of variables -/

/-- A cell is one of those that a variable has in the frame of its scope. -/
def Variable.Takes (info : Variable) (cell : Nat) : Prop :=
  ∃ index width, info.storage = some index ∧ info.type.slots = .ok width ∧
    index ≤ cell ∧ cell < index + width

/-- The variables of a scope have storage within so many cells, no two of them share a cell, and
there is no other cell. -/
structure Scope.Tiles (scope : Scope) (cells : Nat) : Prop where
  stored : ∀ entry ∈ scope.locals, ∃ index width, entry.2.storage = some index ∧
    entry.2.type.slots = .ok width ∧ index + width ≤ cells
  disjoint : scope.locals.Pairwise fun first second =>
    ∀ cell, first.2.Takes cell → ¬second.2.Takes cell
  covers : ∀ cell, cell < cells ↔ ∃ entry ∈ scope.locals, entry.2.Takes cell

section Tiling

variable {vars : Vars}

theorem Variable.takes_iff {type : Ty} {cell : Nat} (sized : type.Sized) :
    ({ type, storage := some index } : Variable).Takes cell ↔
      index ≤ cell ∧ cell < index + type.size := by
  constructor
  · rintro ⟨_, width, ⟨rfl⟩, counted, least, most⟩
    rw [Ty.size_eq_of_slots counted] at most
    exact ⟨least, most⟩
  · rintro ⟨least, most⟩
    exact ⟨index, type.size, rfl, sized, least, most⟩

/-- Variables that are placed one after the other take the cells from the first on. -/
theorem exists_takes_placed (offset : Nat) (sized : ∀ entry ∈ vars, entry.2.Sized) (cell : Nat) :
    (∃ entry ∈ placed offset vars, entry.2.Takes cell) ↔
      offset ≤ cell ∧ cell < offset + vars.cells := by
  fun_induction placed offset vars with
  | case1 offset =>
    simp only [List.not_mem_nil, false_and, exists_false, Vars.cells_nil, false_iff]
    omega
  | case2 offset entry rest inductionHypothesis =>
    obtain ⟨sizedFirst, sizedRest⟩ := List.forall_mem_cons.mp sized
    rw [List.exists_mem_cons_iff, inductionHypothesis sizedRest, Variable.takes_iff sizedFirst,
      Vars.cells_cons]
    omega

theorem stored_placed (offset : Nat) (sized : ∀ entry ∈ vars, entry.2.Sized) :
    ∀ entry ∈ placed offset vars, ∃ index width, entry.2.storage = some index ∧
      entry.2.type.slots = .ok width ∧ index + width ≤ offset + vars.cells := by
  fun_induction placed offset vars with
  | case1 offset => exact List.forall_mem_nil _
  | case2 offset entry rest inductionHypothesis =>
    obtain ⟨sizedFirst, sizedRest⟩ := List.forall_mem_cons.mp sized
    rw [Vars.cells_cons, ← Nat.add_assoc]
    refine List.forall_mem_cons.mpr ⟨⟨offset, entry.2.size, rfl, sizedFirst, ?_⟩, ?_⟩
    · exact Nat.le_add_right _ _
    · exact inductionHypothesis sizedRest

theorem disjoint_placed (offset : Nat) (sized : ∀ entry ∈ vars, entry.2.Sized) :
    (placed offset vars).Pairwise fun first second =>
      ∀ cell, first.2.Takes cell → ¬second.2.Takes cell := by
  fun_induction placed offset vars with
  | case1 offset => exact .nil
  | case2 offset entry rest inductionHypothesis =>
    obtain ⟨sizedFirst, sizedRest⟩ := List.forall_mem_cons.mp sized
    refine .cons (fun later isLater cell takesFirst takesLater => ?_)
      (inductionHypothesis sizedRest)
    -- all later variables begin behind the first one
    obtain ⟨behind, _⟩ := (exists_takes_placed _ sizedRest cell).mp ⟨later, isLater, takesLater⟩
    obtain ⟨_, inside⟩ := (Variable.takes_iff sizedFirst).mp takesFirst
    exact Nat.lt_irrefl cell (Nat.lt_of_lt_of_le inside behind)

/-- The variables of a scope tile its frame when all of them have storage. -/
theorem Scope.Stocked.tiles {row : Scope} (stocked : row.Stocked vars []) (tidy : row.Tidy) :
    row.Tiles vars.cells := by
  have stored : row.locals = placed 0 vars := by
    rw [stocked.stored, unplaced, List.map_nil, List.append_nil]
  have sized : ∀ entry ∈ vars, entry.2.Sized := by
    have types := tidy.sized
    rw [stored] at types
    rw [← ScopeTree.map_placed 0 vars, List.forall_mem_map]
    exact types
  refine ⟨?_, ?_, fun cell => ?_⟩
  · rw [stored]
    simpa only [Nat.zero_add] using stored_placed 0 sized
  · rw [stored]
    exact disjoint_placed 0 sized
  · rw [stored, exists_takes_placed 0 sized, Nat.zero_add]
    exact (and_iff_right (Nat.zero_le cell)).symm

end Tiling

namespace ScopeTree

/-- A variable of a scope begins at a cell of its frame and has so many cells. -/
def Stores (tree : ScopeTree) (scope : ScopeId) (index width : Nat) : Prop :=
  ∃ name type, tree.variableIn? name scope = some { type, storage := some index } ∧
    type.slots = .ok width

variable {tree : ScopeTree} {scope : ScopeId}

/-- The name that a scope bears. -/
def nameOf? (tree : ScopeTree) (scope : ScopeId) : Option String :=
  (tree.get? scope).bind Scope.name

theorem Opens.nameOf?_eq {kind : ScopeKind} {name : Option String} {vars : Vars}
    (opens : tree.Opens scope around kind name vars) : tree.nameOf? scope = name := by
  obtain ⟨row, found, _, named, _⟩ := opens
  obtain ⟨declared, isDeclared, rfl⟩ := Option.map_eq_some_iff.mp found
  rw [nameOf?, isDeclared]
  exact named

theorem Filled.exists_tiles (filled : tree.Filled scope) (tidy : tree.Tidy) :
    ∃ stored, tree.get? scope = some stored ∧ stored.Tiles (tree.varsOf scope).cells := by
  obtain ⟨row, vars, found, stocked⟩ := filled
  have tiles := stocked.tiles (tidy found)
  rw [varsOf_eq_of_stocked found stocked, List.append_nil]
  obtain ⟨stored, isStored, rfl⟩ := Option.map_eq_some_iff.mp found
  exact ⟨stored, isStored, tiles.stored, tiles.disjoint, tiles.covers⟩

/-- Where the variables of a scope follow one another is where they are stored. -/
theorem Filled.stores (filled : tree.Filled scope) (tidy : tree.Tidy) {width : Nat}
    (located : Flow.locatedIn tree.varsOf scope index width) : tree.Stores scope index width := by
  obtain ⟨row, vars, found, stocked⟩ := filled
  obtain ⟨name, type, isPlace, rfl⟩ := located
  rw [varsOf_eq_of_stocked found stocked, List.append_nil] at isPlace
  have isVariable : row.locals.lookup name = some { type, storage := some index } := by
    rw [stocked.stored, unplaced, List.map_nil, List.append_nil, lookup_placed, isPlace]
    rfl
  refine ⟨name, type, ?_, ?_⟩
  · rw [variableIn?_eq, found, Option.bind_some,
      Scope.findVariable?_eq_lookup (tidy found).distinct, isVariable]
  · obtain ⟨before, after, split, _⟩ := List.lookup_eq_some_iff.mp isVariable
    have sized := (tidy found).sized
    rw [split] at sized
    exact sized (name, _) (List.mem_append_right before List.mem_cons_self)

end ScopeTree

/-! ### Kinds of scopes -/

section Kinds

variable {tree : ScopeTree}

mutual

/-- Where no function is defined no scope is that of a function. -/
theorem Stmt.LaidOut.isFunction_of_plain {around : ScopeId} {statement : Stmt}
    (laidOut : statement.LaidOut tree around) (plain : statement.Plain) :
    ∀ id ∈ statement.scopes, tree.isFunction id = false := by
  match statement with
  | .assignment _ _ | .declaration _ _ | .action _ _ | .returnValue _ _ => nofun
  | .block _ _ | .conditional _ _ _ none | .whileLoop _ _ _ =>
    exact Block.LaidOut.isFunction_of_plain laidOut nofun plain
  | .function _ _ _ => exact plain.elim
  | .conditional _ _ first (some second) =>
    exact List.forall_mem_append.mpr
      ⟨Block.LaidOut.isFunction_of_plain laidOut.1 nofun plain.1,
        Block.LaidOut.isFunction_of_plain laidOut.2 nofun plain.2⟩
  | .forLoop _ _ _ _ (.mk _ scope body) =>
    obtain ⟨opened, rfl, opens, inside⟩ := laidOut
    exact List.forall_mem_cons.mpr
      ⟨opens.isFunction_eq, allLaidOut.isFunction_of_plain inside plain⟩

theorem Block.LaidOut.isFunction_of_plain {around : ScopeId} {kind : ScopeKind}
    {block : Block} (laidOut : block.LaidOut tree around kind) (notFunction : kind ≠ .function)
    (plain : block.Plain) : ∀ id ∈ block.scopes, tree.isFunction id = false := by
  match block with
  | .mk _ scope body =>
    obtain ⟨opened, rfl, opens, inside⟩ := laidOut
    refine List.forall_mem_cons.mpr ⟨?_, allLaidOut.isFunction_of_plain inside plain⟩
    rw [opens.isFunction_eq]
    exact beq_false_of_ne notFunction

theorem allLaidOut.isFunction_of_plain {around : ScopeId} {statements : List Stmt}
    (laidOut : allLaidOut tree around statements) (plain : allPlain statements) :
    ∀ id ∈ scopesOf statements, tree.isFunction id = false := by
  match statements with
  | [] => nofun
  | first :: rest =>
    exact List.forall_mem_append.mpr
      ⟨Stmt.LaidOut.isFunction_of_plain laidOut.1 plain.1,
        allLaidOut.isFunction_of_plain laidOut.2 plain.2⟩

end

/-- The first scope of a function is that of its parameters, which stands in the scope around the
function, and no other is that of a function. -/
theorem Stmt.LaidOut.opens_of_header {opened : ScopeId} {others : List ScopeId} {statement : Stmt}
    (laidOut : statement.LaidOut tree around) (flat : statement.Flat)
    (isHeader : statement.header? = some header) (scopes : statement.scopes = opened :: others) :
    tree.Opens opened around .function (some header.name.value)
        (parameterVars header.parameters) ∧
      opened ∈ statement.outermost ∧ ∀ id ∈ others, tree.isFunction id = false := by
  cases statement with
  | function span header body =>
    cases isHeader
    obtain ⟨first, isFirst, opens, inside⟩ := laidOut
    rw [Stmt.scopes, isFirst] at scopes
    cases scopes
    exact ⟨opens, Option.mem_toList.mpr isFirst, inside.isFunction_of_plain nofun flat⟩
  | _ => cases isHeader

end Kinds

namespace Flow

open Code (pushInt)

/-! ### Frames of all scopes -/

theorem functionsOf_eq_of_mem {statements : List Stmt} (distinct : (functionNames statements).Nodup)
    (member : header ∈ statements.filterMap Stmt.header?) :
    functionsOf statements header.name.value = some (Typing.signatureOf header) := by
  rw [functionsOf, Option.map_eq_some_iff]
  refine ⟨header, ?_, rfl⟩
  rw [functionNames] at distinct
  obtain ⟨before, after, split⟩ := List.append_of_mem member
  rw [split, List.map_append, List.map_cons, List.nodup_append] at distinct
  refine List.find?_eq_some_iff_append.mpr
    ⟨beq_self_eq_true _, before, after, split, fun other isOther => ?_⟩
  have differs := distinct.2.2 other.name.value (List.mem_map_of_mem isOther) header.name.value
    List.mem_cons_self
  simpa using differs

/-- The arguments of a call take the cells of the parameters. -/
theorem cells_signatureOf (header : Header) :
    (Typing.signatureOf header).cells = (parameterVars header.parameters).cells := by
  rw [Signature.cells, Vars.cells, Typing.signatureOf, parameterVars, List.map_map, List.map_map]
  rfl

/-- The frames of a scope in code have so many cells. The frame of the parameters of a function is
open at its label, and whoever calls the function pushes the number of its cells. Any other frame
is opened behind the instruction that pushes the number. -/
structure Houses (tree : ScopeTree) (code : Code) (frames : Nat → List OpenFrame)
    (scope : ScopeId) (cells : Nat) : Prop where
  sized : ∀ counter, ∀ frame ∈ frames counter, frame.scope = some scope → frame.cells = cells
  opened : tree.isFunction scope = false → ∃ counter,
    code[counter]? = some (pushInt cells) ∧ code[counter + 1]? = some (.op .oframe) ∧
      frames (counter + 2) = { scope := some scope, cells } :: frames counter
  called : tree.isFunction scope = true → ∃ name, tree.nameOf? scope = some name ∧
      (∃ counter, code[counter]? = some (.label name) ∧
        frames counter = [{ scope := some scope, cells }]) ∧
      ∀ counter, code[counter]? = some (.op .call) →
        [.push (.label name)] <:+ code.take counter →
        [pushInt cells, .push (.label name)] <:+ code.take counter

section Programs

variable {tree : ScopeTree} {statements : List Stmt} {parts : List Section} {main part : Section}
  {scope : ScopeId} {vars : ScopeId → Vars} {instruction : Instruction} {counter : Nat}
  {frames : List OpenFrame} {functions : Functions} {located other : ScopeId → Nat → Nat → Prop}

/-- The frames that are open in a section are that of the caller and those that it opens. -/
theorem Section.LaidOut.belongs {scopes all : List ScopeId}
    (laidOut : part.LaidOut functions vars scopes)
    (caller : ∀ frame ∈ part.caller, frame.Belongs vars all)
    (among : part.frame.scope.toList ++ scopes ⊆ all) :
    ∀ line ∈ part.lines, ∀ frame ∈ line.place.frames, frame.Belongs vars all := by
  have entry : ∀ frame ∈ part.entry.frames, frame.Belongs vars all :=
    fun frame member => caller frame (Option.mem_toList.mp member)
  have atEntry (code : Code) : ∀ line ∈ part.entry.lines code, ∀ frame ∈ line.place.frames,
      frame.Belongs vars all :=
    fun line member => (place_of_mem_lines member) ▸ entry
  simp only [Section.lines, List.forall_mem_append]
  exact ⟨⟨atEntry _, laidOut.laid.belongs entry among⟩, atEntry _⟩

/-- Every section opens frames of scopes of the program. -/
theorem Assembled.belongs (assembled : Assembled tree statements parts main) (counter : Nat) :
    ∀ frame ∈ framesAt (linesOf (parts ++ [main])) counter,
      frame.Belongs tree.varsOf (ScopeTree.global :: scopesOf statements) := by
  have sections : ∀ part ∈ parts ++ [main], ∀ line ∈ part.lines, ∀ frame ∈ line.place.frames,
      frame.Belongs tree.varsOf (ScopeTree.global :: scopesOf statements) := by
    refine List.forall_mem_append.mpr ⟨fun part member => ?_, List.forall_mem_singleton.mpr ?_⟩
    · obtain ⟨statement, isStatement, header, opened, inner, others, _, scopes, implements⟩ :=
        assembled.exists_function member
      have among : opened :: inner :: others ⊆ ScopeTree.global :: scopesOf statements := by
        intro id isScope
        rw [← scopes] at isScope
        exact List.mem_cons_of_mem _ (mem_scopesOf.mpr ⟨statement, isStatement, isScope⟩)
      refine implements.laidOut.belongs ?_ ?_
      · rw [implements.caller]
        rintro _ ⟨rfl⟩ _ ⟨rfl⟩
        exact ⟨among List.mem_cons_self, rfl⟩
      · rw [implements.frame]
        exact fun id isInner => among (List.mem_cons_of_mem opened isInner)
    · refine assembled.laidOut.belongs ?_ ?_
      · rw [assembled.caller]
        nofun
      · rw [assembled.frame]
        refine List.cons_subset_cons _ fun id isScope => ?_
        obtain ⟨statement, isStatement, isScope⟩ := mem_scopesOf.mp isScope
        exact mem_scopesOf.mpr ⟨statement, List.mem_of_mem_filter isStatement, isScope⟩
  intro frame member
  rw [framesAt] at member
  cases found : (linesOf (parts ++ [main]))[counter]? with
  | none =>
    rw [found] at member
    cases member
  | some line =>
    rw [found] at member
    obtain ⟨part, isPart, isLine⟩ := List.mem_flatMap.mp (List.mem_of_getElem? found)
    exact sections part isPart line isLine frame member

section

variable (ready : Ready tree statements) (assembled : Assembled tree statements parts main)

include ready assembled

/-- A scope of the program is that of the parameters of a function, which has a section, or one of
the sections opens a frame for it. -/
theorem Assembled.scope_cases (member : scope ∈ ScopeTree.global :: scopesOf statements) :
    (tree.isFunction scope = false ∧ ∃ part ∈ parts ++ [main], ∃ scopes,
      part.LaidOut tree.lookupFunction? tree.varsOf scopes ∧
        scope ∈ part.frame.scope.toList ++ scopes) ∨
    ∃ part ∈ parts, ∃ header inner others, header ∈ statements.filterMap Stmt.header? ∧
      tree.Opens scope ScopeTree.global .function (some header.name.value)
        (parameterVars header.parameters) ∧
      Implements tree.lookupFunction? tree.varsOf header scope inner others part := by
  have isMain : main ∈ parts ++ [main] := List.mem_append_right _ List.mem_cons_self
  rcases List.mem_cons.mp member with rfl | isInner
  · obtain ⟨row, found, isGlobal, _⟩ := ready.consistent.sound.rooted.root
    refine .inl ⟨?_, main, isMain, _, assembled.laidOut, ?_⟩
    · rw [ScopeTree.isFunction_eq found, isGlobal]
      rfl
    · rw [assembled.frame]
      exact List.mem_cons_self
  obtain ⟨statement, isStatement, isScope⟩ := mem_scopesOf.mp isInner
  have laidOut := ready.consistent.laidOut.of_mem isStatement
  have flat := ready.flat statement isStatement
  by_cases isFunction : statement.isFunction = true
  · obtain ⟨part, isPart, header, opened, inner, others, isHeader, scopes, implements⟩ :=
      (exists_mem_of_forall₂ assembled.functions).1 statement
        (List.mem_filter.mpr ⟨isStatement, isFunction⟩)
    have isDefined : header ∈ statements.filterMap Stmt.header? :=
      List.mem_filterMap.mpr ⟨statement, isStatement, isHeader⟩
    obtain ⟨opens, _, plainBody⟩ := laidOut.opens_of_header flat isHeader scopes
    rw [scopes] at isScope
    rcases List.mem_cons.mp isScope with rfl | isLater
    · exact .inr ⟨part, isPart, header, inner, others, isDefined, opens, implements⟩
    · refine .inl ⟨plainBody scope isLater, part, List.mem_append_left _ isPart, others,
        implements.laidOut, ?_⟩
      rw [implements.frame]
      exact isLater
  · have notFunction : statement.isFunction = false := Bool.eq_false_iff.mpr isFunction
    refine .inl ⟨laidOut.isFunction_of_plain (flat.plain notFunction) scope isScope, main, isMain,
      _, assembled.laidOut, List.mem_append_right _ (mem_scopesOf.mpr ⟨statement, ?_, isScope⟩)⟩
    exact List.mem_filter.mpr ⟨isStatement, by rw [notFunction]; rfl⟩

/-- Whoever calls a function pushes the number of cells of its parameters in front of its name. -/
theorem Assembled.arguments_of_call (isDefined : header ∈ statements.filterMap Stmt.header?)
    (isCall : (codeOf (linesOf (parts ++ [main])))[counter]? = some (.op .call))
    (named : [.push (.label header.name.value)] <:+
      (codeOf (linesOf (parts ++ [main]))).take counter) :
    [pushInt (parameterVars header.parameters).cells, .push (.label header.name.value)] <:+
      (codeOf (linesOf (parts ++ [main]))).take counter := by
  obtain ⟨place, _, licensed⟩ := assembled.arranged.licensed isCall rfl nofun
  obtain ⟨function, signature, isSignature, arguments⟩ := licensed.transfers
  obtain rfl : header.name.value = function := by
    have last := List.suffix_of_suffix_length_le named arguments (by simp)
    simpa [List.suffix_cons_iff] using last
  rw [ready.functions, functionsOf_eq_of_mem ready.distinct isDefined] at isSignature
  cases isSignature
  rw [cells_signatureOf] at arguments
  exact arguments

/-- Every scope of the program has its frame in the code. -/
theorem Assembled.houses (member : scope ∈ ScopeTree.global :: scopesOf statements) :
    Houses tree (codeOf (linesOf (parts ++ [main]))) (framesAt (linesOf (parts ++ [main]))) scope
      (tree.varsOf scope).cells := by
  refine ⟨fun counter frame isFrame isScope =>
    (assembled.belongs counter frame isFrame scope isScope).2, fun notFunction => ?_,
    fun isFunction => ?_⟩
  · rcases assembled.scope_cases ready member with
      ⟨_, part, isPart, scopes, laidOut, isScope⟩ | ⟨_, _, _, _, _, _, opens, _⟩
    · obtain ⟨start, occupies⟩ := exists_occupies_of_mem isPart
      obtain ⟨counter, place, inner, pushes, opening, isInner, framed⟩ :=
        laidOut.laid.opens occupies.stands.left.right scope isScope
      refine ⟨counter, instruction_of_line pushes, instruction_of_line opening, ?_⟩
      rw [framesAt_eq isInner, framesAt_eq pushes, framed]
    · rw [opens.isFunction_eq] at notFunction
      cases notFunction
  · rcases assembled.scope_cases ready member with
      ⟨notFunction, _⟩ | ⟨part, isPart, header, inner, others, isDefined, opens, implements⟩
    · rw [notFunction] at isFunction
      cases isFunction
    · obtain ⟨start, occupies⟩ := exists_occupies_of_mem (List.mem_append_left [main] isPart)
      refine ⟨header.name.value, opens.nameOf?_eq, ⟨start, ?_, ?_⟩, ?_⟩
      · rw [(assembled.arranged.segment occupies).label, implements.name]
      · rw [occupies.framesAt_eq, implements.caller]
        rfl
      · intro counter isCall named
        rw [implements.parameters]
        exact assembled.arguments_of_call ready isDefined isCall named

/-- The frame that is open at the label of a function is that of its parameters. -/
theorem Assembled.exists_of_label {name : String}
    (children : tree.childrenOf ScopeTree.global = outermostOf statements)
    (isLabel : (codeOf (linesOf (parts ++ [main])))[counter]? = some (.label name))
    (notMain : name ≠ "main") :
    ∃ scope cells, tree.Survives scope ∧ tree.isFunction scope = true ∧
      tree.nameOf? scope = some name ∧
      framesAt (linesOf (parts ++ [main])) counter = [{ scope := some scope, cells }] := by
  obtain ⟨part, occupies, rfl⟩ := assembled.arranged.exists_occupies_of_label isLabel
  rcases occupies.append_singleton with ⟨isPart, _⟩ | ⟨rfl, _⟩
  · obtain ⟨statement, isStatement, header, opened, inner, others, isHeader, scopes, implements⟩ :=
      assembled.exists_function isPart
    obtain ⟨opens, isOutermost, _⟩ :=
      (ready.consistent.laidOut.of_mem isStatement).opens_of_header
        (ready.flat statement isStatement) isHeader scopes
    have isChild : opened ∈ tree.childrenOf ScopeTree.global := by
      rw [children]
      exact List.mem_flatMap.mpr ⟨statement, isStatement, isOutermost⟩
    refine ⟨opened, (tree.varsOf opened).cells, .of_mem_childrenOf .root isChild,
      opens.isFunction_eq, ?_, ?_⟩
    · rw [opens.nameOf?_eq, implements.name]
    · rw [occupies.framesAt_eq, implements.caller]
      rfl
  · exact absurd assembled.name notMain

end

/-! ### References to memory -/

theorem HoldsVariable.mono {slot : Slot} (holds : HoldsVariable located frames slot)
    (still : ∀ frame ∈ frames, ∀ scope ∈ frame.scope, ∀ index width,
      located scope index width → other scope index width) : HoldsVariable other frames slot := by
  obtain ⟨scope, cells, width, isFrame, isLocated, fits⟩ := holds
  exact ⟨scope, cells, width, isFrame,
    still _ (List.mem_of_getElem? isFrame) scope rfl _ _ isLocated, fits⟩

/-- It only matters where the variables of open frames begin. -/
theorem InBounds.mono {before : Code} (inBounds : InBounds located frames before instruction)
    (still : ∀ frame ∈ frames, ∀ scope ∈ frame.scope, ∀ index width,
      located scope index width → other scope index width) :
    InBounds other frames before instruction := by
  unfold InBounds at inBounds ⊢
  split
  · exact inBounds
  · exact inBounds
  · exact HoldsVariable.mono inBounds still
  · refine inBounds.imp id ?_
    rintro ⟨index, level, pushed, holds⟩
    exact ⟨index, level, pushed, holds.mono still⟩
  · exact inBounds
  · trivial

/-- Every reference to memory stays in the open frames. -/
theorem Arranged.inBounds (arranged : Arranged functions vars parts)
    (found : (codeOf (linesOf parts))[counter]? = some instruction) :
    InBounds (locatedIn vars) (framesAt (linesOf parts) counter)
      ((codeOf (linesOf parts)).take counter) instruction := by
  by_cases isHalt : instruction = .op .halt
  · rw [isHalt]
    trivial
  by_cases isLabel : instruction.isLabel = true
  · obtain ⟨name, isName⟩ := Instruction.isLabel_iff.mp isLabel
    rw [isName]
    trivial
  · obtain ⟨place, isLine, licensed⟩ :=
      arranged.licensed found (Bool.eq_false_iff.mpr isLabel) isHalt
    rw [framesAt_eq isLine]
    exact licensed.inBounds

end Programs

end Flow

open PadLang.Flow

/-- The storage of a compiled program. The frames that are open at each instruction are those that
the instructions before it open and close; at the label of a function it is the frame of its
parameters. The variables of each scope that is left in the tree tile the frame of the scope, and
every reference to memory stays inside an open frame. -/
theorem storage_within_frames {tokens : List Token} {program : Program} {product : Product}
    (read : Build.parse tokens = .ok program) (lowered : Build.lower program = .ok product) :
    ∃ analysis emitted frames,
      Analysis.analyze program = .ok (.ok analysis) ∧
      Code.furnish analysis.program analysis.tree = .ok emitted ∧
      emitted.code = product.code ∧
      Framing product.code frames ∧
      (∀ counter name, product.code[counter]? = some (.label name) → name ≠ "main" →
        ∃ scope cells, analysis.tree.Survives scope ∧ analysis.tree.isFunction scope = true ∧
          analysis.tree.nameOf? scope = some name ∧
          frames counter = [{ scope := some scope, cells }]) ∧
      (∀ scope, analysis.tree.Survives scope → ∃ stored cells,
        emitted.tree.get? scope = some stored ∧ stored.Tiles cells ∧
          Houses analysis.tree product.code frames scope cells) ∧
      ∀ counter instruction, product.code[counter]? = some instruction →
        InBounds emitted.tree.Stores (frames counter) (product.code.take counter) instruction := by
  obtain ⟨analysis, parts, main, analyzed, generated, ready, assembled, code⟩ :=
    Build.exists_assembled read lowered
  rw [Code.generate_eq, ← bind_pure_comp, bind_eq_ok_iff] at generated
  obtain ⟨emitted, furnished, isCode⟩ := generated
  have sameCode : emitted.code = product.code := Except.ok.inj isCode
  obtain ⟨_, vars, formed, filled⟩ :=
    (Code.furnish_meets ready.consistent).good_of_ok furnished
  have nested := Analysis.nested_of_accepted analyzed
  refine ⟨analysis, emitted, framesAt (linesOf (parts ++ [main])), analyzed, furnished, sameCode,
    ?_, ?_, ?_, ?_⟩
  · rw [code]
    exact assembled.framing ready
  · intro counter name isLabel notMain
    rw [code] at isLabel
    exact assembled.exists_of_label ready (nested.children_global) isLabel notMain
  · intro scope survives
    have member := (ready.consistent.survives_iff nested).mp survives
    obtain ⟨stored, isStored, tiles⟩ := (filled scope member).exists_tiles formed.tidy
    refine ⟨stored, _, isStored, tiles, ?_⟩
    rw [code, vars]
    exact assembled.houses ready member
  · intro counter instruction found
    rw [code] at found ⊢
    refine (assembled.arranged.inBounds found).mono ?_
    intro frame isFrame scope isScope _ _ located
    obtain ⟨member, _⟩ := assembled.belongs counter frame isFrame scope isScope
    rw [← vars] at located
    exact (filled scope member).stores formed.tidy located

theorem storage_within_frames_searching :
    ∃ program product analysis emitted frames, Build.parse searchingTokens = .ok program ∧
      Build.lower program = .ok product ∧ Analysis.analyze program = .ok (.ok analysis) ∧
      Code.furnish analysis.program analysis.tree = .ok emitted ∧
      Framing product.code frames ∧
      (∃ stored cells, emitted.tree.get? ScopeTree.global = some stored ∧ stored.Tiles cells ∧
        Houses analysis.tree product.code frames ScopeTree.global cells) ∧
      product.code[77]? = some (.pushBlock { index := 0, level := 2 }) ∧
      ∃ count : Nat, [Code.pushInt count] <:+ product.code.take 77 ∧
        Holds (frames 77) { index := 0, level := 2 } count := by
  have seen : (Build.parse searchingTokens >>= Build.lower).toOption.map (·.code[77]?) =
      some (some (.pushBlock { index := 0, level := 2 })) := by decide +kernel
  obtain ⟨program, product, read, lowered, copies⟩ := Build.exists_of_view seen
  obtain ⟨analysis, emitted, frames, analyzed, furnished, _, framing, _, housed, inBounds⟩ :=
    storage_within_frames read lowered
  exact ⟨program, product, analysis, emitted, frames, read, lowered, analyzed, furnished, framing,
    housed ScopeTree.global .root, copies, inBounds 77 _ copies⟩

end PadLang
