/-
This file divides the code of an accepted program into sections.

Each function has a section under its name. Its caller has opened the frame of its parameters, and
the section opens the frame of its body. The last section is that of the other statements, under
the label of the entry point, with nothing around it. So all that holds of control in sections
holds of the code of every program that is compiled.
-/

import PadLang.Proofs.Flow.Lexical
import PadLang.Proofs.Flow.Sections
import PadLang.Proofs.Survivors

namespace PadLang

namespace Flow

open Code (pushInt)

variable {statements : List Stmt} {tree : ScopeTree}

/-- A section is the code of a function: the scope of the parameters is the frame that the caller
opens, and the frame of the body and those inside it are opened by the section. -/
structure Implements (functions : Functions) (vars : ScopeId → Vars) (header : Header)
    (opened inner : ScopeId) (others : List ScopeId) (part : Section) : Prop where
  name : part.name = header.name.value
  caller : part.caller = some (frameOf vars opened)
  frame : part.frame = frameOf vars inner
  parameters : vars opened = parameterVars header.parameters
  laidOut : part.LaidOut functions vars others

/-- A statement is a function, and a section is its code. -/
def Compiles (functions : Functions) (vars : ScopeId → Vars) (statement : Stmt)
    (part : Section) : Prop :=
  ∃ header opened inner others, statement.header? = some header ∧
    statement.scopes = opened :: inner :: others ∧
    Implements functions vars header opened inner others part

/-- The sections of a program: those of its functions in order, and that of its other
statements. -/
structure Assembled (tree : ScopeTree) (statements : List Stmt) (parts : List Section)
    (main : Section) : Prop where
  functions : List.Forall₂ (Compiles tree.lookupFunction? tree.varsOf)
    (statements.filter Stmt.isFunction) parts
  name : main.name = "main"
  caller : main.caller = none
  frame : main.frame = frameOf tree.varsOf ScopeTree.global
  laidOut : main.LaidOut tree.lookupFunction? tree.varsOf
    (scopesOf (statements.filter fun statement => !statement.isFunction))

section Functions

variable {functions : Functions} {tree : ScopeTree} {outer : Context} {layer : Layer}

theorem exists_compiles {span : Span} {header : Header} {body : Block}
    (inScope : (Stmt.function span header body).Scoped functions none (layer :: outer))
    (laidOut : (Stmt.function span header body).LaidOut tree ScopeTree.global) (plain : body.Plain)
    (returns : body.alwaysReturns = true)
    (types : (Stmt.function span header body).AllTypes Ty.Written) :
    ∃ part, codeOf part.lines =
        Lexical.statement functions layer outer (.function span header body) ∧
      Compiles functions tree.varsOf (.function span header body) part := by
  obtain ⟨opened, isOpened, inside⟩ := inScope
  obtain ⟨_, same, opens, laidOutBody⟩ := laidOut
  cases isOpened.symm.trans same
  have parameters := opens.varsOf_eq
  have written : ∀ entry ∈ tree.varsOf opened, entry.2.Written := by
    rw [parameters, parameterVars, List.forall_mem_map]
    exact types.1
  let entry : Place := { opened := [], around := [frameOf tree.varsOf opened], live := true }
  have stage : Stage tree.varsOf entry (some header.returns.value)
      { scope := opened, vars := parameterVars header.parameters } [] [] := by
    have declared : parameterVars header.parameters <+: tree.varsOf opened :=
      parameters ▸ List.prefix_rfl
    refine ⟨⟨rfl, List.forall_mem_singleton.mpr declared, List.forall_mem_singleton.mpr written⟩,
      ?_, fun _ => rfl⟩
    rw [List.append_nil]
    exact declared
  obtain ⟨inner, code, others, isCode, scopes, lines, rfl, laid⟩ :=
    block_enclosed stage inside laidOutBody plain types.2
  rw [returns] at laid
  let part : Section :=
    { name := header.name.value, caller := some (frameOf tree.varsOf opened)
      frame := frameOf tree.varsOf inner, body := lines }
  refine ⟨part, ?_, header, opened, inner, others, rfl, ?_,
    ⟨rfl, rfl, rfl, parameters, frameOf_sized _ _, laid⟩⟩
  · rw [Lexical.statement, isOpened, Option.getD_some, isCode]
    simp only [Section.lines, Section.framed, codeOf_append, codeOf_lines, part,
      Option.isSome_some, if_true, List.append_nil]
    rfl
  · rw [Stmt.scopes, isOpened, scopes]
    rfl

/-- The functions of a program become sections one after the other. -/
theorem exists_sections (areFunctions : ∀ statement ∈ statements, statement.isFunction = true)
    (inScope : allScoped functions none (layer :: outer) statements)
    (laidOut : allLaidOut tree ScopeTree.global statements)
    (flat : ∀ statement ∈ statements, statement.Flat)
    (returning : ∀ statement ∈ statements, statement.Returning)
    (types : allTypes Ty.Written statements) :
    ∃ parts, codeOf (linesOf parts) = Lexical.statements functions layer outer statements ∧
      List.Forall₂ (Compiles functions tree.varsOf) statements parts := by
  induction statements generalizing layer with
  | nil => exact ⟨[], rfl, .nil⟩
  | cons first rest inductionHypothesis =>
    rw [List.forall_mem_cons] at areFunctions flat returning
    obtain ⟨parts, code, compiles⟩ := inductionHypothesis areFunctions.2 inScope.2 laidOut.2 flat.2
      returning.2 types.2
    cases first with
    | function span header body =>
      obtain ⟨part, codeFirst, compilesFirst⟩ :=
        exists_compiles inScope.1 laidOut.1 flat.1 returning.1 types.1
      refine ⟨part :: parts, ?_, .cons compilesFirst compiles⟩
      rw [linesOf, List.flatMap_cons, codeOf_append, codeFirst, Lexical.statements, ← code]
      rfl
    | _ => cases areFunctions.1

end Functions

/-- The other statements of a program become the section of the entry point. -/
theorem exists_main (ready : Ready tree statements) :
    ∃ main : Section, codeOf main.lines =
        [.label "main"] ++ Lexical.openFrame (declaredBy statements) ++
          Lexical.statements tree.lookupFunction? { scope := ScopeTree.global, vars := [] } []
            (statements.filter fun statement => !statement.isFunction) ++
          [.op .cframe, .op .halt] ∧
      main.name = "main" ∧ main.caller = none ∧
      main.frame = frameOf tree.varsOf ScopeTree.global ∧
      main.LaidOut tree.lookupFunction? tree.varsOf
        (scopesOf (statements.filter fun statement => !statement.isFunction)) := by
  have consistent := ready.consistent
  have among {holds : Stmt → Prop} (all : ∀ statement ∈ statements, holds statement) :
      ∀ statement ∈ statements.filter fun statement => !statement.isFunction, holds statement :=
    fun statement member => all statement (List.mem_of_mem_filter member)
  have types := allTypes_iff.mpr (among (allTypes_iff.mp ready.types))
  have plain := allPlain_filter_not_isFunction ready.flat
  have inScope := consistent.inScope.filter_not_isFunction
  obtain ⟨row, found, localsOf⟩ := consistent.globals
  have declares := ScopeTree.varsOf_eq found localsOf
  rw [← declaredBy_filter_not_isFunction] at declares
  let entry : Place := { opened := [], around := [], live := true }
  have stage : Stage tree.varsOf (entry.enter (frameOf tree.varsOf ScopeTree.global)) none
      { scope := ScopeTree.global, vars := [] } []
      (declaredBy (statements.filter fun statement => !statement.isFunction) ++ []) := by
    refine ⟨⟨rfl, List.forall_mem_singleton.mpr List.nil_prefix,
      List.forall_mem_singleton.mpr ?_⟩, ?_, fun within => absurd rfl within⟩
    · rw [declares]
      exact written_of_allTypes types
    · have same : [] ++ (declaredBy (statements.filter fun statement => !statement.isFunction) ++
          []) = tree.varsOf ScopeTree.global := by
        rw [List.nil_append, List.append_nil, declares]
      exact same ▸ List.prefix_rfl
  obtain ⟨lines, isCode, laid⟩ := statements_shaped stage inScope
    (allLaidOut_iff.mpr (among (allLaidOut_iff.mp consistent.laidOut))) plain types
  rw [inScope.anyReturns_eq_false] at laid
  let main : Section :=
    { name := "main", caller := none, frame := frameOf tree.varsOf ScopeTree.global, body := lines }
  have cells : (frameOf tree.varsOf ScopeTree.global).cells = (declaredBy statements).cells := by
    rw [← declaredBy_filter_not_isFunction, ← declares]
    rfl
  refine ⟨main, ?_, rfl, rfl, rfl, frameOf_sized _ _, laid⟩
  simp only [Section.lines, Section.framed, codeOf_append, codeOf_lines, main, isCode,
    Option.isSome_none, cells, Bool.false_eq_true, if_false, Lexical.openFrame, List.append_assoc]
  rfl

/-- The code of a program that is ready is divided into sections. -/
theorem exists_assembled (ready : Ready tree statements) :
    ∃ parts main, codeOf (linesOf (parts ++ [main])) =
        Lexical.program tree.lookupFunction? statements ∧
      Assembled tree statements parts main := by
  have consistent := ready.consistent
  have among {holds : Stmt → Prop} (all : ∀ statement ∈ statements, holds statement) :
      ∀ statement ∈ statements.filter Stmt.isFunction, holds statement :=
    fun statement member => all statement (List.mem_of_mem_filter member)
  have inScope : allScoped tree.lookupFunction? none [{ scope := ScopeTree.global, vars := [] }]
      (statements.filter Stmt.isFunction) := consistent.inScope.filter_isFunction
  obtain ⟨parts, code, compiles⟩ := exists_sections
    (fun statement member => (List.mem_filter.mp member).2) inScope
    (allLaidOut_iff.mpr (among (allLaidOut_iff.mp consistent.laidOut))) (among ready.flat)
    (among ready.returning) (allTypes_iff.mpr (among (allTypes_iff.mp ready.types)))
  obtain ⟨main, codeMain, name, caller, frame, laidOut⟩ := exists_main ready
  refine ⟨parts, main, ?_, compiles, name, caller, frame, laidOut⟩
  rw [linesOf, List.flatMap_append, codeOf_append, List.flatMap_singleton, codeMain,
    Lexical.program, ← code]
  simp only [List.append_assoc]
  rfl

/-- Of two lists whose members correspond, each member of one has its counterpart in the other. -/
theorem exists_mem_of_forall₂ {α β : Type} {related : α → β → Prop} {first : List α}
    {second : List β} (all : List.Forall₂ related first second) :
    (∀ one ∈ first, ∃ other ∈ second, related one other) ∧
      ∀ other ∈ second, ∃ one ∈ first, related one other := by
  induction all with
  | nil => exact ⟨nofun, nofun⟩
  | cons related _ inductionHypothesis =>
    simp only [List.forall_mem_cons, List.exists_mem_cons_iff]
    exact ⟨⟨.inl related, fun one member => .inr (inductionHypothesis.1 one member)⟩,
      .inl related, fun other member => .inr (inductionHypothesis.2 other member)⟩

namespace Assembled

variable {tree : ScopeTree} {statements : List Stmt} {parts : List Section} {main part : Section}

/-- A section other than the last is that of a function. -/
theorem exists_function (assembled : Assembled tree statements parts main)
    (member : part ∈ parts) :
    ∃ statement ∈ statements, Compiles tree.lookupFunction? tree.varsOf statement part := by
  obtain ⟨statement, isStatement, compiles⟩ :=
    (exists_mem_of_forall₂ assembled.functions).2 part member
  exact ⟨statement, List.mem_of_mem_filter isStatement, compiles⟩

theorem arranged (assembled : Assembled tree statements parts main) :
    Arranged tree.lookupFunction? tree.varsOf (parts ++ [main]) := by
  intro part member
  rcases List.mem_append.mp member with isFunction | isMain
  · obtain ⟨_, _, _, _, _, others, _, _, implements⟩ := assembled.exists_function isFunction
    exact ⟨others, implements.laidOut⟩
  · rw [List.mem_singleton.mp isMain]
    exact ⟨_, assembled.laidOut⟩

end Assembled

end Flow

/-- The code of a program that was read and compiled is divided into sections. -/
theorem Build.exists_assembled {tokens : List Token} {program : Program} {product : Product}
    (read : Build.parse tokens = .ok program) (lowered : Build.lower program = .ok product) :
    ∃ analysis parts main, Analysis.analyze program = .ok (.ok analysis) ∧
      Code.generate analysis.program analysis.tree = .ok product.code ∧
      Ready analysis.tree analysis.program.statements ∧
      Flow.Assembled analysis.tree analysis.program.statements parts main ∧
      product.code = Flow.codeOf (Flow.linesOf (parts ++ [main])) := by
  obtain ⟨fresh, _⟩ := Build.fresh_of_parse read
  obtain ⟨analysis, analyzed, generated⟩ := Build.lower_eq_ok lowered
  have ready := Analysis.ready analyzed fresh.1
  have code := (Code.generate_meets ready.consistent).good_of_ok generated
  obtain ⟨parts, main, isCode, assembled⟩ := Flow.exists_assembled ready
  exact ⟨analysis, parts, main, analyzed, generated, ready, assembled, code.trans isCode.symm⟩

end PadLang
