/-
This file shows that analysis accepts exactly the programs that are well typed.

The checker decides the rules up to one: that functions return on every path. That is left to
the pass that prunes programs, which complains about a function just if some path through its
body does not return. In an accepted program every expression that is left bears a type, and it
is the only one that the rules give it where it stands.
-/

import PadLang.Proofs.Resolution
import PadLang.Proofs.Typing.Acceptance
import PadLang.Proofs.Verdicts

namespace PadLang

variable {functions : Functions} {statement : Stmt} {expr : Expr} {second : Ty}

/-! ### Functions at the top level -/

/-- No function is defined inside a statement, which may be a function itself. -/
def Stmt.Flat : Stmt → Prop
  | .function _ _ body => body.Plain
  | statement => statement.Plain

/-- A function returns on every path. -/
def Stmt.Returning : Stmt → Prop
  | .function _ _ body => body.alwaysReturns = true
  | _ => True

theorem Stmt.flat_of_not_isFunction (notFunction : statement.isFunction = false)
    (plain : statement.Plain) : statement.Flat := by
  cases statement with
  | function span header body => cases notFunction
  | _ => exact plain

mutual

theorem Stmt.plain_erase (statement : Stmt) : statement.erase.Plain ↔ statement.Plain := by
  match statement with
  | .assignment _ _ | .declaration _ _ | .action _ _ | .returnValue _ _ | .function _ _ _ => rfl
  | .block _ body | .conditional _ _ body none | .forLoop _ _ _ _ body | .whileLoop _ _ body =>
    exact body.plain_erase
  | .conditional _ _ first (some second) => exact and_congr first.plain_erase second.plain_erase

theorem Block.plain_erase (block : Block) : block.erase.Plain ↔ block.Plain := by
  match block with
  | .mk _ _ body => exact allPlain_eraseAll body

theorem allPlain_eraseAll (statements : List Stmt) :
    allPlain (eraseAll statements) ↔ allPlain statements := by
  match statements with
  | [] => rfl
  | first :: rest => exact and_congr first.plain_erase (allPlain_eraseAll rest)

end

theorem Stmt.flat_erase (statement : Stmt) : statement.erase.Flat ↔ statement.Flat := by
  fun_cases Stmt.erase statement with
  | case6 span header body => exact body.plain_erase
  | case7 span condition first => exact first.plain_erase
  | case8 span condition first second => exact and_congr first.plain_erase second.plain_erase
  | case5 span body => exact body.plain_erase
  | case9 span init condition update body => exact body.plain_erase
  | case10 span condition body => exact body.plain_erase
  | _ => rfl

theorem Stmt.returning_erase (statement : Stmt) :
    statement.erase.Returning ↔ statement.Returning := by
  fun_cases Stmt.erase statement with
  | case6 span header body => rw [Stmt.Returning, Stmt.Returning, body.alwaysReturns_erase]
  | _ => rfl

/-- What erasure does not change holds of statements that are erased to the same ones. -/
theorem forall_mem_iff_of_eraseAll {first second : List Stmt} {holds : Stmt → Prop}
    (stable : ∀ statement : Stmt, holds statement.erase ↔ holds statement)
    (same : eraseAll first = eraseAll second) :
    (∀ statement ∈ first, holds statement) ↔ ∀ statement ∈ second, holds statement := by
  have erased (statements : List Stmt) :
      (∀ statement ∈ statements, holds statement) ↔
        ∀ statement ∈ eraseAll statements, holds statement := by
    rw [eraseAll_eq_map, List.forall_mem_map]
    exact forall₂_congr fun statement _ => (stable statement).symm
  rw [erased first, same, ← erased second]

theorem Typing.Checks.flat {program : Program} (checks : Typing.Checks program) :
    ∀ statement ∈ program.statements, statement.Flat := by
  intro statement member
  by_cases isFunction : statement.isFunction = true
  · obtain ⟨span, header, body, rfl⟩ := Stmt.exists_eq_function isFunction
    exact (checks.functions span header body member).2.plain
  · refine Stmt.flat_of_not_isFunction (by simpa using isFunction) ?_
    refine allPlain_iff.mp checks.statements.plain statement ?_
    exact List.mem_filter.mpr ⟨member, by simpa using isFunction⟩

/-! ### Complaints about missing returns -/

mutual

theorem Stmt.Plain.missing_eq_nil {statement : Stmt} (plain : statement.Plain) :
    statement.missing = [] := by
  match statement with
  | .assignment _ _ | .declaration _ _ | .action _ _ | .returnValue _ _ => rfl
  | .block _ body | .conditional _ _ body none | .forLoop _ _ _ _ body | .whileLoop _ _ body =>
    exact congrArg (List.map _) (Block.Plain.missing_eq_nil plain)
  | .conditional _ _ first (some second) =>
    rw [Stmt.missing, plain.1.missing_eq_nil, plain.2.missing_eq_nil]
    rfl

theorem Block.Plain.missing_eq_nil {block : Block} (plain : block.Plain) : block.missing = [] := by
  match block with
  | .mk _ _ body => exact allPlain.missingOf_eq_nil plain

/-- Nothing is missing in statements without functions. -/
theorem allPlain.missingOf_eq_nil {statements : List Stmt} (plain : allPlain statements) :
    missingOf statements = [] := by
  match statements with
  | [] => rfl
  | first :: rest =>
    rw [missingOf, plain.1.missing_eq_nil, allPlain.missingOf_eq_nil plain.2]
    exact ite_self _

end

theorem Stmt.Flat.missing_eq_nil_iff (flat : statement.Flat) :
    statement.missing = [] ↔ statement.Returning := by
  cases statement with
  | function span header body =>
    rw [Stmt.missing, Block.Plain.missing_eq_nil flat, Stmt.Returning]
    cases body.alwaysReturns with
    | true => exact iff_of_true rfl rfl
    | false => exact iff_of_false (List.cons_ne_nil _ _) Bool.false_ne_true
  | _ => exact iff_of_true (Stmt.Plain.missing_eq_nil flat) trivial

/-- Of the functions of a program just those that may not return lack a return. -/
theorem missingOf_eq_nil_iff {statements : List Stmt}
    (flat : ∀ statement ∈ statements, statement.Flat) (goesOn : anyReturns statements = false) :
    missingOf statements = [] ↔ ∀ statement ∈ statements, statement.Returning := by
  induction statements with
  | nil => exact iff_of_true rfl (List.forall_mem_nil _)
  | cons first rest inductionHypothesis =>
    rw [anyReturns, Bool.or_eq_false_iff] at goesOn
    rw [List.forall_mem_cons] at flat
    rw [missingOf, goesOn.1, if_neg Bool.false_ne_true, List.append_eq_nil_iff,
      flat.1.missing_eq_nil_iff, List.map_eq_nil_iff, inductionHypothesis flat.2 goesOn.2,
      List.forall_mem_cons]

/-! ### Accepted programs are the well-typed ones -/

theorem Program.wellTyped_iff (program : Program) :
    program.WellTyped ↔
      Typing.Checks program ∧ ∀ statement ∈ program.statements, statement.Returning := by
  constructor
  · intro typed
    refine ⟨⟨typed.distinct, typed.unreserved, fun span header body member => ?_, typed.globals,
      typed.statements⟩, fun statement member => ?_⟩
    · have function := typed.functions span header body member
      exact ⟨function.parameters, function.typed⟩
    · cases statement with
      | function span header body => exact (typed.functions span header body member).returns
      | _ => trivial
  · rintro ⟨checks, returning⟩
    refine ⟨checks.distinct, checks.unreserved, fun span header body member => ?_, checks.globals,
      checks.statements⟩
    have function := checks.functions span header body member
    exact ⟨function.1, function.2, returning _ member⟩

/-- Analysis accepts a program just if it is well typed, and then its functions are those that
the program defines. Scopes that it bears already are written over where it is well typed. -/
theorem Analysis.analyze_exact (program : Program) :
    Meets (allSized program.statements ∧ (scopesOf program.statements = [] ∨ program.WellTyped))
      (fun result => ((∃ analysis, result = .ok analysis) ↔ program.WellTyped) ∧
        ∀ analysis, result = .ok analysis →
          analysis.tree.lookupFunction? = functionsOf program.statements)
      (analyze program) := by
  rw [Program.wellTyped_iff]
  refine Meets.bind (((Typing.program_decides program).and (Typing.program_meets program)).weaken
    And.left) ?_
  rintro checked ⟨⟨decides, calls⟩, steady, erased, accepted⟩
  by_cases clean : checked.complaints = []
  · have consistent := accepted clean
    have checks := decides.mp clean
    have flat := (forall_mem_iff_of_eraseAll Stmt.flat_erase erased).mpr checks.flat
    have complains : Meets False
        (fun pruned => pruned.complaints = [] ↔
          ∀ statement ∈ checked.value.statements, statement.Returning)
        (ReturnPaths.program checked.tree checked.value) := by
      rw [ReturnPaths.program, ReturnPaths.sequence_eq, bind_assoc]
      refine Meets.bind (Meets.of_unsafe id) fun left _ => Meets.pure ?_
      change complaintsAbout _ = [] ↔ _
      rw [complaintsAbout, List.map_eq_nil_iff,
        missingOf_eq_nil_iff flat consistent.inScope.anyReturns_eq_false]
    refine Meets.bind ((ReturnPaths.program_meets steady.sound _ consistent.held).and_partial
      complains) ?_
    rintro pruned ⟨⟨value, prunes, stillConsistent⟩, complains⟩
    rw [forall_mem_iff_of_eraseAll Stmt.returning_erase erased] at complains
    rw [clean, List.nil_append]
    split
    · rename_i none_left
      refine Meets.bind (ScopeTree.hoistFunctions_meets prunes.sound.rooted.global_lt) ?_
      rintro tree ⟨size, rows⟩
      refine Meets.pure ⟨iff_of_true ⟨_, rfl⟩ ⟨checks, complains.mp none_left⟩, ?_⟩
      intro analysis isAnalysis
      cases isAnalysis
      rw [← calls clean, ← (stillConsistent consistent).2]
      funext name
      rw [ScopeTree.lookupFunction?, ScopeTree.lookupFunction?, ScopeTree.functionIn?_eq,
        ScopeTree.functionIn?_eq, rows]
    · rename_i some_left
      refine Meets.pure ⟨iff_of_false (not_exists.mpr fun _ => error_ne_ok) fun both => ?_,
        fun _ isAnalysis => absurd isAnalysis error_ne_ok⟩
      exact some_left (complains.mpr both.2)
  · refine Meets.bind ((pruning_meets steady).weaken fun safe => ⟨safe.1, ?_⟩) fun pruned _ => ?_
    · exact safe.2.resolve_right fun both => clean (decides.mpr both.1)
    split
    · rename_i none_left
      exact absurd (List.append_eq_nil_iff.mp none_left).1 clean
    · refine Meets.pure ⟨iff_of_false (not_exists.mpr fun _ => error_ne_ok) fun both => ?_,
        fun _ isAnalysis => absurd isAnalysis error_ne_ok⟩
      exact clean (decides.mpr both.1)

/-! ### The types that expressions bear -/

theorem Note.Gives.unique {note : Note} {found first : Ty} (one : note.Gives found first)
    (other : note.Gives found second) : first = second := by
  rw [Note.gives_iff] at one other
  exact Except.ok.inj (one.symm.trans other)

/-- Where it stands, an expression has at most one type. -/
theorem OfType.unique {visible : Visible} {first : Ty} (one : OfType functions visible expr first)
    (other : OfType functions visible expr second) : first = second := by
  induction one generalizing second with
  | literal gives =>
    cases other with
    | literal gives' => exact gives.unique gives'
  | array nonempty _ gives each =>
    cases other with
    | array _ each' gives' =>
      obtain ⟨item, isItem⟩ := List.exists_mem_of_ne_nil _ nonempty
      rw [each item isItem (each' item isItem)] at gives
      exact gives.unique gives'
  | side gives =>
    cases other with
    | side gives' => exact gives.unique gives'
  | read _ _ gives =>
    cases other with
    | read _ _ gives' => exact gives.unique gives'
  | randomInt _ gives =>
    cases other with
    | randomInt _ gives' => exact gives.unique gives'
  | var declared gives =>
    cases other with
    | var declared' gives' =>
      cases declared.symm.trans declared'
      exact gives.unique gives'
  | index declared _ gives =>
    cases other with
    | index declared' _ gives' =>
      cases declared.symm.trans declared'
      exact gives.unique gives'
  | call names _ _ gives =>
    cases other with
    | call names' _ _ gives' =>
      cases names.symm.trans names'
      exact gives.unique gives'
  | group _ gives inside =>
    cases other with
    | group inside' gives' =>
      rw [inside inside'] at gives
      exact gives.unique gives'
  | binary _ _ operates gives first =>
    cases other with
    | binary first' _ operates' gives' =>
      rw [first first'] at operates
      rw [(operates_iff.mp operates).2] at gives
      rw [(operates_iff.mp operates').2] at gives'
      exact gives.unique gives'
  | unary _ _ gives inside =>
    cases other with
    | unary inside' _ gives' =>
      rw [inside inside'] at gives
      exact gives.unique gives'

mutual

/-- An expression and the expressions in it. -/
def Expr.parts : Expr → List Expr
  | .literal note value => [.literal note value]
  | .array note items => .array note items :: partsOf items
  | .side note which => [.side note which]
  | .read note x y => .read note x y :: (x.parts ++ y.parts)
  | .randomInt note limit => .randomInt note limit :: limit.parts
  | .var note name => [.var note name]
  | .index note name offset => .index note name offset :: offset.parts
  | .call note function items => .call note function items :: partsOf items
  | .group note inner => .group note inner :: inner.parts
  | .binary note left operator right =>
    .binary note left operator right :: (left.parts ++ right.parts)
  | .unary note operator operand => .unary note operator operand :: operand.parts

/-- Expressions and the expressions in them. -/
def partsOf : List Expr → List Expr
  | [] => []
  | first :: rest => first.parts ++ partsOf rest

end

theorem forall_mem_partsOf {items : List Expr} {holds : Expr → Prop}
    (each : ∀ item ∈ items, ∀ part ∈ item.parts, holds part) :
    ∀ part ∈ partsOf items, holds part := by
  induction items with
  | nil => simp [partsOf]
  | cons first rest inductionHypothesis =>
    rw [List.forall_mem_cons] at each
    exact List.forall_mem_append.mpr ⟨each.1, inductionHypothesis each.2⟩

/-- Every part of an expression that bears its types bears its own. -/
theorem HasType.parts {context : Context} {type : Ty}
    (typed : HasType functions context expr type) :
    ∀ part ∈ expr.parts, ∃ own, HasType functions context part own := by
  induction typed with
  | literal noted => exact List.forall_mem_singleton.mpr ⟨_, .literal noted⟩
  | side noted => exact List.forall_mem_singleton.mpr ⟨_, .side noted⟩
  | var denotes noted => exact List.forall_mem_singleton.mpr ⟨_, .var denotes noted⟩
  | array nonempty scalar typedItems noted each =>
    exact List.forall_mem_cons.mpr
      ⟨⟨_, .array nonempty scalar typedItems noted⟩, forall_mem_partsOf each⟩
  | read typedX typedY noted first second =>
    refine List.forall_mem_cons.mpr ⟨⟨_, .read typedX typedY noted⟩, ?_⟩
    exact List.forall_mem_append.mpr ⟨first, second⟩
  | randomInt typedLimit noted bound =>
    exact List.forall_mem_cons.mpr ⟨⟨_, .randomInt typedLimit noted⟩, bound⟩
  | index denotes isArray typedOffset noted inside =>
    exact List.forall_mem_cons.mpr ⟨⟨_, .index denotes isArray typedOffset noted⟩, inside⟩
  | call names arity typedItems noted each =>
    exact List.forall_mem_cons.mpr ⟨⟨_, .call names arity typedItems noted⟩,
      forall_mem_partsOf (forall_mem_of_zip arity each)⟩
  | group typedInner noted inside =>
    exact List.forall_mem_cons.mpr ⟨⟨_, .group typedInner noted⟩, inside⟩
  | binary takes typedLeft typedRight noted first second =>
    refine List.forall_mem_cons.mpr ⟨⟨_, .binary takes typedLeft typedRight noted⟩, ?_⟩
    exact List.forall_mem_append.mpr ⟨first, second⟩
  | unary takes typedOperand noted inside =>
    exact List.forall_mem_cons.mpr ⟨⟨_, .unary takes typedOperand noted⟩, inside⟩

/-! ### The places of expressions -/

/-- The expressions of an assignment. -/
def Assignment.operands (made : Assignment) : List Expr := made.index.toList ++ [made.value]

/-- The expressions of an action. -/
def Action.operands : Action → List Expr
  | .print value => [value]
  | .delay milliseconds => [milliseconds]
  | .write x y colour => [x, y, colour]
  | .writeBox x y width height colour => [x, y, width, height, colour]
  | .clear colour => [colour]

/-- Expressions with what is visible where they stand. -/
def placedAt (visible : Visible) (exprs : List Expr) : List (Visible × Expr) :=
  exprs.map fun expr => (visible, expr)

mutual

/-- The expressions of a statement with what is visible where they stand. -/
def Stmt.places (visible : Visible) : Stmt → List (Visible × Expr)
  | .assignment _ made => placedAt visible made.operands
  | .declaration _ made => placedAt visible [made.value]
  | .action _ done => placedAt visible done.operands
  | .returnValue _ value => placedAt visible [value]
  | .block _ body => body.places visible
  | .function _ header body => body.places [parameterVars header.parameters]
  | .conditional _ condition first none => placedAt visible [condition] ++ first.places visible
  | .conditional _ condition first (some second) =>
    placedAt visible [condition] ++ (first.places visible ++ second.places visible)
  | .whileLoop _ condition body => placedAt visible [condition] ++ body.places visible
  | .forLoop _ init condition update (.mk _ _ body) =>
    placedAt ([] :: visible) (init.toList.map Declaration.value) ++
      (placedAt (initVars init :: visible)
        (condition :: update.toList.flatMap Assignment.operands) ++
          placesOf (initVars init :: visible) body)

/-- The expressions of a block with what is visible where they stand. -/
def Block.places (visible : Visible) : Block → List (Visible × Expr)
  | .mk _ _ body => placesOf ([] :: visible) body

/-- The expressions of statements with what is visible where they stand. -/
def placesOf (visible : Visible) : List Stmt → List (Visible × Expr)
  | [] => []
  | first :: rest => first.places visible ++ placesOf (visible.declare first.declares) rest

end

/-- An expression bears its types where it stands. -/
def Annotated (functions : Functions) (place : Visible × Expr) : Prop :=
  ∃ context type, context.map Layer.vars = place.1 ∧ HasType functions context place.2 type

section Places

variable {functions : Functions} {context : Context}

theorem annotated_placedAt (context : Context) {exprs : List Expr}
    (each : ∀ expr ∈ exprs, ∃ type, HasType functions context expr type) :
    ∀ place ∈ placedAt (context.map Layer.vars) exprs, Annotated functions place := by
  rw [placedAt, List.forall_mem_map]
  intro expr member
  obtain ⟨type, typed⟩ := each expr member
  exact ⟨context, type, rfl, typed⟩

theorem Assignment.Scoped.operands {made : Assignment} (inScope : made.Scoped functions context) :
    ∀ expr ∈ made.operands, ∃ type, HasType functions context expr type := by
  obtain ⟨target, index, value⟩ := made
  obtain ⟨found, _, typed⟩ := inScope
  cases index with
  | none => exact List.forall_mem_singleton.mpr ⟨_, typed⟩
  | some index =>
    obtain ⟨element, _, typedIndex, typedValue⟩ := typed
    exact List.forall_mem_cons.mpr ⟨⟨_, typedIndex⟩, List.forall_mem_singleton.mpr ⟨_, typedValue⟩⟩

theorem Action.Scoped.operands {done : Action} (inScope : done.Scoped functions context) :
    ∀ expr ∈ done.operands, ∃ type, HasType functions context expr type := by
  have same : done.operands = done.expressions := by cases done <;> rfl
  rw [same]
  exact inScope.exists_hasType

mutual

theorem Stmt.Scoped.annotated {returns : Option Ty} {context : Context} {statement : Stmt}
    (inScope : statement.Scoped functions returns context) :
    ∀ place ∈ statement.places (context.map Layer.vars), Annotated functions place := by
  match statement with
  | .assignment _ made => exact annotated_placedAt _ (Assignment.Scoped.operands inScope)
  | .declaration _ made =>
    exact annotated_placedAt _ (List.forall_mem_singleton.mpr ⟨_, inScope⟩)
  | .action _ done => exact annotated_placedAt _ (Action.Scoped.operands inScope)
  | .returnValue _ value =>
    obtain ⟨type, _, typed⟩ := inScope
    exact annotated_placedAt _ (List.forall_mem_singleton.mpr ⟨type, typed⟩)
  | .block _ body => exact Block.Scoped.annotated inScope
  | .function _ header body =>
    obtain ⟨opened, _, inside⟩ := inScope
    exact inside.annotated
  | .conditional _ _ _ none | .whileLoop _ _ _ =>
    refine List.forall_mem_append.mpr ⟨?_, inScope.2.annotated⟩
    exact annotated_placedAt _ (List.forall_mem_singleton.mpr ⟨_, inScope.1⟩)
  | .conditional _ condition first (some second) =>
    refine List.forall_mem_append.mpr ⟨?_, List.forall_mem_append.mpr
      ⟨inScope.2.1.annotated, inScope.2.2.annotated⟩⟩
    exact annotated_placedAt _ (List.forall_mem_singleton.mpr ⟨_, inScope.1⟩)
  | .forLoop _ init condition update (.mk _ _ body) =>
    obtain ⟨opened, _, typedInit, typedCondition, typedUpdate, inside⟩ := inScope
    refine List.forall_mem_append.mpr ⟨?_, List.forall_mem_append.mpr ⟨?_, ?_⟩⟩
    · refine annotated_placedAt ({ scope := opened, vars := [] } :: context) ?_
      rw [List.forall_mem_map]
      intro made isInit
      exact ⟨_, typedInit made (Option.mem_toList.mp isInit)⟩
    · refine annotated_placedAt ({ scope := opened, vars := initVars init } :: context) ?_
      refine List.forall_mem_cons.mpr ⟨⟨_, typedCondition⟩, ?_⟩
      intro expr member
      obtain ⟨made, isUpdate, isOperand⟩ := List.mem_flatMap.mp member
      exact (typedUpdate made (Option.mem_toList.mp isUpdate)).operands expr isOperand
    · exact allScoped.annotated inside

theorem Block.Scoped.annotated {returns : Option Ty} {context : Context} {block : Block}
    (inScope : block.Scoped functions returns context) :
    ∀ place ∈ block.places (context.map Layer.vars), Annotated functions place := by
  match block with
  | .mk _ _ body =>
    obtain ⟨opened, _, inside⟩ := inScope
    exact allScoped.annotated inside

theorem allScoped.annotated {returns : Option Ty} {context : Context} {statements : List Stmt}
    (inScope : allScoped functions returns context statements) :
    ∀ place ∈ placesOf (context.map Layer.vars) statements, Annotated functions place := by
  match statements with
  | [] => nofun
  | first :: rest =>
    refine List.forall_mem_append.mpr ⟨Stmt.Scoped.annotated inScope.1, ?_⟩
    rw [← Context.vars_declare]
    exact allScoped.annotated inScope.2

end

end Places

/-- Analysis accepts a program that was read just if it is well typed. Every expression in what
is left of an accepted program, and every part of one, bears the type that the rules give it. -/
theorem analysis_accepts_iff_wellTyped {tokens : List Token} {program : Program}
    (read : Build.parse tokens = .ok program) :
    ((∃ analysis, Analysis.analyze program = .ok (.ok analysis)) ↔ program.WellTyped) ∧
    ∀ analysis, Analysis.analyze program = .ok (.ok analysis) →
      ∀ place ∈ placesOf [[]] analysis.program.statements, ∀ part ∈ place.2.parts,
        (∃ type, part.type? = some type) ∧
        ∀ type, part.type? = some type ↔
          OfType (functionsOf program.statements) place.1 part type := by
  obtain ⟨fresh, _⟩ := Build.fresh_of_parse read
  obtain ⟨result, analyzed, decides, calls⟩ :=
    (Analysis.analyze_exact program).exists_ok (fresh.sized.imp_right .inl)
  constructor
  · rw [analyzed, ← decides]
    simp only [Except.ok.injEq]
  · intro analysis isAccepted place isPlace part isPart
    obtain ⟨_, accepted⟩ :=
      (Analysis.analyze_meets program).good_of_ok isAccepted analysis rfl
    have annotated := accepted.consistent.inScope.annotated place isPlace
    rw [analyzed] at isAccepted
    rw [calls analysis (Except.ok.inj isAccepted)] at annotated
    obtain ⟨context, whole, isVisible, typed⟩ := annotated
    obtain ⟨own, typedPart⟩ := typed.parts part isPart
    have ofType := typedPart.ofType rfl
    rw [isVisible] at ofType
    refine ⟨⟨own, typedPart.type?_eq⟩, fun type => ?_⟩
    rw [typedPart.type?_eq, Option.some.injEq]
    constructor
    · rintro rfl
      exact ofType
    · exact fun other => ofType.unique other

/-- The tokens of a function and of a declaration that calls it and converts the result. -/
def callingTokens : List Token :=
  [(.mark .funWord, "fun"), (.mark .identifier, "next"), (.mark .openParen, "("),
    (.mark .identifier, "x"), (.mark .colon, ":"), (.mark .intType, "int"),
    (.mark .closeParen, ")"), (.mark .arrow, "->"), (.mark .intType, "int"),
    (.mark .openCurly, "\x7b"), (.mark .returnWord, "return"), (.mark .identifier, "x"),
    (.mark .plus, "+"), (.literal (.int 1), "1"), (.mark .semicolon, ";"),
    (.mark .closeCurly, "\x7d"), (.mark .letWord, "let"), (.mark .identifier, "y"),
    (.mark .colon, ":"), (.mark .boolType, "bool"), (.mark .assign, "="),
    (.mark .identifier, "next"), (.mark .openParen, "("), (.literal (.int 2), "2"),
    (.mark .closeParen, ")"), (.mark .asWord, "as"), (.mark .boolType, "bool"),
    (.mark .semicolon, ";")].map
    fun (content, lexeme) => { position := {}, lexeme, content }

theorem analysis_accepts_calling :
    ∃ program, Build.parse callingTokens = .ok program ∧ program.WellTyped ∧
      ((∃ analysis, Analysis.analyze program = .ok (.ok analysis)) ↔ program.WellTyped) ∧
      ∀ analysis, Analysis.analyze program = .ok (.ok analysis) →
        ∀ place ∈ placesOf [[]] analysis.program.statements, ∀ part ∈ place.2.parts,
          (∃ type, part.type? = some type) ∧
          ∀ type, part.type? = some type ↔
            OfType (functionsOf program.statements) place.1 part type := by
  obtain ⟨product, built⟩ := Build.exists_of_isOk
    (by decide +kernel : (Build.parse callingTokens >>= Build.lower).isOk)
  obtain ⟨program, read, lowered⟩ := bind_eq_ok_iff.mp built
  obtain ⟨analysis, accepted, _⟩ := Build.lower_eq_ok lowered
  have decided := analysis_accepts_iff_wellTyped read
  exact ⟨program, read, decided.1.mp ⟨analysis, accepted⟩, decided⟩

end PadLang
