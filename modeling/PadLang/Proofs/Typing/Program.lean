/-
This file shows what the checker does to blocks and programs.

The induction follows the checker. It carries three facts. Two hold whatever there is to complain
about: the tree stays sound and holds every scope that was written on the program, and the program
is the same up to types and scopes. The third holds if there is nothing to complain about: the
checked statements are well scoped in the context of their place and use what it gives, the tree
lays them out, and it grew by their scopes.
-/

import PadLang.Proofs.Typing.Rules
import PadLang.Proofs.Typing.Stmt
import PadLang.Proofs.Typing.Uses

namespace PadLang

variable {kind : ScopeKind} {inner grown : ScopeTree} {context : Context} {safe : Prop}
  {name : Option String} {header : Header}

namespace Typing

variable {tree : ScopeTree} {scope : ScopeId} {enclosing : Enclosing} {old : Option ScopeId}
  {before : Stmt} {position : Position} {after : List Stmt} {added : Vars} {row : Scope}
  {span : Span}

/-! ### What the checker leaves behind -/

/-- The tree stays sound and holds the scopes written on a piece that had none. -/
structure Steady (tree : ScopeTree) (before after : List ScopeId) (grown : ScopeTree) : Prop where
  sound : grown.Sound
  size : tree.size ≤ grown.size
  held : before = [] → ∀ id ∈ after, (id : Nat) < grown.size

/-- What the checker makes of a statement that it does not complain about. -/
structure AcceptedStmt (tree : ScopeTree) (scope : ScopeId) (enclosing : Enclosing)
    (context : Context) (before after : Stmt) (grown : ScopeTree) : Prop where
  inScope : after.Scoped tree.lookupFunction? (enclosing.map Prod.snd) context
  uses : statementUses tree scope enclosing before = .ok (after.pruned.uses false context)
  laidOut : after.LaidOut grown scope
  grows : ScopeTree.Grows scope before.declares after.scopes tree grown

/-- What the checker makes of a block that it does not complain about. -/
structure AcceptedBlock (tree : ScopeTree) (scope : ScopeId) (enclosing : Enclosing)
    (kind : ScopeKind) (context : Context) (before after : Block) (grown : ScopeTree) :
    Prop where
  inScope : after.Scoped tree.lookupFunction? (enclosing.map Prod.snd) context
  uses : blockUses tree scope enclosing kind before = .ok (after.pruned.uses false context)
  laidOut : after.LaidOut grown scope kind
  grows : ScopeTree.Grows scope [] after.scopes tree grown

/-- What the checker makes of statements that it does not complain about. -/
structure AcceptedAll (tree : ScopeTree) (scope : ScopeId) (enclosing : Enclosing)
    (context : Context) (before after : List Stmt) (grown : ScopeTree) : Prop where
  inScope : allScoped tree.lookupFunction? (enclosing.map Prod.snd) context after
  uses : statementsUses tree scope enclosing before = .ok (usesOf false context (prunedAll after))
  laidOut : allLaidOut grown scope after
  grows : ScopeTree.Grows scope (declaredBy before) (scopesOf after) tree grown

theorem declares_eq_of_erase {after : Stmt} (erased : after.erase = before.erase) :
    after.declares = before.declares :=
  eq_of_erase Stmt.declares_erase erased

theorem declaredBy_eq_of_erase {before : List Stmt} (erased : eraseAll after = eraseAll before) :
    declaredBy after = declaredBy before :=
  eq_of_erase declaredBy_eraseAll erased

/-- A scope that was opened holds the variables that were declared in it. -/
theorem opens_of_evolves {parent : ScopeId} (opened : tree.Opened parent kind name inner)
    (evolves : ScopeTree.Evolves tree.size added inner grown) :
    grown.Opens tree.size parent kind name added := by
  refine ⟨_, evolves.here opened.row?_new, rfl, rfl, rfl, rfl, ?_⟩
  rw [Scope.locals_declaring]
  rfl

theorem lookupFunction?_eq (rooted : tree.Rooted)
    (evolves : ScopeTree.Evolves scope added tree inner) :
    inner.lookupFunction? = tree.lookupFunction? :=
  funext fun name => evolves.lookupFunction?_eq rooted name

/-! ### Putting pieces together -/

theorem Steady.trans {middle : ScopeTree} {before after moreBefore moreAfter : List ScopeId}
    (first : Steady tree before after middle) (second : Steady middle moreBefore moreAfter grown) :
    Steady tree (before ++ moreBefore) (after ++ moreAfter) grown where
  sound := second.sound
  size := Nat.le_trans first.size second.size
  held := by
    intro unscoped id member
    obtain ⟨firstUnscoped, secondUnscoped⟩ := List.append_eq_nil_iff.mp unscoped
    rcases List.mem_append.mp member with isFirst | isSecond
    · exact Nat.lt_of_lt_of_le (first.held firstUnscoped id isFirst) second.size
    · exact second.held secondUnscoped id isSecond

/-- A piece in a scope that was opened for it bears that scope too. -/
theorem Steady.enclose {old before after : List ScopeId}
    (opened : tree.Opened scope kind name inner) (steady : Steady inner before after grown) :
    Steady tree (old ++ before) (tree.size :: after) grown where
  sound := steady.sound
  size := Nat.le_trans (Nat.le_of_lt opened.lt_size) steady.size
  held := by
    intro unscoped id member
    rcases List.mem_cons.mp member with rfl | isInner
    · exact Nat.lt_of_lt_of_le opened.lt_size steady.size
    · exact steady.held (List.append_eq_nil_iff.mp unscoped).2 id isInner

/-- Statements accepted in a scope that was opened for them make up an accepted block. -/
theorem AcceptedAll.block {before : List Stmt} (sound : tree.Sound)
    (opened : tree.Opened scope kind none inner) (erased : eraseAll after = eraseAll before)
    (accepted : AcceptedAll inner tree.size enclosing
      ({ scope := tree.size, vars := [] } :: context) before after grown) :
    AcceptedBlock tree scope enclosing kind context (.mk position old before)
      (.mk position (some tree.size) after) grown where
  inScope := by
    have same := lookupFunction?_eq sound.rooted (.enclose opened .refl)
    exact ⟨tree.size, rfl, same ▸ accepted.inScope⟩
  uses := by
    rw [blockUses, opened.made]
    exact accepted.uses
  laidOut := by
    refine ⟨tree.size, rfl, ?_, accepted.laidOut⟩
    rw [declaredBy_eq_of_erase erased]
    exact opens_of_evolves opened accepted.grows.toEvolves
  grows := .enclose opened accepted.grows

/-- A loop whose clauses have passed and whose body is accepted. The clauses are checked before
the declarations of the body are made. -/
theorem AcceptedAll.forLoop {start : Checked (Option Declaration)} {init : Option Declaration}
    {test testAfter : Expr} {update updateAfter : Option Assignment} {before : List Stmt}
    (sound : tree.Sound) (opened : tree.Opened scope .forLoop none inner)
    (shows : tree.Shows scope context) (isStart : loopInit inner tree.size init = .ok start)
    (soundStart : start.tree.Sound)
    (evolves : ScopeTree.Evolves tree.size (initVars init) inner start.tree)
    (initInScope : ∀ context, Agrees inner tree.size context →
      ∀ made ∈ start.value, made.Scoped inner.lookupFunction? context)
    (initErased : start.value.map Declaration.erase = init.map Declaration.erase)
    (isTest : expect start.tree tree.size test .bool = .ok testAfter)
    (isStep : loopUpdate start.tree tree.size update = .ok updateAfter)
    (erased : eraseAll after = eraseAll before)
    (accepted : ∀ context, start.tree.Shows tree.size context →
      AcceptedAll start.tree tree.size enclosing context before after grown) :
    AcceptedStmt tree scope enclosing context
      (.forLoop span init test update (.mk position old before))
      (.forLoop span start.value testAfter updateAfter (.mk position (some tree.size) after))
      grown := by
  have soundInner := opened.sound sound
  have shownInner := shows.open sound opened nofun
  have shown := evolves.shows soundInner.rooted opened.lt_size shownInner
  have agrees := shown.lookupVariable?_eq soundStart.tidy
  have innerFunctions := lookupFunction?_eq sound.rooted (.enclose opened .refl)
  have sameFunctions : start.tree.lookupFunction? = tree.lookupFunction? :=
    (lookupFunction?_eq soundInner.rooted evolves).trans innerFunctions
  have sameInit := eq_of_erase initVars_erase initErased
  have passedTest := expect_passed isTest
  have passedStep := loopUpdate_passed isStep
  have acceptedBody := accepted _ shown
  have grows := (ScopeTree.Grows.of_evolves evolves).trans acceptedBody.grows
  rw [List.nil_append] at grows
  refine ⟨⟨tree.size, rfl, innerFunctions ▸ initInScope _ (shownInner.lookupVariable?_eq
    soundInner.tidy), ?_, ?_, ?_⟩, ?_, ?_, .enclose opened grows⟩
  · rw [sameInit]
    exact sameFunctions ▸ passedTest.typed agrees
  · rw [sameInit]
    exact sameFunctions ▸ passedStep.1 agrees
  · rw [sameInit]
    exact sameFunctions ▸ acceptedBody.inScope
  · rw [statementUses]
    refine bind_eq_ok_iff.mpr ⟨_, opened.made, bind_eq_ok_iff.mpr ⟨_, isStart,
      bind_eq_ok_iff.mpr ⟨_, acceptedBody.uses, ?_⟩⟩⟩
    rw [denoted_eq soundInner.tidy shownInner, denoted_eq soundStart.tidy shown,
      ← eq_of_erase initNames_erase initErased, ← eq_of_erase Expr.names_erase passedTest.erased,
      ← eq_of_erase updateNames_erase passedStep.2, ← declaredNames_eq_of_erase erased, Stmt.pruned,
      Block.pruned, Stmt.uses, sameInit]
    rfl
  · refine ⟨tree.size, rfl, ?_, acceptedBody.laidOut⟩
    rw [sameInit, declaredBy_eq_of_erase erased]
    exact opens_of_evolves opened grows.toEvolves

/-- A function whose parameters were declared and whose body is accepted. -/
theorem AcceptedBlock.function {declared : ScopeTree} {conflicts : Complaints}
    {before after : Block} (sound : tree.Sound)
    (opened : tree.Opened scope .function (some header.name.value) inner)
    (isDeclared : parameters inner tree.size header.parameters = .ok (declared, conflicts))
    (evolves : ScopeTree.Evolves tree.size (parameterVars header.parameters) inner declared)
    (accepted : AcceptedBlock declared tree.size (some (header.name.value, header.returns.value))
      .block [{ scope := tree.size, vars := parameterVars header.parameters }] before after
      grown) :
    AcceptedStmt tree scope enclosing context (.function span header before)
      (.function span { header with scope := some tree.size } after) grown := by
  have sameFunctions : declared.lookupFunction? = tree.lookupFunction? :=
    (lookupFunction?_eq (opened.sound sound).rooted evolves).trans
      (lookupFunction?_eq sound.rooted (.enclose opened .refl))
  have grows := (ScopeTree.Grows.of_evolves evolves).trans accepted.grows
  rw [List.append_nil, List.nil_append] at grows
  refine ⟨⟨tree.size, rfl, sameFunctions ▸ accepted.inScope⟩, ?_, ?_, .enclose opened grows⟩
  · rw [statementUses]
    exact bind_eq_ok_iff.mpr ⟨_, opened.made, bind_eq_ok_iff.mpr ⟨_, isDeclared, accepted.uses⟩⟩
  · exact ⟨tree.size, rfl, opens_of_evolves opened grows.toEvolves, accepted.laidOut⟩

/-- An accepted statement and accepted statements after it. -/
theorem AcceptedStmt.cons {checked : Checked Stmt} {moreBefore moreAfter : List Stmt}
    (sound : tree.Sound) (inside : scope < tree.size)
    (isChecked : statement tree scope enclosing before = .ok checked)
    (erased : checked.value.erase = before.erase)
    (first : AcceptedStmt tree scope enclosing context before checked.value checked.tree)
    (rest : AcceptedAll checked.tree scope enclosing (context.declare before.declares) moreBefore
      moreAfter grown) :
    AcceptedAll tree scope enclosing context (before :: moreBefore) (checked.value :: moreAfter)
      grown where
  inScope := by
    refine ⟨first.inScope, ?_⟩
    rw [declares_eq_of_erase erased, ← lookupFunction?_eq sound.rooted first.grows.toEvolves]
    exact rest.inScope
  uses := by
    rw [statementsUses, prunedAll, eq_of_erase Stmt.alwaysReturns_erase erased]
    refine bind_eq_ok_iff.mpr ⟨_, first.uses, ?_⟩
    split
    · rw [usesOf, usesOf, List.append_nil]
      rfl
    · refine bind_eq_ok_iff.mpr ⟨_, isChecked, bind_eq_ok_iff.mpr ⟨_, rest.uses, ?_⟩⟩
      rw [usesOf, Stmt.declares_pruned, declares_eq_of_erase erased]
      rfl
  laidOut :=
    ⟨first.laidOut.congr (first.grows.kept_scopes rest.grows.toEvolves inside), rest.laidOut⟩
  grows := by
    rw [declaredBy_cons, scopesOf]
    exact first.grows.trans rest.grows

/-! ### Statements and blocks -/

/-- Checking a statement that opens no scope and declares nothing. -/
theorem pureCheck_meets {names : List String} {result : Except Complaints Stmt} (sound : tree.Sound)
    (sincere : Sincere result) (simple : before.simpleNames? = some names)
    (unscoped : before.scopes = []) (declaresNone : before.declares = [])
    (passed : ∀ after, result = .ok after → after.scopes = [] ∧ after.erase = before.erase ∧
      after.LaidOut tree scope ∧ ∀ context, Agrees tree scope context →
        after.Scoped tree.lookupFunction? (enclosing.map Prod.snd) context) :
    Meets safe
      (fun checked => Steady tree before.scopes checked.value.scopes checked.tree ∧
        checked.value.erase = before.erase ∧
        (checked.complaints = [] → ∀ context, tree.Shows scope context →
          AcceptedStmt tree scope enclosing context before checked.value checked.tree))
      (.ok (pureCheck tree before result)) := by
  have scopes : (valueOr before result).scopes = [] :=
    valueOr_cases (Stmt.scopes · = []) unscoped fun after found => (passed after found).1
  have erased : (valueOr before result).erase = before.erase :=
    valueOr_cases (Stmt.erase · = before.erase) rfl fun after found => (passed after found).2.1
  refine Meets.ok ⟨⟨sound, Nat.le_refl _, fun _ id member => ?_⟩, erased,
    fun fine context shows => ?_⟩
  · rw [pureCheck, scopes] at member
    cases member
  · obtain ⟨after, same⟩ := sincere.eq_ok fine
    subst same
    obtain ⟨_, _, laidOut, inScope⟩ := passed after rfl
    refine ⟨inScope context (shows.lookupVariable?_eq sound.tidy),
      statementUses_of_simple sound.tidy shows simple erased, laidOut, ?_⟩
    rw [declaresNone, pureCheck, scopes]
    exact .of_evolves .refl

mutual

theorem statement_meets {tree : ScopeTree} {scope : ScopeId} (sound : tree.Sound)
    (inside : scope < tree.size) (enclosing : Enclosing) (before : Stmt) :
    Meets before.Sized
      (fun checked => Steady tree before.scopes checked.value.scopes checked.tree ∧
        checked.value.erase = before.erase ∧
        (checked.complaints = [] → ∀ context, tree.Shows scope context →
          AcceptedStmt tree scope enclosing context before checked.value checked.tree))
      (statement tree scope enclosing before) := by
  match before with
  | .assignment span made =>
    rw [statement]
    refine pureCheck_meets sound ((assignment_sincere made).map _) rfl rfl rfl fun after found => ?_
    obtain ⟨checked, isChecked, rfl⟩ := map_eq_ok found
    obtain ⟨inScope, erased⟩ := assignment_passed isChecked
    exact ⟨rfl, by rw [Stmt.erase, Stmt.erase, erased], trivial, fun _ => inScope⟩
  | .action span done =>
    rw [statement]
    refine pureCheck_meets sound ((action_sincere done).map _) rfl rfl rfl fun after found => ?_
    obtain ⟨checked, isChecked, rfl⟩ := map_eq_ok found
    obtain ⟨inScope, erased⟩ := action_passed isChecked
    exact ⟨rfl, by rw [Stmt.erase, Stmt.erase, erased], trivial, fun _ => inScope⟩
  | .returnValue span value =>
    rw [statement]
    refine pureCheck_meets sound ((returnedValue_sincere _ _ _).map _) rfl rfl rfl
      fun after found => ?_
    obtain ⟨checked, isChecked, rfl⟩ := map_eq_ok found
    obtain ⟨type, returns, passed⟩ := returnedValue_passed isChecked
    exact ⟨rfl, by rw [Stmt.erase, Stmt.erase, passed.erased], trivial,
      fun _ agrees => ⟨type, returns, passed.typed agrees⟩⟩
  | .declaration span made =>
    rw [statement]
    refine Meets.bind (declaration_meets sound inside made) ?_
    rintro checked ⟨soundChecked, size, erased, accepted⟩
    refine Meets.pure ⟨⟨soundChecked, Nat.le_of_eq size.symm, fun _ => nofun⟩,
      congrArg (Stmt.declaration span) erased, fun fine context shows => ?_⟩
    obtain ⟨evolves, passed⟩ := accepted fine
    exact ⟨passed context (shows.lookupVariable?_eq sound.tidy),
      statementUses_of_simple sound.tidy shows rfl (congrArg (Stmt.declaration span) erased),
      trivial, .of_evolves evolves⟩
  | .block span body =>
    rw [statement]
    refine Meets.bind (block_meets sound inside enclosing .block nofun body) ?_
    rintro checked ⟨steady, erased, accepted⟩
    refine Meets.pure ⟨steady, congrArg (Stmt.block span) erased, fun fine context shows => ?_⟩
    have acceptedBody := accepted fine context shows
    exact ⟨acceptedBody.inScope, acceptedBody.uses, acceptedBody.laidOut, acceptedBody.grows⟩
  | .function span header body =>
    rw [statement]
    split
    · refine Meets.ok ⟨⟨sound, Nat.le_refl _, fun unscoped id member => ?_⟩, rfl, nofun⟩
      rw [unscoped] at member
      cases member
    refine ScopeTree.openScope_meets inside nofun fun inner opened => ?_
    have soundInner := opened.sound sound
    refine Meets.bind
      ((parameters_meets soundInner opened.lt_size header.parameters).weaken And.left).with_eq ?_
    rintro ⟨declared, conflicts⟩ ⟨isDeclared, soundDeclared, sameSize, evolves⟩
    dsimp only at soundDeclared sameSize evolves
    refine Meets.bind ((block_meets soundDeclared (sameSize ▸ opened.lt_size) _ .block nofun
      body).weaken And.right) ?_
    rintro checked ⟨steady, erased, accepted⟩
    have steadyInner : Steady inner body.scopes checked.value.scopes checked.tree :=
      ⟨steady.sound, sameSize ▸ steady.size, steady.held⟩
    refine Meets.pure ⟨steadyInner.enclose opened, congrArg (Stmt.function span _) erased,
      fun fine context shows => ?_⟩
    obtain ⟨parametersFine, bodyFine⟩ := List.append_eq_nil_iff.mp fine
    have evolvesInner := evolves parametersFine
    have shown := evolvesInner.shows soundInner.rooted opened.lt_size
      (ScopeTree.Shows.openFunction sound opened rfl)
    exact (accepted bodyFine _ shown).function sound opened isDeclared evolvesInner
  | .conditional _ condition body none | .whileLoop _ condition body =>
    rw [statement]
    refine Meets.bind (block_meets sound inside enclosing _ (by decide) body) ?_
    rintro checked ⟨steady, erased, accepted⟩
    refine Meets.pure ⟨steady, by rw [Stmt.erase, Stmt.erase, expect_erased, erased],
      fun fine context shows => ?_⟩
    obtain ⟨testFine, bodyFine⟩ := List.append_eq_nil_iff.mp fine
    obtain ⟨test, isTest⟩ := (expect_sincere _ _).eq_ok testFine
    have passed := expect_passed isTest
    have typed := passed.typed (shows.lookupVariable?_eq sound.tidy)
    have acceptedBody := accepted bodyFine context shows
    rw [isTest, valueOr]
    refine ⟨⟨typed, acceptedBody.inScope⟩, ?_, acceptedBody.laidOut, acceptedBody.grows⟩
    rw [statementUses, denoted_eq sound.tidy shows, ← eq_of_erase Expr.names_erase passed.erased]
    exact bind_eq_ok_iff.mpr ⟨_, acceptedBody.uses, rfl⟩
  | .conditional span condition first (some second) =>
    rw [statement]
    refine Meets.bind ((block_meets sound inside enclosing .consequent nofun first).weaken
      And.left).with_eq ?_
    rintro checked ⟨isChecked, steady, erased, accepted⟩
    have insideChecked : scope < checked.tree.size := Nat.lt_of_lt_of_le inside steady.size
    refine Meets.bind ((block_meets steady.sound insideChecked enclosing .alternative nofun
      second).weaken And.right) ?_
    rintro other ⟨steadyOther, erasedOther, acceptedOther⟩
    refine Meets.pure ⟨steady.trans steadyOther,
      by rw [Stmt.erase, Stmt.erase, expect_erased, erased, erasedOther],
      fun fine context shows => ?_⟩
    obtain ⟨firstFine, secondFine⟩ := List.append_eq_nil_iff.mp fine
    obtain ⟨testFine, firstFine⟩ := List.append_eq_nil_iff.mp firstFine
    obtain ⟨test, isTest⟩ := (expect_sincere _ _).eq_ok testFine
    have passed := expect_passed isTest
    have typed := passed.typed (shows.lookupVariable?_eq sound.tidy)
    have acceptedFirst := accepted firstFine context shows
    have shown := acceptedFirst.grows.shows sound.rooted inside shows
    rw [Context.declare_nil] at shown
    have acceptedSecond := acceptedOther secondFine context shown
    have laidOutFirst := acceptedFirst.laidOut.congr
      (acceptedFirst.grows.kept_scopes acceptedSecond.grows.toEvolves inside)
    have sameFunctions := lookupFunction?_eq sound.rooted acceptedFirst.grows.toEvolves
    rw [isTest, valueOr]
    refine ⟨⟨typed, acceptedFirst.inScope, sameFunctions ▸ acceptedSecond.inScope⟩, ?_,
      ⟨laidOutFirst, acceptedSecond.laidOut⟩, acceptedFirst.grows.trans acceptedSecond.grows⟩
    rw [statementUses, denoted_eq sound.tidy shows, ← eq_of_erase Expr.names_erase passed.erased]
    exact bind_eq_ok_iff.mpr ⟨_, acceptedFirst.uses, bind_eq_ok_iff.mpr ⟨_, isChecked,
      bind_eq_ok_iff.mpr ⟨_, acceptedSecond.uses, rfl⟩⟩⟩
  | .forLoop span init condition update (.mk position old body) =>
    rw [statement]
    refine ScopeTree.openScope_meets inside nofun fun inner opened => ?_
    refine Meets.bind
      ((loopInit_meets (opened.sound sound) opened.lt_size init).weaken And.left).with_eq ?_
    rintro start ⟨isStart, soundStart, sameSize, initErased, acceptedStart⟩
    refine Meets.bind ((statements_meets soundStart (sameSize ▸ opened.lt_size) enclosing
      body).weaken And.right) ?_
    rintro checked ⟨steady, erased, accepted⟩
    have steadyInner : Steady inner (scopesOf body) (scopesOf checked.value) checked.tree :=
      ⟨steady.sound, sameSize ▸ steady.size, steady.held⟩
    refine Meets.pure ⟨steadyInner.enclose opened, by
      rw [Stmt.erase, Stmt.erase, Block.erase, Block.erase, initErased, expect_erased,
        loopUpdate_erased, erased], fun fine context shows => ?_⟩
    obtain ⟨fine, bodyFine⟩ := List.append_eq_nil_iff.mp fine
    obtain ⟨fine, stepFine⟩ := List.append_eq_nil_iff.mp fine
    obtain ⟨startFine, testFine⟩ := List.append_eq_nil_iff.mp fine
    obtain ⟨test, isTest⟩ := (expect_sincere _ _).eq_ok testFine
    obtain ⟨step, isStep⟩ := (loopUpdate_sincere _).eq_ok stepFine
    obtain ⟨evolves, initInScope⟩ := acceptedStart startFine
    rw [isTest, isStep, valueOr, valueOr]
    exact AcceptedAll.forLoop sound opened shows isStart soundStart evolves initInScope initErased
      isTest isStep erased (accepted bodyFine)

theorem block_meets {tree : ScopeTree} {scope : ScopeId} (sound : tree.Sound)
    (inside : scope < tree.size) (enclosing : Enclosing) (kind : ScopeKind)
    (notFunction : kind ≠ .function) (before : Block) :
    Meets before.Sized
      (fun checked => Steady tree before.scopes checked.value.scopes checked.tree ∧
        checked.value.erase = before.erase ∧
        (checked.complaints = [] → ∀ context, tree.Shows scope context →
          AcceptedBlock tree scope enclosing kind context before checked.value checked.tree))
      (block tree scope enclosing kind before) := by
  match before with
  | .mk position old body =>
    rw [block]
    refine ScopeTree.openScope_meets inside (absurd · notFunction) fun inner opened => ?_
    refine Meets.bind (statements_meets (opened.sound sound) opened.lt_size enclosing body) ?_
    rintro checked ⟨steady, erased, accepted⟩
    refine Meets.pure ⟨steady.enclose opened, congrArg (Block.mk position none) erased,
      fun fine context shows => ?_⟩
    exact (accepted fine _ (shows.open sound opened notFunction)).block sound opened erased

theorem statements_meets {tree : ScopeTree} {scope : ScopeId} (sound : tree.Sound)
    (inside : scope < tree.size) (enclosing : Enclosing) (before : List Stmt) :
    Meets (allSized before)
      (fun checked => Steady tree (scopesOf before) (scopesOf checked.value) checked.tree ∧
        eraseAll checked.value = eraseAll before ∧
        (checked.complaints = [] → ∀ context, tree.Shows scope context →
          AcceptedAll tree scope enclosing context before checked.value checked.tree))
      (statements tree scope enclosing before) := by
  match before with
  | [] =>
    refine Meets.ok ⟨⟨sound, Nat.le_refl _, fun _ => nofun⟩, rfl, fun _ context shows => ?_⟩
    exact ⟨trivial, rfl, trivial, .of_evolves .refl⟩
  | first :: rest =>
    rw [statements]
    refine Meets.bind ((statement_meets sound inside enclosing first).weaken And.left).with_eq ?_
    rintro checked ⟨isChecked, steady, erased, accepted⟩
    have insideChecked : scope < checked.tree.size := Nat.lt_of_lt_of_le inside steady.size
    refine Meets.bind
      ((statements_meets steady.sound insideChecked enclosing rest).weaken And.right) ?_
    rintro others ⟨steadyOthers, erasedOthers, acceptedOthers⟩
    refine Meets.pure ⟨steady.trans steadyOthers, by rw [eraseAll, eraseAll, erased, erasedOthers],
      fun fine context shows => ?_⟩
    obtain ⟨firstFine, restFine⟩ := List.append_eq_nil_iff.mp fine
    have acceptedFirst := accepted firstFine context shows
    have shown := acceptedFirst.grows.shows sound.rooted inside shows
    exact acceptedFirst.cons sound inside isChecked erased (acceptedOthers restFine _ shown)

end

/-! ### Programs -/

/-- The symbol that a function is declared as. -/
def functionEntry (header : Header) : String × Symbol :=
  (header.name.value, .function (signatureOf header))

/-- Declaring a function adds it to the global scope, unless its name is reserved or taken. -/
theorem declareFunction_meets (sound : tree.Sound) (found : tree.row? ScopeTree.global = some row)
    (header : Header) :
    Meets safe
      (fun result => result.1.Sound ∧ result.1.size = tree.size ∧
        ∃ after, result.1.row? ScopeTree.global = some after ∧ after.locals = row.locals ∧
          (result.2 = [] ↔
            header.name.value ≠ "main" ∧ header.name.value ∉ row.symbols.map Prod.fst) ∧
          (result.2 = [] → after = row.defining header.name.value (signatureOf header)))
      (declareFunction tree header) := by
  unfold declareFunction
  dsimp only
  split
  · rename_i reserved
    exact Meets.pure ⟨sound, rfl, row, found, rfl, iff_of_false nofun fun both => both.1 reserved,
      nofun⟩
  rename_i unreserved
  have tidy := sound.tidy found
  have room : row.declaredSlots + 0 < Counter.bound := tidy.fits
  have counted : Meets safe (fun cells => cells = 0 ∧ True)
      (Symbol.function (signatureOf header)).slots := Meets.ok ⟨rfl, trivial⟩
  refine Meets.bind (ScopeTree.declare_meets found counted) ?_
  rintro result ⟨decides, made⟩
  rw [and_iff_left room] at decides
  cases result with
  | error conflict =>
    refine Meets.pure ⟨sound, rfl, row, found, rfl, iff_of_false nofun fun both => ?_, nofun⟩
    obtain ⟨declared, same⟩ := decides.mpr (Scope.find?_eq_none_iff.mpr both.2)
    cases same
  | ok declared =>
    obtain ⟨_, size, rows⟩ := made declared rfl
    have absent := decides.mp ⟨declared, rfl⟩
    refine Meets.pure ⟨sound.update found rows rfl rfl rfl (tidy.defining absent), size, _,
      (congrFun rows _).trans (Function.update_self ..), Scope.locals_defining _,
      iff_of_true rfl ⟨unreserved, Scope.find?_eq_none_iff.mp absent⟩, fun _ => rfl⟩

/-- The functions of the global scope are those declared ahead of the program. There is nothing
to complain about if their names are distinct, new and not reserved. -/
theorem declareFunctions_meets (sound : tree.Sound) (found : tree.row? ScopeTree.global = some row)
    (statements : List Stmt) :
    Meets safe
      (fun result => result.1.Sound ∧ result.1.size = tree.size ∧
        ∃ after, result.1.row? ScopeTree.global = some after ∧ after.locals = row.locals ∧
          (result.2 = [] ↔ "main" ∉ functionNames statements ∧
            (row.symbols.map Prod.fst ++ functionNames statements).Nodup) ∧
          (result.2 = [] → after.symbols = row.symbols ++
            (statements.filterMap Stmt.header?).map functionEntry))
      (declareFunctions tree statements) := by
  fun_induction declareFunctions tree statements generalizing row with
  | case1 tree =>
    refine Meets.ok ⟨sound, rfl, row, found, rfl, iff_of_true rfl ⟨List.not_mem_nil, ?_⟩,
      fun _ => (List.append_nil _).symm⟩
    rw [functionNames, List.filterMap_nil, List.map_nil, List.append_nil]
    exact (sound.tidy found).distinct
  | case2 tree span header body rest inductionHypothesis =>
    have names : functionNames (.function span header body :: rest) =
        header.name.value :: functionNames rest := rfl
    refine Meets.bind (declareFunction_meets sound found header) ?_
    rintro ⟨declared, first⟩
      ⟨soundDeclared, size, middle, foundMiddle, sameLocals, decides, defines⟩
    dsimp only at decides defines foundMiddle
    refine Meets.bind (inductionHypothesis declared soundDeclared foundMiddle) ?_
    rintro ⟨grown, others⟩ ⟨soundGrown, sameSize, after, foundAfter, stillSame, decidesRest, known⟩
    refine Meets.pure ⟨soundGrown, sameSize.trans size, after, foundAfter,
      stillSame.trans sameLocals, ?_, fun fine => ?_⟩
    · have keys (fine : first = []) : middle.symbols.map Prod.fst ++ functionNames rest =
          row.symbols.map Prod.fst ++ functionNames (.function span header body :: rest) := by
        rw [defines fine, names]
        simp [Scope.defining]
      rw [List.append_eq_nil_iff, and_congr_right fun fine => keys fine ▸ decidesRest, decides,
        names, List.mem_cons, not_or]
      constructor
      · rintro ⟨⟨unreserved, _⟩, unreservedRest, distinct⟩
        exact ⟨⟨unreserved.symm, unreservedRest⟩, distinct⟩
      · rintro ⟨⟨unreserved, unreservedRest⟩, distinct⟩
        refine ⟨⟨Ne.symm unreserved, fun member => ?_⟩, unreservedRest, distinct⟩
        exact (List.nodup_append.mp distinct).2.2 _ member _ List.mem_cons_self rfl
    · obtain ⟨firstFine, restFine⟩ := List.append_eq_nil_iff.mp fine
      have headers : (Stmt.function span header body :: rest).filterMap Stmt.header? =
          header :: rest.filterMap Stmt.header? := rfl
      rw [known restFine, defines firstFine, headers]
      simp [Scope.defining, functionEntry]
  | case3 tree other rest notFunction inductionHypothesis =>
    have noHeader : other.header? = none := by
      cases other with
      | function span header body => exact absurd rfl (notFunction span header body)
      | _ => rfl
    rw [functionNames, List.filterMap_cons_none noHeader]
    exact inductionHypothesis sound found

/-- Functions are found under their names. -/
theorem lookup_functionEntry (headers : List Header) (name : String) :
    ((headers.map functionEntry).lookup name).bind Symbol.asFunction? =
      (headers.find? fun header => header.name.value == name).map signatureOf := by
  induction headers with
  | nil => rfl
  | cons header rest inductionHypothesis =>
    rw [List.map_cons, functionEntry, List.lookup_cons, List.find?_cons,
      BEq.comm (a := name) (b := header.name.value)]
    cases header.name.value == name with
    | true => rfl
    | false => exact inductionHypothesis

/-- Before a program is checked nothing is visible, and its functions are known if there is
nothing to complain about. -/
theorem declareFunctions_initial_meets (statements : List Stmt) :
    Meets safe
      (fun result => result.1.Sound ∧ result.1.size = ScopeTree.initial.size ∧
        (∃ row, result.1.row? ScopeTree.global = some row ∧ row.locals = []) ∧
        result.1.Shows ScopeTree.global [{ scope := ScopeTree.global, vars := [] }] ∧
        (result.2 = [] ↔ "main" ∉ functionNames statements ∧ (functionNames statements).Nodup) ∧
        (result.2 = [] → result.1.lookupFunction? = functionsOf statements))
      (declareFunctions .initial statements) := by
  refine Meets.mono (declareFunctions_meets ScopeTree.sound_initial rfl statements) ?_
  rintro ⟨declared, conflicts⟩ ⟨sound, size, row, found, empty, decides, defines⟩
  refine ⟨sound, size, ⟨row, found, empty⟩, ScopeTree.shows_global sound found empty, decides,
    fun fine => funext fun name => ?_⟩
  rw [ScopeTree.lookupFunction?, ScopeTree.functionIn?_eq, found, Option.bind_some,
    Scope.findFunction?, Scope.find?, defines fine]
  exact lookup_functionEntry _ name

end Typing

/-- A tree and the statements of an analysed program belong together: every name in the program
denotes something, the tree lays it out, and the arguments of every function fit in a frame. -/
structure Consistent (tree : ScopeTree) (statements : List Stmt) : Prop where
  sound : tree.Sound
  inScope :
    allScoped tree.lookupFunction? none [{ scope := ScopeTree.global, vars := [] }] statements
  laidOut : allLaidOut tree ScopeTree.global statements
  globals : ∃ row, tree.row? ScopeTree.global = some row ∧
    row.locals = unplaced (declaredBy statements)
  distinct : (scopesOf statements).Nodup
  held : ∀ id ∈ scopesOf statements, (id : Nat) < tree.size
  inner : ∀ id ∈ scopesOf statements, id ≠ ScopeTree.global
  callable : ∀ name signature, tree.lookupFunction? name = some signature →
    signature.argumentSlots? = .ok (some signature.cells)

namespace Typing

/-- The arguments of a function fit in a frame, since its parameters do. -/
theorem argumentSlots?_of_opens {tree : ScopeTree} (sound : tree.Sound) {scope around : ScopeId}
    (opens : tree.Opens scope around kind name (parameterVars header.parameters)) :
    (signatureOf header).argumentSlots? = .ok (some (signatureOf header).cells) := by
  obtain ⟨row, found, _, _, _, _, localsOf⟩ := opens
  have tidy := sound.tidy found
  have sized := tidy.sized
  have counted := tidy.counted
  have fits := tidy.fits
  rw [counted, localsOf] at fits
  rw [localsOf] at sized
  rw [Signature.argumentSlots?, Signature.cells,
    ← Nat.zero_add (((signatureOf header).parameters.map Ty.size).sum)]
  refine frameTotal?_eq ?_ ?_
  · intro type member
    obtain ⟨parameter, isParameter, rfl⟩ := List.mem_map.mp member
    exact sized (parameter.name.value, { type := parameter.type.value })
      (List.mem_map_of_mem (List.mem_map_of_mem isParameter))
  · simpa [unplaced, parameterVars, signatureOf, Function.comp_def] using fits

/-- Checking a program does not fault if counters can hold its types. A program without
complaints belongs to its tree. -/
theorem program_meets (before : Program) :
    Meets (allSized before.statements)
      (fun checked =>
        Steady .initial (scopesOf before.statements) (scopesOf checked.value.statements)
          checked.tree ∧
        eraseAll checked.value.statements = eraseAll before.statements ∧
        (checked.complaints = [] → Consistent checked.tree checked.value.statements))
      (program before) := by
  refine Meets.bind (declareFunctions_initial_meets before.statements) ?_
  rintro ⟨declared, conflicts⟩ ⟨sound, size, ⟨row, found, empty⟩, shows, _, known⟩
  dsimp only at sound size found shows known
  refine Meets.bind (statements_meets sound sound.rooted.global_lt none before.statements) ?_
  rintro checked ⟨steady, erased, accepted⟩
  refine Meets.pure ⟨⟨steady.sound, size ▸ steady.size, steady.held⟩, erased, fun fine => ?_⟩
  obtain ⟨noConflicts, allFine⟩ := List.append_eq_nil_iff.mp fine
  have acceptedAll := accepted allFine _ shows
  have sameFunctions := lookupFunction?_eq sound.rooted acceptedAll.grows.toEvolves
  refine ⟨steady.sound, sameFunctions ▸ acceptedAll.inScope, acceptedAll.laidOut, ?_,
    acceptedAll.grows.distinct, fun id member => (acceptedAll.grows.fresh id member).2, ?_, ?_⟩
  · refine ⟨_, acceptedAll.grows.here found, ?_⟩
    rw [Scope.locals_declaring, empty, declaredBy_eq_of_erase erased]
    rfl
  · intro id member isGlobal
    have range := (acceptedAll.grows.fresh id member).1
    rw [isGlobal] at range
    exact absurd sound.rooted.global_lt (Nat.not_lt_of_le range)
  · intro name signature named
    rw [sameFunctions, known noConflicts] at named
    obtain ⟨header, isHeader, rfl⟩ := Option.map_eq_some_iff.mp named
    obtain ⟨span, body, member⟩ := exists_function_of_header (List.mem_of_find?_eq_some isHeader)
    have erasedMember : (Stmt.function span header body).erase ∈ eraseAll checked.value := by
      rw [erased, eraseAll_eq_map]
      exact List.mem_map_of_mem member
    rw [eraseAll_eq_map] at erasedMember
    obtain ⟨statement, isStatement, same⟩ := List.mem_map.mp erasedMember
    obtain ⟨opened, inside, rfl⟩ := Stmt.eq_function_of_erase same
    obtain ⟨_, _, opens, _⟩ := acceptedAll.laidOut.of_mem isStatement
    exact argumentSlots?_of_opens steady.sound opens

end Typing

end PadLang
