/-
This file shows that errors in one statement do not lead to errors in others.

Two programs may differ in the expressions of one statement. The checker then comes to every
statement with the same scopes in both, whatever it has found in that one. So it builds the same
scopes and makes the same complaints in the same order, apart from those about the statement
itself. The pass over the return paths removes the same statements and warns about the same lines.
-/

import PadLang.Proofs.Analysis
import PadLang.Proofs.Blanks

namespace PadLang

namespace Typing

variable {two one : Stmt} {α : Type}

/-! ### Complaints about one statement -/

/-- The circumstances in which a statement is checked: the scopes so far, the scope that it stands
in and the function around it. -/
structure Situation where
  tree : ScopeTree
  scope : ScopeId
  enclosing : Enclosing

/-- Checks a statement in a situation. -/
def Situation.check (situation : Situation) (before : Stmt) : Except Fault (Checked Stmt) :=
  statement situation.tree situation.scope situation.enclosing before

/-- Checks a block in a situation. -/
def Situation.checkBlock (kind : ScopeKind) (situation : Situation) (before : Block) :
    Except Fault (Checked Block) :=
  block situation.tree situation.scope situation.enclosing kind before

/-- Checks statements in a situation. -/
def Situation.checkAll (situation : Situation) (before : List Stmt) :
    Except Fault (Checked (List Stmt)) :=
  statements situation.tree situation.scope situation.enclosing before

/-- The situation inside a block. -/
def Situation.enter (situation : Situation) (kind : ScopeKind) : Except Fault Situation := do
  let (opened, inner) ← situation.tree.openScope situation.scope kind none
  return { situation with tree := inner, scope := opened }

/-- The complaints about a statement itself, without those about the statements in its blocks. -/
def ownComplaints (situation : Situation) : Stmt → Except Fault Complaints
  | .assignment _ made => .ok (complaintsOf (assignment situation.tree situation.scope made))
  | .declaration _ made => do
    return (← declaration situation.tree situation.scope made).complaints
  | .action _ done => .ok (complaintsOf (action situation.tree situation.scope done))
  | .returnValue span value =>
    .ok (complaintsOf
      (returnedValue situation.tree situation.scope situation.enclosing span.first value))
  | .block _ _ => .ok []
  | .function _ header _ =>
    if situation.scope ≠ ScopeTree.global then
      .ok [{ position := header.name.position, value := .nestedFunction header.name.value }]
    else do
      let (opened, inner) ←
        situation.tree.openScope situation.scope .function (some header.name.value)
      let (_, conflicts) ← parameters inner opened header.parameters
      return conflicts
  | .conditional _ condition _ _ | .whileLoop _ condition _ =>
    .ok (complaintsOf (expect situation.tree situation.scope condition .bool))
  | .forLoop _ init condition update _ => do
    let entered ← situation.enter .forLoop
    let start ← loopInit entered.tree entered.scope init
    return start.complaints ++ complaintsOf (expect start.tree entered.scope condition .bool) ++
      complaintsOf (loopUpdate start.tree entered.scope update)

/-- What is reported about the statements of the block that goes into a casing. The body of a
function that does not stand at the top level is not looked at. -/
def reportInside (report : Situation → Except Fault Complaints) (situation : Situation) :
    Casing → Except Fault Complaints
  | .block _ => do report (← situation.enter .block)
  | .function _ header =>
    if situation.scope ≠ ScopeTree.global then .ok []
    else do
      let (opened, inner) ←
        situation.tree.openScope situation.scope .function (some header.name.value)
      let (declared, _) ← parameters inner opened header.parameters
      let called : Situation :=
        { tree := declared, scope := opened
          enclosing := some (header.name.value, header.returns.value) }
      report (← called.enter .block)
  | .consequent _ _ _ => do report (← situation.enter .consequent)
  | .alternative _ _ first => do
    let checked ← situation.checkBlock .consequent first
    report (← { situation with tree := checked.tree : Situation }.enter .alternative)
  | .forLoop _ init _ _ => do
    let entered ← situation.enter .forLoop
    let start ← loopInit entered.tree entered.scope init
    report { entered with tree := start.tree }
  | .whileLoop _ _ => do report (← situation.enter .whileLoop)

/-- The complaints about the statement in a gap itself. -/
def reportAt (statement : Stmt) : Gap → Situation → Except Fault Complaints
  | .here _, situation => ownComplaints situation statement
  | .next first inner, situation => do
    let checked ← situation.check first
    reportAt statement inner { situation with tree := checked.tree }
  | .within casing _ _ inner _, situation =>
    reportInside (reportAt statement inner) situation casing

/-- The complaints about the statement in a gap of a program itself. -/
def reportIn (gap : Gap) (statement : Stmt) : Except Fault Complaints := do
  let (declared, _) ← declareFunctions .initial (gap.fill statement)
  reportAt statement gap { tree := declared, scope := ScopeTree.global, enclosing := none }

/-! ### Checks that differ in one place -/

/-- Two checks leave the same scopes and make the same complaints in the same order, apart from
those that are reported about one place. -/
structure Isolated {α : Type} (similar : α → α → Prop) (own other : Except Fault Complaints)
    (one two : Checked α) : Prop where
  tree_eq : one.tree = two.tree
  value : similar one.value two.value
  complaints : ∃ before mine yours after, own = .ok mine ∧ other = .ok yours ∧
    one.complaints = before ++ mine ++ after ∧ two.complaints = before ++ yours ++ after

namespace Isolated

variable {α β : Type} {similar : α → α → Prop} {wider : β → β → Prop}
  {own other : Except Fault Complaints} {one two : Checked α} {first second : β}

/-- More is checked before and after, in the same way. -/
theorem surround (isolated : Isolated similar own other one two) (ahead behind : Complaints)
    (tree : ScopeTree) (value : wider first second) :
    Isolated wider own other ⟨first, tree, ahead ++ one.complaints ++ behind⟩
      ⟨second, tree, ahead ++ two.complaints ++ behind⟩ := by
  obtain ⟨before, mine, yours, after, isOwn, isOther, isOne, isTwo⟩ := isolated.complaints
  refine ⟨rfl, value, ahead ++ before, mine, yours, after ++ behind, isOwn, isOther, ?_, ?_⟩
  · simp only [isOne, List.append_assoc]
  · simp only [isTwo, List.append_assoc]

/-- More is checked before. -/
theorem enclose (isolated : Isolated similar own other one two) (ahead : Complaints)
    (value : wider first second) :
    Isolated wider own other ⟨first, one.tree, ahead ++ one.complaints⟩
      ⟨second, two.tree, ahead ++ two.complaints⟩ := by
  have surrounded := isolated.surround ahead [] two.tree value
  rw [List.append_nil, List.append_nil] at surrounded
  rwa [isolated.tree_eq]

end Isolated

/-! ### The statement itself -/

variable {tree : ScopeTree} {scope : ScopeId}

theorem complaintsOf_map {β : Type} (result : Except Complaints α) (change : α → β) :
    complaintsOf (result.map change) = complaintsOf result := by
  cases result <;> rfl

theorem assignment_blank {made after : Assignment}
    (isChecked : assignment tree scope made = .ok after) : after.blank = made.blank := by
  obtain ⟨target, index, value⟩ := made
  obtain ⟨type, _, isChecked⟩ := bind_eq_ok_iff.mp isChecked
  cases index with
  | none =>
    obtain ⟨_, _, ⟨⟩⟩ := bind_eq_ok_iff.mp isChecked
    rfl
  | some index =>
    obtain ⟨_, _, isChecked⟩ := bind_eq_ok_iff.mp isChecked
    obtain ⟨_, _, isChecked⟩ := bind_eq_ok_iff.mp isChecked
    obtain ⟨_, _, ⟨⟩⟩ := bind_eq_ok_iff.mp isChecked
    rfl

theorem action_blank {done after : Action} (isChecked : action tree scope done = .ok after) :
    after.blank = done.blank := by
  cases done <;> simp only [action, bind_eq_ok_iff, pure, Except.pure, Except.ok.injEq]
    at isChecked <;> grind [Action.blank]

theorem loopUpdate_blank (update : Option Assignment) :
    (valueOr update (loopUpdate tree scope update)).map Assignment.blank =
      update.map Assignment.blank := by
  cases update with
  | none => rfl
  | some made =>
    rw [loopUpdate]
    cases isChecked : assignment tree scope made with
    | error _ => rfl
    | ok after => exact congrArg some (assignment_blank isChecked)

theorem declaration_blank {made : Declaration} :
    Paired (fun one two => one.tree = two.tree ∧ one.value.blank = two.value.blank)
      (declaration tree scope made) (declaration tree scope made.blank) := by
  rw [declaration, declaration]
  exact Paired.after fun _ _ => ⟨rfl, rfl⟩

theorem loopInit_blank (init : Option Declaration) :
    Paired (fun one two => one.tree = two.tree ∧
        one.value.map Declaration.blank = two.value.map Declaration.blank)
      (loopInit tree scope init) (loopInit tree scope (init.map Declaration.blank)) := by
  cases init with
  | none => exact ⟨rfl, rfl⟩
  | some made =>
    exact declaration_blank.bind fun _ _ _ _ agree => ⟨agree.1, congrArg some agree.2⟩

/-- A statement is checked with its expressions and without them. All complaints about the
statement itself come first, and everything else is the same. -/
structure Blanked (situation : Situation) (before : Stmt) (one two : Checked Stmt) : Prop where
  tree_eq : one.tree = two.tree
  value_eq : one.value.blank = two.value.blank
  complaints : ∃ mine yours after, ownComplaints situation before = .ok mine ∧
    ownComplaints situation before.blank = .ok yours ∧ one.complaints = mine ++ after ∧
    two.complaints = yours ++ after

theorem Blanked.pureCheck {situation : Situation} {before : Stmt}
    {result other : Except Complaints α} {build : α → Stmt}
    (isOwn : ownComplaints situation before = .ok (complaintsOf result))
    (isOther : ownComplaints situation before.blank = .ok (complaintsOf other))
    (kept : ∀ after, result = .ok after → (build after).blank = before.blank)
    (otherKept : ∀ after, other = .ok after → (build after).blank = before.blank.blank) :
    Blanked situation before (Typing.pureCheck tree before (result.map build))
      (Typing.pureCheck tree before.blank (other.map build)) := by
  have keeps {start : Stmt} {result : Except Complaints α}
      (kept : ∀ after, result = .ok after → (build after).blank = start.blank) :
      (valueOr start (result.map build)).blank = start.blank := by
    cases result with
    | ok after => exact kept after rfl
    | error _ => rfl
  refine ⟨rfl, (keeps kept).trans (before.blank_blank.symm.trans (keeps otherKept).symm), _, _, [],
    isOwn, isOther, ?_, ?_⟩
  · rw [List.append_nil, Typing.pureCheck, complaintsOf_map]
  · rw [List.append_nil, Typing.pureCheck, complaintsOf_map]

theorem check_blank (situation : Situation) (before : Stmt) :
    Paired (Blanked situation before) (situation.check before) (situation.check before.blank) := by
  rw [Situation.check, Situation.check]
  cases before with
  | assignment span made =>
    rw [Stmt.blank, statement, statement]
    exact .pureCheck rfl rfl
      (fun _ isChecked => congrArg (Stmt.assignment span) (assignment_blank isChecked))
      (fun _ isChecked => congrArg (Stmt.assignment span) (assignment_blank isChecked))
  | declaration span made =>
    rw [Stmt.blank, statement, statement]
    refine declaration_blank.bind fun one two isOne isTwo agree => ?_
    exact ⟨agree.1, congrArg (Stmt.declaration span) agree.2, _, _, [],
      bind_eq_ok_iff.mpr ⟨one, isOne, rfl⟩, bind_eq_ok_iff.mpr ⟨two, isTwo, rfl⟩,
      (List.append_nil _).symm, (List.append_nil _).symm⟩
  | action span done =>
    rw [Stmt.blank, statement, statement]
    exact .pureCheck rfl rfl
      (fun _ isChecked => congrArg (Stmt.action span) (action_blank isChecked))
      (fun _ isChecked => congrArg (Stmt.action span) (action_blank isChecked))
  | returnValue span value =>
    rw [Stmt.blank, statement, statement]
    exact .pureCheck rfl rfl (fun _ _ => rfl) (fun _ _ => rfl)
  | block span body =>
    exact Paired.self fun checked _ => ⟨rfl, rfl, [], [], checked.complaints, rfl, rfl, rfl, rfl⟩
  | function span header body =>
    rw [Stmt.blank, statement]
    split
    · next nested =>
      exact ⟨rfl, rfl, _, _, [], if_pos nested, if_pos nested, rfl, rfl⟩
    · next atTop =>
      refine Paired.after ?_
      rintro ⟨opened, inner⟩ isOpened
      refine Paired.after ?_
      rintro ⟨declared, conflicts⟩ areDeclared
      have isOwn : ownComplaints situation (.function span header body) = .ok conflicts :=
        (if_neg atTop).trans
          (bind_eq_ok_iff.mpr ⟨_, isOpened, bind_eq_ok_iff.mpr ⟨_, areDeclared, rfl⟩⟩)
      exact Paired.after fun checked _ =>
        ⟨rfl, rfl, conflicts, conflicts, checked.complaints, isOwn, isOwn, rfl, rfl⟩
  | conditional span condition consequent second =>
    cases second with
    | none =>
      rw [Stmt.blank, statement, statement]
      exact Paired.after fun first _ => ⟨rfl, rfl, _, _, first.complaints, rfl, rfl, rfl, rfl⟩
    | some second =>
      rw [Stmt.blank, statement, statement]
      exact Paired.after fun first _ => Paired.after fun second _ =>
        ⟨rfl, rfl, _, _, first.complaints ++ second.complaints, rfl, rfl,
          List.append_assoc _ _ _, List.append_assoc _ _ _⟩
  | forLoop span init condition update body =>
    obtain ⟨position, scope, body⟩ := body
    rw [Stmt.blank, statement, statement]
    refine Paired.after ?_
    rintro ⟨opened, inner⟩ isOpened
    refine (loopInit_blank init).bind ?_
    rintro ⟨start, grown, complaints⟩ ⟨otherStart, _, otherComplaints⟩ isStart isOther
      ⟨rfl, sameStart⟩
    have isEntered : situation.enter .forLoop =
        .ok { situation with tree := inner, scope := opened } :=
      bind_eq_ok_iff.mpr ⟨_, isOpened, rfl⟩
    refine Paired.after fun checked _ => ⟨rfl, ?_, _, _, checked.complaints,
      bind_eq_ok_iff.mpr ⟨_, isEntered, bind_eq_ok_iff.mpr ⟨_, isStart, rfl⟩⟩,
      bind_eq_ok_iff.mpr ⟨_, isEntered, bind_eq_ok_iff.mpr ⟨_, isOther, rfl⟩⟩, rfl, rfl⟩
    have twice : (update.map Assignment.blank).map Assignment.blank =
        update.map Assignment.blank := by
      cases update <;> rfl
    dsimp only [Stmt.blank]
    rw [sameStart, loopUpdate_blank, loopUpdate_blank, twice]
  | whileLoop span condition body =>
    rw [Stmt.blank, statement, statement]
    exact Paired.after fun checked _ => ⟨rfl, rfl, _, _, checked.complaints, rfl, rfl, rfl, rfl⟩

/-- A statement with other expressions is checked as before, apart from the complaints about
them. -/
theorem check_here (same : one.blank = two.blank) (situation : Situation) :
    Paired (Isolated Stmt.Similar (ownComplaints situation one) (ownComplaints situation two))
      (situation.check one) (situation.check two) := by
  refine ((check_blank situation one).join (same ▸ check_blank situation two)).mono ?_
  rintro first second ⟨shared, left, right⟩
  obtain ⟨mine, others, after, isMine, areOthers, isFirst, isShared⟩ := left.complaints
  obtain ⟨yours, _, more, isYours, againOthers, isSecond, againShared⟩ := right.complaints
  rw [same] at areOthers
  obtain rfl := Except.ok.inj (areOthers.symm.trans againOthers)
  obtain rfl := List.append_cancel_left (isShared.symm.trans againShared)
  exact ⟨left.tree_eq.trans right.tree_eq.symm,
    fun rest => .here (left.value_eq.trans right.value_eq.symm) rest,
    [], mine, yours, after, isMine, isYours, isFirst, isSecond⟩

/-! ### The statements around it -/

variable {other own : Situation → Except Fault Complaints}

/-- A statement whose blocks differ in one place is checked as before, apart from what is reported
about that place. -/
theorem check_within (casing : Casing) (position : Position) (scope : Option ScopeId)
    {one two : List Stmt} (similar : Similar one two)
    (inside : ∀ situation, Paired (Isolated Similar (own situation) (other situation))
      (situation.checkAll one) (situation.checkAll two)) (situation : Situation) :
    Paired (Isolated Stmt.Similar (reportInside own situation casing)
        (reportInside other situation casing))
      (situation.check (casing.fill (.mk position scope one)))
      (situation.check (casing.fill (.mk position scope two))) := by
  have blocks (kind : ScopeKind) (situation : Situation) :
      Paired (Isolated (fun first second => ∀ casing : Casing,
            (casing.fill first).Similar (casing.fill second))
          (situation.enter kind >>= own) (situation.enter kind >>= other))
        (situation.checkBlock kind (.mk position scope one))
        (situation.checkBlock kind (.mk position scope two)) := by
    rw [Situation.checkBlock, Situation.checkBlock, block, block]
    refine Paired.after ?_
    rintro ⟨opened, inner⟩ isOpened
    refine (inside { situation with tree := inner, scope := opened }).bind
      fun _ _ _ _ isolated => ?_
    rw [Situation.enter, isOpened]
    exact isolated.enclose [] fun casing => .within casing position (some opened) isolated.value
  rw [Situation.check, Situation.check]
  cases casing with
  | block span =>
    rw [Casing.fill, Casing.fill, statement, statement]
    exact (blocks .block situation).bind fun _ _ _ _ isolated =>
      isolated.enclose [] (isolated.value (.block span))
  | function span header =>
    rw [Casing.fill, Casing.fill, statement, statement, reportInside, reportInside]
    split
    · exact ⟨rfl, fun rest => .within (.function span header) position scope similar rest, [], [],
        [], _, rfl, rfl, rfl, rfl⟩
    · refine Paired.after ?_
      rintro ⟨opened, inner⟩ isOpened
      refine Paired.after ?_
      rintro ⟨declared, conflicts⟩ areDeclared
      refine (blocks .block ⟨declared, opened, _⟩).bind fun _ _ _ _ isolated => ?_
      simp only [isOpened, areDeclared, bind, Except.bind]
      exact isolated.enclose conflicts (isolated.value (.function span _))
  | consequent span condition second =>
    cases second with
    | none =>
      rw [Casing.fill, Casing.fill, statement, statement]
      exact (blocks .consequent situation).bind fun _ _ _ _ isolated =>
        isolated.enclose _ (isolated.value (.consequent span _ none))
    | some second =>
      rw [Casing.fill, Casing.fill, statement, statement]
      refine (blocks .consequent situation).bind fun _ _ _ _ isolated => ?_
      rw [isolated.tree_eq]
      exact Paired.after fun checked _ => isolated.surround _ checked.complaints _
        (isolated.value (.consequent span _ (some checked.value)))
  | alternative span condition first =>
    rw [Casing.fill, Casing.fill, statement, statement, reportInside, reportInside]
    refine Paired.after fun checked isChecked => ?_
    rw [Situation.checkBlock, isChecked]
    exact (blocks .alternative { situation with tree := checked.tree }).bind
      fun _ _ _ _ isolated =>
        isolated.enclose _ (isolated.value (.alternative span _ checked.value))
  | forLoop span init condition update =>
    rw [Casing.fill, Casing.fill, statement, statement, reportInside, reportInside]
    refine Paired.after ?_
    rintro ⟨opened, inner⟩ isOpened
    refine Paired.after fun start isStart => ?_
    refine (inside { situation with tree := start.tree, scope := opened }).bind
      fun _ _ _ _ isolated => ?_
    simp only [Situation.enter, isOpened, isStart, bind, Except.bind, pure, Except.pure]
    exact isolated.enclose _
      (fun rest => .within (.forLoop span _ _ _) position (some opened) isolated.value rest)
  | whileLoop span condition =>
    rw [Casing.fill, Casing.fill, statement, statement]
    exact (blocks .whileLoop situation).bind fun _ _ _ _ isolated =>
      isolated.enclose _ (isolated.value (.whileLoop span _))

theorem checkAll_cons
    (first : ∀ situation, Paired (Isolated Stmt.Similar (own situation) (other situation))
      (situation.check one) (situation.check two)) (situation : Situation) (rest : List Stmt) :
    Paired (Isolated Similar (own situation) (other situation))
      (situation.checkAll (one :: rest)) (situation.checkAll (two :: rest)) := by
  rw [Situation.checkAll, Situation.checkAll, statements, statements]
  refine (first situation).bind fun _ _ _ _ isolated => ?_
  rw [isolated.tree_eq]
  exact Paired.after fun others _ =>
    isolated.surround [] others.complaints _ (isolated.value others.value)

/-- The complaints about one statement are isolated, wherever it stands. -/
theorem checkAll_isolated (gap : Gap) (same : one.blank = two.blank) (situation : Situation) :
    Paired (Isolated Similar (reportAt one gap situation) (reportAt two gap situation))
      (situation.checkAll (gap.fill one)) (situation.checkAll (gap.fill two)) := by
  induction gap generalizing situation with
  | here rest => exact checkAll_cons (check_here same) situation rest
  | within casing position scope inner rest inductionHypothesis =>
    refine checkAll_cons ?_ situation rest
    exact check_within casing position scope (inner.similar same) inductionHypothesis
  | next first inner inductionHypothesis =>
    rw [Gap.fill, Gap.fill, Situation.checkAll, Situation.checkAll, statements, statements]
    refine Paired.after fun checked isChecked => ?_
    rw [reportAt, reportAt, Situation.check, isChecked]
    exact (inductionHypothesis { situation with tree := checked.tree }).bind
      fun _ _ _ _ isolated =>
        isolated.enclose checked.complaints (.next checked.value isolated.value)

/-! ### Programs -/

theorem declareFunctions_cons (tree : ScopeTree) (first : Stmt) (rest : List Stmt) :
    declareFunctions tree (first :: rest) =
      match first.header? with
      | none => declareFunctions tree rest
      | some header => do
        let (declared, conflicts) ← declareFunction tree header
        let (declared, others) ← declareFunctions declared rest
        return (declared, conflicts ++ others) := by
  cases first <;> rfl

/-- Functions are declared whatever the expressions of a statement are. -/
theorem declareFunctions_twins {one two : List Stmt} (twins : List.Forall₂ Twins one two)
    (tree : ScopeTree) : declareFunctions tree one = declareFunctions tree two := by
  induction twins generalizing tree with
  | nil => rfl
  | cons same _ inductionHypothesis =>
    rw [declareFunctions_cons, declareFunctions_cons, same.header?_eq]
    simp only [inductionHypothesis]

theorem program_isolated (gap : Gap) (same : one.blank = two.blank) :
    Paired (Isolated (fun first second => Similar first.statements second.statements)
        (reportIn gap one) (reportIn gap two))
      (program ⟨gap.fill one⟩) (program ⟨gap.fill two⟩) := by
  rw [program, program, reportIn, reportIn, declareFunctions_twins (gap.similar same).twins]
  refine Paired.after ?_
  rintro ⟨declared, conflicts⟩ areDeclared
  rw [areDeclared]
  exact (checkAll_isolated gap same ⟨declared, ScopeTree.global, none⟩).bind
    fun _ _ _ _ isolated => isolated.enclose conflicts isolated.value

end Typing

/-- Errors in one statement do not lead to errors in others. Two programs that differ in nothing
but the expressions of one statement, its blocks apart, are both checked and pruned, and this comes
to the same: the same scopes, the same complaints in the same order apart from those about the
statement itself, the same statements removed and the same warnings about them. -/
theorem errors_do_not_cascade (gap : Gap) {one two : Stmt} (same : one.blank = two.blank)
    (sized : allSized (gap.fill one)) (bare : scopesOf (gap.fill one) = []) :
    ∃ first second before own other after, Typing.program ⟨gap.fill one⟩ = .ok first ∧
      Typing.program ⟨gap.fill two⟩ = .ok second ∧ Typing.reportIn gap one = .ok own ∧
      Typing.reportIn gap two = .ok other ∧ first.tree = second.tree ∧
      first.complaints = before ++ own ++ after ∧
      second.complaints = before ++ other ++ after ∧
      ∃ pruned otherPruned, ReturnPaths.program first.tree first.value = .ok pruned ∧
        ReturnPaths.program second.tree second.value = .ok otherPruned ∧
        Similar pruned.value.statements otherPruned.value.statements ∧
        pruned.returns = otherPruned.returns ∧ pruned.tree = otherPruned.tree ∧
        pruned.complaints = otherPruned.complaints ∧ pruned.warnings = otherPruned.warnings := by
  obtain ⟨first, isFirst, steady, _⟩ := (Typing.program_meets ⟨gap.fill one⟩).exists_ok sized
  obtain ⟨second, isSecond, sameTree, similar, before, own, other, after, isOwn, isOther,
    complaints⟩ := (Typing.program_isolated gap same).of_ok isFirst
  obtain ⟨pruned, isPruned, _⟩ := (Analysis.pruning_meets steady).exists_ok ⟨sized, bare⟩
  obtain ⟨otherPruned, otherIsPruned, agree⟩ :=
    (ReturnPaths.program_similar similar first.tree).of_ok isPruned
  exact ⟨first, second, before, own, other, after, isFirst, isSecond, isOwn, isOther, sameTree,
    complaints.1, complaints.2, pruned, otherPruned, isPruned, sameTree ▸ otherIsPruned,
    agree.value, agree.returns_eq, agree.tree_eq, agree.complaints_eq, agree.warnings_eq⟩

/-- A loop in a function, with a place at its start. A name that is not declared stands in front of
the function and another behind it, and the loop goes on behind a return. -/
def slippingGap : Gap :=
  let display (name : String) : Stmt :=
    .action ⟨{}, {}⟩ (.print (.var { position := {} } name))
  .next (display "x")
    (.within (.function ⟨{}, {}⟩ ⟨⟨{}, "f"⟩, [], ⟨{}, .int⟩, none⟩) {} none
      (.within (.whileLoop ⟨{}, {}⟩ (.literal { position := {} } (.bool true))) {} none
        (.here [.returnValue ⟨{}, {}⟩ (.var { position := {} } "y"), display "y"]) [])
      [display "z"])

/-- A declaration of a whole number. -/
def slippingDeclaration (value : Literal) : Stmt :=
  .declaration ⟨{}, {}⟩
    { name := ⟨{}, "y"⟩, type := ⟨{}, .int⟩, value := .literal { position := {} } value }

theorem slippingGap_sized (value : Literal) :
    allSized (slippingGap.fill (slippingDeclaration value)) :=
  ⟨trivial, ⟨List.forall_mem_nil _, ⟨rfl, trivial, trivial, trivial⟩, trivial⟩, trivial, trivial⟩

/-- The value of the declaration is of the wrong type at first. That is one complaint more, and
nothing else comes of it. -/
theorem errors_do_not_cascade_slipping :
    ∃ first second before own other after pruned,
      Typing.program ⟨slippingGap.fill (slippingDeclaration (.bool true))⟩ = .ok first ∧
      Typing.program ⟨slippingGap.fill (slippingDeclaration (.int 1))⟩ = .ok second ∧
      Typing.reportIn slippingGap (slippingDeclaration (.bool true)) = .ok own ∧
      Typing.reportIn slippingGap (slippingDeclaration (.int 1)) = .ok other ∧
      first.complaints = before ++ own ++ after ∧
      second.complaints = before ++ other ++ after ∧
      own.length = 1 ∧ other.length = 0 ∧ second.complaints.length = 2 ∧
      first.tree = second.tree ∧
      ReturnPaths.program first.tree first.value = .ok pruned ∧ pruned.complaints.length = 1 ∧
      pruned.warnings.length = 1 := by
  have same : (slippingDeclaration (.bool true)).blank = (slippingDeclaration (.int 1)).blank := rfl
  obtain ⟨first, second, before, own, other, after, isFirst, isSecond, isOwn, isOther, sameTree,
    complaints, otherComplaints, pruned, _, isPruned, _⟩ :=
    errors_do_not_cascade slippingGap same (slippingGap_sized _) rfl
  have seen : ((Typing.program ⟨slippingGap.fill (slippingDeclaration (.bool true))⟩).toOption.map
      fun checked => (ReturnPaths.program checked.tree checked.value).toOption.map fun pruned =>
        (pruned.complaints.length, pruned.warnings.length)) = some (some (1, 1)) := by
    decide +kernel
  have reported : (Typing.reportIn slippingGap (slippingDeclaration (.bool true))).toOption.map
      List.length = some 1 := by
    decide +kernel
  have unreported : (Typing.reportIn slippingGap (slippingDeclaration (.int 1))).toOption.map
      List.length = some 0 := by
    decide +kernel
  have remaining : (Typing.program ⟨slippingGap.fill (slippingDeclaration (.int 1))⟩).toOption.map
      (·.complaints.length) = some 2 := by
    decide +kernel
  simp only [isFirst, isPruned, Except.toOption, Option.map_some, Option.some.injEq,
    Prod.mk.injEq] at seen
  rw [isSecond] at remaining
  rw [isOwn] at reported
  rw [isOther] at unreported
  exact ⟨first, second, before, own, other, after, pruned, isFirst, isSecond, isOwn, isOther,
    complaints, otherComplaints, Option.some.inj reported, Option.some.inj unreported,
    Option.some.inj remaining, sameTree, isPruned, seen⟩

end PadLang
