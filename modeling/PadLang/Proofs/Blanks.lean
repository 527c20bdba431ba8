/-
This file says when programs differ in no more than the expressions of one statement.

A statement is blanked by putting the same expression in the place of all that stand in it and in
none of its blocks. Two programs differ in the expressions of one statement if they are made by
putting two statements into the same gap which are the same once they are blanked. The pass over
the return paths never looks at an expression, so it does the same to both.
-/

import PadLang.Proofs.Typing.Rules
import PadLang.ReturnPaths

namespace PadLang

variable {two one : List Stmt}

/-! ### Blank statements -/

/-- What stands for an expression that has been taken out. -/
def Expr.filler : Expr := .literal { position := {} } (.bool false)

/-- A declaration without its value. -/
def Declaration.blank (made : Declaration) : Declaration := { made with value := .filler }

/-- An assignment without its index and its value. -/
def Assignment.blank (made : Assignment) : Assignment :=
  { made with index := none, value := .filler }

/-- An action without its operands. -/
def Action.blank : Action → Action
  | .print _ => .print .filler
  | .delay _ => .delay .filler
  | .write _ _ _ => .write .filler .filler .filler
  | .writeBox _ _ _ _ _ => .writeBox .filler .filler .filler .filler .filler
  | .clear _ => .clear .filler

/-- A statement without the expressions that stand in none of its blocks. -/
def Stmt.blank : Stmt → Stmt
  | .assignment span made => .assignment span made.blank
  | .declaration span made => .declaration span made.blank
  | .action span done => .action span done.blank
  | .returnValue span _ => .returnValue span .filler
  | .conditional span _ consequent alternative =>
    .conditional span .filler consequent alternative
  | .forLoop span init _ update body =>
    .forLoop span (init.map Declaration.blank) .filler (update.map Assignment.blank) body
  | .whileLoop span _ body => .whileLoop span .filler body
  | .block span body => .block span body
  | .function span header body => .function span header body

theorem Stmt.blank_blank (statement : Stmt) : statement.blank.blank = statement.blank := by
  cases statement with
  | action _ done => cases done <;> rfl
  | forLoop _ init _ update _ => cases init <;> cases update <;> rfl
  | _ => rfl

/-! ### Gaps -/

/-- A statement with one of its blocks taken out. -/
inductive Casing where
  | block (span : Span)
  | function (span : Span) (header : Header)
  | consequent (span : Span) (condition : Expr) (second : Option Block)
  | alternative (span : Span) (condition : Expr) (first : Block)
  | forLoop (span : Span) (init : Option Declaration) (condition : Expr)
      (update : Option Assignment)
  | whileLoop (span : Span) (condition : Expr)

/-- The statement with a block put in. -/
def Casing.fill : Casing → Block → Stmt
  | .block span, body => .block span body
  | .function span header, body => .function span header body
  | .consequent span condition second, body => .conditional span condition body second
  | .alternative span condition first, body => .conditional span condition first (some body)
  | .forLoop span init condition update, body => .forLoop span init condition update body
  | .whileLoop span condition, body => .whileLoop span condition body

/-- A sequence of statements with one taken out, which may be nested in others. -/
inductive Gap where
  | here (rest : List Stmt)
  | next (first : Stmt) (inner : Gap)
  | within (casing : Casing) (position : Position) (scope : Option ScopeId) (inner : Gap)
      (rest : List Stmt)

/-- The sequence with a statement put in. -/
def Gap.fill : Gap → Stmt → List Stmt
  | .here rest, statement => statement :: rest
  | .next first inner, statement => first :: inner.fill statement
  | .within casing position scope inner rest, statement =>
    casing.fill (.mk position scope (inner.fill statement)) :: rest

/-- Sequences that differ in no more than the expressions of one statement. -/
inductive Similar : List Stmt → List Stmt → Prop where
  | refl (statements : List Stmt) : Similar statements statements
  | here {one two : Stmt} (same : one.blank = two.blank) (rest : List Stmt) :
      Similar (one :: rest) (two :: rest)
  | next {one two : List Stmt} (first : Stmt) (similar : Similar one two) :
      Similar (first :: one) (first :: two)
  | within {one two : List Stmt} (casing : Casing) (position : Position)
      (scope : Option ScopeId) (similar : Similar one two) (rest : List Stmt) :
      Similar (casing.fill (.mk position scope one) :: rest)
        (casing.fill (.mk position scope two) :: rest)

theorem Gap.similar (gap : Gap) {one two : Stmt} (same : one.blank = two.blank) :
    Similar (gap.fill one) (gap.fill two) := by
  induction gap with
  | here rest => exact .here same rest
  | next first inner inductionHypothesis => exact .next first inductionHypothesis
  | within casing position scope inner rest inductionHypothesis =>
    exact .within casing position scope inductionHypothesis rest

/-- What the passes see of two statements without going into them is the same. -/
structure Twins (one two : Stmt) : Prop where
  span_eq : one.span = two.span
  header?_eq : one.header? = two.header?
  remove_eq : ∀ tree around,
    ReturnPaths.remove tree around one = ReturnPaths.remove tree around two

theorem Twins.blank (statement : Stmt) : Twins statement.blank statement where
  span_eq := by cases statement <;> rfl
  header?_eq := by cases statement <;> rfl
  remove_eq tree around := by
    fun_cases ReturnPaths.remove tree around statement <;> rfl

theorem Twins.fill (casing : Casing) (position : Position) (scope : Option ScopeId)
    (one two : List Stmt) :
    Twins (casing.fill (.mk position scope one)) (casing.fill (.mk position scope two)) where
  span_eq := by cases casing <;> rfl
  header?_eq := by cases casing <;> rfl
  remove_eq tree around := by
    cases casing with
    | consequent _ _ second => cases second <;> rfl
    | _ => rfl

theorem Similar.twins (similar : Similar one two) : List.Forall₂ Twins one two := by
  have refl (statements : List Stmt) : List.Forall₂ Twins statements statements :=
    List.forall₂_same.mpr fun _ _ => ⟨rfl, rfl, fun _ _ => rfl⟩
  induction similar with
  | refl statements => exact refl statements
  | @here one two same rest =>
    have first := Twins.blank one
    have second := Twins.blank two
    rw [same] at first
    exact .cons ⟨first.span_eq.symm.trans second.span_eq,
      first.header?_eq.symm.trans second.header?_eq, fun tree around =>
        (first.remove_eq tree around).symm.trans (second.remove_eq tree around)⟩ (refl rest)
  | next first similar inductionHypothesis =>
    exact .cons ⟨rfl, rfl, fun _ _ => rfl⟩ inductionHypothesis
  | within casing position scope similar rest _ =>
    exact .cons (.fill casing position scope _ _) (refl rest)

/-- Statements that are the same for a sequence which begins with them. -/
def Stmt.Similar (one two : Stmt) : Prop := ∀ rest, PadLang.Similar (one :: rest) (two :: rest)

/-! ### Return paths -/

namespace ReturnPaths

/-- Statements are removed and warned about whatever their expressions are. -/
theorem cut_similar (similar : Similar one two) (tree : ScopeTree) (around : Option ScopeId) :
    cut tree around one = cut tree around two := by
  have twins := similar.twins
  have spans : one.map Stmt.span = two.map Stmt.span := by
    clear similar
    induction twins with
    | nil => rfl
    | cons same _ inductionHypothesis =>
      rw [List.map_cons, List.map_cons, same.span_eq, inductionHypothesis]
  have removed : removeAll tree around one = removeAll tree around two := by
    clear similar spans
    induction twins generalizing tree with
    | nil => rfl
    | cons same _ inductionHypothesis =>
      rw [removeAll, removeAll, same.remove_eq]
      exact bind_congr fun removed => inductionHypothesis removed
  cases twins with
  | nil => rfl
  | @cons first second rest others same _ =>
    have last (before : Stmt) (more : List Stmt) :
        ((before :: more).getLastD before).span =
          ((before :: more).map Stmt.span).getLastD before.span := by
      rw [List.getLastD_eq_getLast?, List.getLastD_eq_getLast?, List.getLast?_map]
      cases (before :: more).getLast? <;> rfl
    rw [cut, cut, removed, warning, warning, last, last, spans, same.span_eq]

/-- Two results of the pass are the same, apart from what they are results for. -/
structure Agree {α : Type} (similar : α → α → Prop) (one two : Pruned α) : Prop where
  value : similar one.value two.value
  returns_eq : one.returns = two.returns
  tree_eq : one.tree = two.tree
  complaints_eq : one.complaints = two.complaints
  warnings_eq : one.warnings = two.warnings

theorem statement_blank (tree : ScopeTree) (before : Stmt) :
    statement tree before.blank =
      (fun pruned => { pruned with value := pruned.value.blank }) <$> statement tree before := by
  fun_cases statement tree before <;>
    simp only [Stmt.blank, statement, map_bind, map_pure] <;> rfl

theorem statement_here {one two : Stmt} (same : one.blank = two.blank) (tree : ScopeTree) :
    Paired (Agree Stmt.Similar) (statement tree one) (statement tree two) := by
  refine (Paired.of_map ((statement_blank tree one).symm.trans
    (same ▸ statement_blank tree two))).mono fun pruned other samePruned => ?_
  obtain ⟨sameValue, returns, tree, complaints, warnings⟩ := Pruned.mk.inj samePruned
  exact ⟨fun rest => .here sameValue rest, returns, tree, complaints, warnings⟩

theorem statement_within (casing : Casing) (position : Position) {scope : Option ScopeId}
    (inside : ∀ tree, Paired (Agree Similar) (sequence tree scope one) (sequence tree scope two))
    (tree : ScopeTree) :
    Paired (Agree Stmt.Similar) (statement tree (casing.fill (.mk position scope one)))
      (statement tree (casing.fill (.mk position scope two))) := by
  have blocks (tree : ScopeTree) :
      Paired (Agree fun first second => ∀ casing : Casing,
          (casing.fill first).Similar (casing.fill second))
        (block tree (.mk position scope one)) (block tree (.mk position scope two)) := by
    rw [block, block]
    exact (inside tree).bind fun _ _ _ _ agree =>
      { agree with value := fun casing => .within casing position scope agree.value }
  cases casing with
  | block span =>
    rw [Casing.fill, Casing.fill, statement, statement]
    exact (blocks tree).bind fun _ _ _ _ agree => { agree with value := agree.value (.block span) }
  | function span header =>
    rw [Casing.fill, Casing.fill, statement, statement]
    exact (blocks tree).bind fun _ _ _ _ agree =>
      { agree with
        value := agree.value (.function span header)
        returns_eq := rfl
        complaints_eq := by simp only [agree.complaints_eq, agree.returns_eq] }
  | consequent span condition second =>
    cases second with
    | none =>
      rw [Casing.fill, Casing.fill, statement, statement]
      exact (blocks tree).bind fun _ _ _ _ agree =>
        { agree with value := agree.value (.consequent span condition none), returns_eq := rfl }
    | some second =>
      rw [Casing.fill, Casing.fill, statement, statement]
      refine (blocks tree).bind fun _ _ _ _ agree => ?_
      rw [agree.tree_eq]
      exact Paired.after fun pruned _ =>
        { value := agree.value (.consequent span condition (some pruned.value))
          returns_eq := by simp only [agree.returns_eq]
          tree_eq := rfl
          complaints_eq := by simp only [agree.complaints_eq]
          warnings_eq := by simp only [agree.warnings_eq] }
  | alternative span condition first =>
    rw [Casing.fill, Casing.fill, statement, statement]
    exact Paired.after fun pruned _ => (blocks pruned.tree).bind fun _ _ _ _ agree =>
      { value := agree.value (.alternative span condition pruned.value)
        returns_eq := by simp only [agree.returns_eq]
        tree_eq := agree.tree_eq
        complaints_eq := by simp only [agree.complaints_eq]
        warnings_eq := by simp only [agree.warnings_eq] }
  | forLoop span init condition update =>
    rw [Casing.fill, Casing.fill, statement, statement]
    exact (blocks tree).bind fun _ _ _ _ agree =>
      { agree with value := agree.value (.forLoop span init condition update), returns_eq := rfl }
  | whileLoop span condition =>
    rw [Casing.fill, Casing.fill, statement, statement]
    exact (blocks tree).bind fun _ _ _ _ agree =>
      { agree with value := agree.value (.whileLoop span condition), returns_eq := rfl }

theorem sequence_cons {one two : Stmt}
    (first : ∀ tree, Paired (Agree Stmt.Similar) (statement tree one) (statement tree two))
    (tree : ScopeTree) (around : Option ScopeId) (rest : List Stmt) :
    Paired (Agree Similar) (sequence tree around (one :: rest))
      (sequence tree around (two :: rest)) := by
  rw [sequence, sequence]
  refine (first tree).bind ?_
  rintro ⟨one, returns, _, _, _⟩ ⟨two, _, _, _, _⟩ _ _ ⟨similar, rfl, rfl, rfl, rfl⟩
  dsimp only
  split
  · exact Paired.after fun shortened _ => ⟨similar [], rfl, rfl, rfl, rfl⟩
  · exact Paired.after fun others _ => ⟨similar others.value, rfl, rfl, rfl, rfl⟩

/-- The pass does the same to statements that differ in the expressions of one of them. -/
theorem sequence_similar (similar : Similar one two) (tree : ScopeTree) (around : Option ScopeId) :
    Paired (Agree Similar) (sequence tree around one) (sequence tree around two) := by
  induction similar generalizing tree around with
  | refl statements => exact Paired.self fun _ _ => ⟨.refl _, rfl, rfl, rfl, rfl⟩
  | here same rest => exact sequence_cons (statement_here same) tree around rest
  | within casing position scope _ rest inductionHypothesis =>
    exact sequence_cons
      (statement_within casing position fun tree => inductionHypothesis tree scope) tree around rest
  | next first similar inductionHypothesis =>
    rw [sequence, sequence]
    refine Paired.after fun pruned _ => ?_
    split
    · rw [cut_similar similar]
      exact Paired.self fun _ _ => ⟨.refl _, rfl, rfl, rfl, rfl⟩
    · exact (inductionHypothesis pruned.tree around).bind fun others more _ _ agree =>
        ⟨.next pruned.value agree.value, agree.returns_eq, agree.tree_eq,
          congrArg (pruned.complaints ++ ·) agree.complaints_eq,
          congrArg (pruned.warnings ++ ·) agree.warnings_eq⟩

theorem program_similar {one two : Program} (similar : Similar one.statements two.statements)
    (tree : ScopeTree) :
    Paired (Agree fun first second => Similar first.statements second.statements)
      (program tree one) (program tree two) :=
  (sequence_similar similar tree (some ScopeTree.global)).bind fun _ _ _ _ agree =>
    { agree with value := agree.value }

end ReturnPaths

end PadLang
