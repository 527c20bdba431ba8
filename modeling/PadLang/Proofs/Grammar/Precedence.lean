/-
This file shows that canonical expressions are read back.

What comes next must not go on with an expression. What that means depends on the level of the
expression: an operator of its level or of a tighter one would be taken for its own, and if it ends
in the operand of a builtin, so would any operator and a conversion.

Operands that associate to the left are read in a loop, in which the expression read so far is
carried along. The loop that starts in front of an expression has come to the loop that carries
it; that is what is shown by induction on the left operands.
-/

import PadLang.Proofs.Grammar.Taking

namespace PadLang

variable {level : Nat} {tier : Tier} {absorbs : Bool} {cursor : Cursor} {rest : List Terminal}
  {operator : BinaryOperator} {items : List Expr} {next : Terminal} {expr : Expr}

/-! ### Operators -/

/-- The operator between two operands that a mark stands for. -/
def BinaryOperator.ofMark? : Mark → Option BinaryOperator
  | .orWord => some .or
  | .andWord => some .and
  | .equal => some .equal
  | .notEqual => some .notEqual
  | .less => some .less
  | .lessEqual => some .lessOrEqual
  | .greater => some .greater
  | .greaterEqual => some .greaterOrEqual
  | .plus => some .add
  | .minus => some .subtract
  | .star => some .multiply
  | .slash => some .divide
  | _ => none

/-- The operator between two operands that a terminal stands for. -/
def Terminal.operator? : Terminal → Option BinaryOperator
  | .mark sign => BinaryOperator.ofMark? sign
  | .name _ | .literal _ | .builtin _ => none

theorem BinaryOperator.ofMark?_mark (operator : BinaryOperator) :
    BinaryOperator.ofMark? operator.mark = some operator := by
  cases operator <;> rfl

namespace Grammar

theorem length_tiers : tiers.length = unaryLevel := rfl

/-- A tier has just the operators of its level. -/
theorem operator?_eq (isTier : tiers[level]? = some tier) (token : Token) :
    tier.operator? token = token.terminal.operator?.filter fun operator =>
      operator.level == level := by
  have short : level < 6 := (List.getElem?_eq_some_iff.mp isTier).1
  rw [Tier.operator?, token.content_eq]
  cases token.terminal with
  | mark sign =>
    rcases level with _ | _ | _ | _ | _ | _ | level
    case succ => omega
    all_goals
      cases isTier
      cases sign <;> rfl
  | name text =>
    rcases level with _ | _ | _ | _ | _ | _ | level
    case succ => omega
    all_goals
      cases isTier
      rfl
  | literal value => rfl
  | builtin asked => rfl

/-! ### Levels -/

/-- Reads an expression of a level or of a tighter one. -/
def fromLevel (allowance level : Nat) : Rule Expr :=
  climb (unary (primary (expression allowance) (allowance + 1)) (allowance + 1)) (allowance + 1)
    (tiers.drop level)

/-- Reads an expression of a level or of a tighter one, with an allowance of its own for the
operators of this level. -/
def chainAt (allowance level count : Nat) : Rule Expr :=
  match tiers[level]? with
  | none => unary (primary (expression allowance) (allowance + 1)) count
  | some tier =>
    let operand := fromLevel allowance (level + 1)
    match tier.associativity with
    | .left => do leftChain tier operand count (← operand)
    | .right => rightChain tier operand count

theorem fromLevel_eq (small : level ≤ unaryLevel) (allowance : Nat) :
    fromLevel allowance level = chainAt allowance level (allowance + 1) := by
  rw [← length_tiers] at small
  unfold fromLevel chainAt
  rcases Nat.lt_or_eq_of_le small with inside | rfl
  · rw [List.drop_eq_getElem_cons inside, List.getElem?_eq_getElem inside, climb]
    rfl
  · rfl

theorem expression_succ (allowance : Nat) :
    expression (allowance + 1) = conversion (fromLevel allowance 0) := rfl

end Grammar

/-- A terminal that cannot go on with an expression of a level. -/
structure Follows (level : Nat) (absorbs : Bool) (next : Terminal) : Prop where
  notParen : next ≠ .mark .openParen
  notSquare : next ≠ .mark .openSquare
  looser : ∀ operator, next.operator? = some operator → operator.level < level
  unabsorbed : absorbs = true → next.operator? = none ∧ next ≠ .mark .asWord

theorem Follows.mono {tighter : Nat} (follows : Follows level absorbs next)
    (larger : level ≤ tighter) : Follows tighter absorbs next :=
  { follows with
    looser := fun operator found => Nat.lt_of_lt_of_le (follows.looser operator found) larger }

/-- An operator follows its left operand. -/
theorem follows_operator (operator : BinaryOperator) (looser : operator.level < level) :
    Follows level false (.mark operator.mark) where
  notParen := by cases operator <;> decide
  notSquare := by cases operator <;> decide
  looser other found := by
    rw [Terminal.operator?, BinaryOperator.ofMark?_mark] at found
    cases found
    exact looser
  unabsorbed absorbed := by cases absorbed

theorem follows_conversion : Follows level false (.mark .asWord) where
  notParen := by decide
  notSquare := by decide
  looser operator found := by cases found
  unabsorbed absorbed := by cases absorbed

/-- A terminal with which an expression may begin. -/
def Terminal.beginsExpr : Terminal → Bool
  | .name _ | .literal _ | .builtin _ => true
  | .mark .openParen | .mark .openSquare | .mark .notWord | .mark .minus => true
  | .mark _ => false

theorem beginsExpr_terminals (expr : Expr) (rest : List Terminal) :
    (upcoming (expr.terminals ++ rest)).beginsExpr = true := by
  match expr with
  | .literal _ _ | .array _ _ | .side _ _ | .read _ _ _ | .randomInt _ _ | .var _ _ | .index _ _ _
  | .call _ _ _ | .group _ _ => rfl
  | .binary _ left _ _ =>
    rw [Expr.terminals, List.append_assoc]
    exact beginsExpr_terminals left _
  | .unary _ operator _ => cases operator <;> rfl

/-- An expression without the conversion it asks for. -/
def Expr.unconverted (expr : Expr) : Expr := expr.withNote { expr.note with cast := none }

theorem Expr.unconverted_eq (plain : expr.note.cast = none) : expr.unconverted = expr := by
  have same : { expr.note with cast := none } = expr.note := by rw [← plain]
  rw [unconverted, same]
  cases expr <;> rfl

namespace Grammar

open Rule

variable {mark : Mark} {count : Nat}

/-- An expression without its conversion is read back at a level. -/
def ReadAt (level : Nat) (expr : Expr) : Prop :=
  ∀ ⦃allowance count : Nat⦄ ⦃cursor : Cursor⦄ ⦃rest : List Terminal⦄,
    cursor.Faces (expr.unconverted.terminals ++ rest) →
    Follows level expr.absorbs (upcoming rest) →
    Takes (chainAt allowance level count) cursor rest fun found =>
      found.unplaced = expr.unconverted.unplaced

/-- The loop over the operators of a level that starts in front of an expression comes to carry it:
it takes what the loop that carries the expression takes. -/
def CarriedAt (level : Nat) (expr : Expr) : Prop :=
  ∀ ⦃allowance count : Nat⦄ ⦃cursor : Cursor⦄ ⦃rest behind : List Terminal⦄ ⦃tier : Tier⦄
    ⦃good : Expr → Prop⦄,
    tiers[level]? = some tier →
    cursor.Faces (expr.unconverted.terminals ++ rest) →
    Follows (level + 1) expr.absorbs (upcoming rest) →
    let operand := fromLevel allowance (level + 1)
    (∀ {later} found left, later.Faces rest → found.unplaced = expr.unconverted.unplaced →
      Takes (leftChain tier operand left found) later behind good) →
    Takes (operand >>= leftChain tier operand count) cursor behind good

variable {expr : Expr}

/-- An operand of a level stands at a level by itself. -/
theorem ReadAt.fromLevel (reads : ReadAt level expr) (small : level ≤ unaryLevel) (allowance : Nat)
    (faces : cursor.Faces (expr.unconverted.terminals ++ rest))
    (follows : Follows level expr.absorbs (upcoming rest)) :
    Takes (fromLevel allowance level) cursor rest fun found =>
      found.unplaced = expr.unconverted.unplaced := by
  rw [fromLevel_eq small]
  exact reads faces follows

/-- No operator of a level is seen where none may follow. -/
theorem operator?_eq_none (isTier : tiers[level]? = some tier) (faces : cursor.Faces rest)
    (follows : Follows level absorbs (upcoming rest)) : tier.operator? cursor.peek = none := by
  rw [operator?_eq isTier, faces.peek, Option.filter_eq_none_iff]
  intro operator found
  have looser := follows.looser operator found
  simp only [beq_iff_eq]
  omega

theorem leftChain_stops (isTier : tiers[level]? = some tier) {operand : Rule Expr} {found : Expr}
    (faces : cursor.Faces rest) (follows : Follows level absorbs (upcoming rest))
    {good : Expr → Prop} (holds : good found) :
    Takes (leftChain tier operand count found) cursor rest good := by
  rcases count with _ | count
  · exact Takes.exhausted
  refine Takes.peek ?_
  rw [operator?_eq_none isTier faces follows]
  exact Takes.pure faces holds

/-- What is read at a level is carried at the looser one before it. -/
theorem ReadAt.carried (reads : ReadAt (level + 1) expr) (small : level < unaryLevel) :
    CarriedAt level expr := by
  intro allowance count cursor rest behind tier good isTier faces follows operand goesOn
  exact Takes.bind (reads.fromLevel small allowance faces follows) fun found faces same =>
    goesOn found count faces same

theorem CarriedAt.read (carried : CarriedAt level expr) (isTier : tiers[level]? = some tier)
    (associates : tier.associativity = .left) : ReadAt level expr := by
  intro allowance count cursor rest faces follows
  simp only [chainAt, isTier, associates]
  exact carried isTier faces (follows.mono (Nat.le_succ level)) fun found left faces same =>
    leftChain_stops isTier faces follows same

/-- What is read at a level is read at the looser one before it. -/
theorem ReadAt.looser (reads : ReadAt (level + 1) expr) (small : level < unaryLevel) :
    ReadAt level expr := by
  obtain ⟨tier, isTier⟩ : ∃ tier, tiers[level]? = some tier :=
    ⟨_, List.getElem?_eq_getElem small⟩
  cases associates : tier.associativity with
  | left => exact (reads.carried small).read isTier associates
  | right =>
    intro allowance count cursor rest faces follows
    simp only [chainAt, isTier, associates]
    rcases count with _ | count
    · exact Takes.exhausted
    -- no operator of this level follows, so the chain ends behind its first operand
    refine Takes.bind (reads.fromLevel small allowance faces (follows.mono (Nat.le_succ level)))
      fun found faces same => Takes.peek ?_
    rw [operator?_eq_none isTier faces follows]
    exact Takes.pure faces same

theorem ReadAt.anywhere {tight : Nat} (reads : ReadAt tight expr) (small : tight ≤ unaryLevel)
    (loose : level ≤ tight) : ReadAt level expr := by
  induction tight with
  | zero =>
    obtain rfl : level = 0 := Nat.le_zero.mp loose
    exact reads
  | succ tight inductionHypothesis =>
    rcases Nat.lt_or_eq_of_le loose with looser | rfl
    · exact inductionHypothesis (reads.looser small) (Nat.le_of_lt small) (Nat.le_of_lt_succ looser)
    · exact reads

/-- An expression is read back, without its conversion, wherever its level allows. -/
structure Readable (expr : Expr) : Prop where
  read : ∀ level, level ≤ expr.level → level ≤ unaryLevel → ReadAt level expr
  carried : ∀ operator : BinaryOperator, operator.nestsRight = false →
    operator.level ≤ expr.level → CarriedAt operator.level expr

theorem level_lt_unaryLevel (operator : BinaryOperator) : operator.level < unaryLevel := by
  cases operator <;> decide

theorem tier_of_operator (operator : BinaryOperator) :
    ∃ tier, tiers[operator.level]? = some tier ∧
      tier.associativity = if operator.nestsRight then .right else .left := by
  cases operator <;> exact ⟨_, rfl, rfl⟩

theorem readable_of_unary (reads : ReadAt unaryLevel expr) : Readable expr := by
  refine ⟨fun level _ small => reads.anywhere (Nat.le_refl _) small, fun operator _ _ => ?_⟩
  have small := level_lt_unaryLevel operator
  exact (reads.anywhere (Nat.le_refl _) small).carried small

/-- What is read at its own level is readable if the operators of that level carry it. -/
theorem readable_of_read (small : expr.level ≤ unaryLevel) (reads : ReadAt expr.level expr)
    (carried : ∀ operator : BinaryOperator, operator.nestsRight = false →
      operator.level = expr.level → CarriedAt operator.level expr) : Readable expr := by
  refine ⟨fun level loose _ => reads.anywhere small loose, fun other nestsLeft loose => ?_⟩
  rcases Nat.lt_or_eq_of_le loose with isLooser | same
  · exact (reads.anywhere small isLooser).carried (level_lt_unaryLevel other)
  · exact carried other nestsLeft same

theorem readable_of_left (isLevel : expr.level = operator.level)
    (nests : operator.nestsRight = false) (carried : CarriedAt operator.level expr) :
    Readable expr := by
  obtain ⟨tier, isTier, associates⟩ := tier_of_operator operator
  rw [nests] at associates
  rw [← isLevel] at carried isTier
  refine readable_of_read (isLevel ▸ Nat.le_of_lt (level_lt_unaryLevel operator))
    (carried.read isTier associates) fun other _ same => ?_
  rw [same]
  exact carried

theorem readable_of_right (isLevel : expr.level = operator.level)
    (nests : operator.nestsRight = true) (reads : ReadAt operator.level expr) : Readable expr := by
  rw [← isLevel] at reads
  refine readable_of_read (isLevel ▸ Nat.le_of_lt (level_lt_unaryLevel operator)) reads
    fun other nestsLeft same => ?_
  -- operators of one level all associate the same way, so this one is not of this level
  rw [isLevel] at same
  cases operator <;> cases nests <;> cases other <;> cases nestsLeft <;> cases same

/-! ### Operations -/

theorem operator?_of_faces (isTier : tiers[operator.level]? = some tier) {terminals : List Terminal}
    (faces : cursor.Faces (.mark operator.mark :: terminals)) :
    tier.operator? cursor.peek = some operator := by
  have found : cursor.peek.terminal.operator? = some operator := by
    rw [faces.peek]
    exact operator.ofMark?_mark
  rw [operator?_eq isTier, found]
  exact if_pos (beq_self_eq_true _)

section Operations

variable {note : Note} {left right : Expr}

theorem terminals_binary (plainLeft : left.note.cast = none) (plainRight : right.note.cast = none) :
    (Expr.binary note left operator right).unconverted.terminals =
      left.unconverted.terminals ++ .mark operator.mark :: right.unconverted.terminals := by
  rw [Expr.unconverted_eq plainLeft, Expr.unconverted_eq plainRight]
  change left.terminals ++ .mark operator.mark :: (right.terminals ++ []) = _
  rw [List.append_nil]

variable (untyped : note.type = none)

include untyped

theorem unplaced_join (plainLeft : left.note.cast = none) (plainRight : right.note.cast = none)
    {foundLeft foundRight : Expr} (isLeft : foundLeft.unplaced = left.unconverted.unplaced)
    (isRight : foundRight.unplaced = right.unconverted.unplaced) :
    (join foundLeft operator foundRight).unplaced =
      (Expr.binary note left operator right).unconverted.unplaced := by
  rw [Expr.unconverted_eq plainLeft] at isLeft
  rw [Expr.unconverted_eq plainRight] at isRight
  rw [join, Expr.unplaced, isLeft, isRight]
  simp [Expr.unconverted, Expr.withNote, Expr.note, Expr.unplaced, Note.unplaced, untyped]

/-- An operation that associates to the left is carried if its left operand is. -/
theorem carried_binary (plainLeft : left.note.cast = none) (plainRight : right.note.cast = none)
    (closed : left.absorbs = false) (carriedLeft : CarriedAt operator.level left)
    (readsRight : ReadAt (operator.level + 1) right) :
    CarriedAt operator.level (.binary note left operator right) := by
  intro allowance count cursor rest behind tier good isTier faces follows operand goesOn
  rw [terminals_binary plainLeft plainRight, List.append_assoc] at faces
  refine carriedLeft isTier faces (closed ▸ follows_operator operator (Nat.lt_succ_self _))
    fun foundLeft count faces isLeft => ?_
  rcases count with _ | count
  · exact Takes.exhausted
  -- the loop takes the operator and its right operand, and carries the operation
  refine Takes.peek ?_
  rw [operator?_of_faces isTier faces]
  refine Takes.advance faces fun faces => ?_
  exact Takes.bind (readsRight.fromLevel (level_lt_unaryLevel operator) allowance faces follows)
    fun foundRight faces isRight => goesOn _ count faces
      (unplaced_join untyped plainLeft plainRight isLeft isRight)

/-- An operation that associates to the right is read if its operands are. -/
theorem read_binary (plainLeft : left.note.cast = none) (plainRight : right.note.cast = none)
    (closed : left.absorbs = false) (nests : operator.nestsRight = true)
    (readsLeft : ReadAt (operator.level + 1) left) (readsRight : ReadAt operator.level right) :
    ReadAt operator.level (.binary note left operator right) := by
  intro allowance count cursor rest faces follows
  rw [terminals_binary plainLeft plainRight, List.append_assoc] at faces
  obtain ⟨tier, isTier, associates⟩ := tier_of_operator operator
  rw [nests] at associates
  have isChain (count : Nat) : chainAt allowance operator.level count =
      rightChain tier (Grammar.fromLevel allowance (operator.level + 1)) count := by
    simp only [chainAt, isTier, associates, if_true]
  rw [isChain]
  rcases count with _ | count
  · exact Takes.exhausted
  refine Takes.bind (readsLeft.fromLevel (level_lt_unaryLevel operator) allowance faces
    (closed ▸ follows_operator operator (Nat.lt_succ_self _)))
    fun foundLeft faces isLeft => Takes.peek ?_
  rw [operator?_of_faces isTier faces]
  refine Takes.advance faces fun faces => ?_
  rw [← isChain]
  refine Takes.bind (readsRight faces follows) fun foundRight faces isRight => ?_
  exact Takes.pure faces (unplaced_join untyped plainLeft plainRight isLeft isRight)

/-- An operation is readable if its operands are and stand at the levels of its operator. -/
theorem readable_binary (standsLeft : left.standsAt operator.leftLevel = true)
    (closed : left.absorbs = false) (standsRight : right.standsAt operator.rightLevel = true)
    (readableLeft : Readable left) (readableRight : Readable right) :
    Readable (.binary note left operator right) := by
  have small := level_lt_unaryLevel operator
  obtain ⟨looseLeft, plainLeft, -⟩ := Expr.standsAt_iff.mp standsLeft
  obtain ⟨looseRight, plainRight, -⟩ := Expr.standsAt_iff.mp standsRight
  rw [BinaryOperator.leftLevel] at looseLeft
  rw [BinaryOperator.rightLevel] at looseRight
  cases nests : operator.nestsRight with
  | false =>
    rw [nests] at looseLeft looseRight
    exact readable_of_left rfl nests (carried_binary untyped plainLeft plainRight closed
      (readableLeft.carried operator nests looseLeft)
      (readableRight.read (operator.level + 1) looseRight small))
  | true =>
    rw [nests] at looseLeft looseRight
    exact readable_of_right rfl nests (read_binary untyped plainLeft plainRight closed nests
      (readableLeft.read (operator.level + 1) looseLeft small)
      (readableRight.read operator.level looseRight (Nat.le_of_lt small)))

end Operations

theorem unaryOperator?_of_terminal {token : Token} {operator : UnaryOperator}
    (found : token.terminal = .mark operator.mark) : unaryOperator? token = some operator := by
  rw [unaryOperator?, token.content_eq, found]
  cases operator <;> rfl

/-- An operation in front of an operand is read if the operand is. -/
theorem read_unary {note : Note} {operator : UnaryOperator} {operand : Expr}
    (untyped : note.type = none) (plain : operand.note.cast = none)
    (reads : ReadAt unaryLevel operand) : ReadAt unaryLevel (.unary note operator operand) := by
  intro allowance count cursor rest faces follows
  have terminals : (Expr.unary note operator operand).unconverted.terminals =
      .mark operator.mark :: operand.unconverted.terminals := by
    rw [Expr.unconverted_eq plain]
    change .mark operator.mark :: (operand.terminals ++ []) = _
    rw [List.append_nil]
  rw [terminals, List.cons_append] at faces
  rcases count with _ | count
  · exact Takes.exhausted
  refine Takes.peek ?_
  rw [unaryOperator?_of_terminal faces.peek]
  refine Takes.advance faces fun faces => ?_
  refine Takes.bind (reads faces follows) fun found faces same => Takes.pure faces ?_
  rw [Expr.unconverted_eq plain] at same
  rw [Expr.unplaced, same]
  simp [Expr.unconverted, Expr.withNote, Expr.note, Expr.unplaced, Note.unplaced, untyped]

/-! ### Expressions on their own -/

/-- A terminal that cannot go on with an expression that stands on its own. -/
structure Concludes (expr : Expr) (next : Terminal) : Prop where
  notParen : next ≠ .mark .openParen
  notSquare : next ≠ .mark .openSquare
  unabsorbed : expr.note.cast = none → next.operator? = none ∧ next ≠ .mark .asWord

/-- The last operand of a builtin ends where the builtin does. -/
theorem concludes_of_follows {last : Expr} (follows : Follows level last.note.cast.isNone next) :
    Concludes last next where
  notParen := follows.notParen
  notSquare := follows.notSquare
  unabsorbed plain := follows.unabsorbed (Option.isNone_iff_eq_none.mpr plain)

/-- Marks that conclude any expression. -/
def closers : List Mark := [.comma, .semicolon, .closeParen, .closeSquare]

theorem concludes_of_mem (closes : mark ∈ closers) (expr : Expr) : Concludes expr (.mark mark) := by
  have each : ∀ mark ∈ closers, Terminal.mark mark ≠ .mark .openParen ∧
      Terminal.mark mark ≠ .mark .openSquare ∧
        (Terminal.mark mark).operator? = none ∧ Terminal.mark mark ≠ .mark .asWord := by decide
  obtain ⟨notParen, notSquare, unabsorbed⟩ := each mark closes
  exact ⟨notParen, notSquare, fun _ => unabsorbed⟩

/-- An expression is read back with the conversion it asks for. -/
def ReadAlone (expr : Expr) : Prop :=
  ∀ ⦃allowance : Nat⦄ ⦃cursor : Cursor⦄ ⦃rest : List Terminal⦄,
    cursor.Faces (expr.terminals ++ rest) → Concludes expr (upcoming rest) →
    Takes (expression allowance) cursor rest fun found => found.unplaced = expr.unplaced

theorem terminals_eq (expr : Expr) :
    expr.terminals = expr.unconverted.terminals ++ expr.note.terminals := by
  cases expr <;>
    simp [Expr.unconverted, Expr.withNote, Expr.note, Expr.terminals, Note.terminals]

theorem unplaced_withCast (expr : Expr) (cast : Located Ty) :
    (expr.withCast cast).unplaced = expr.unplaced.withCast cast.unplaced := by
  cases expr <;> rfl

theorem withCast_unconverted {cast : Located Ty} (asks : expr.note.cast = some cast) :
    expr.unconverted.withCast cast = expr := by
  have same : { expr.note with cast := some cast } = expr.note := by rw [← asks]
  cases expr <;> simp_all [Expr.unconverted, Expr.withCast, Expr.withNote, Expr.note]

/-- An expression that is readable is read with its conversion where it may stand on its own. -/
theorem Readable.alone (readable : Readable expr) (stands : expr.standsAlone = true) :
    ReadAlone expr := by
  intro allowance cursor rest faces concludes
  rcases allowance with _ | allowance
  · exact Takes.exhausted
  have reads := readable.read 0 (Nat.zero_le _) (Nat.zero_le _)
  rw [terminals_eq, List.append_assoc] at faces
  rw [expression_succ]
  unfold conversion
  rw [Expr.standsAlone, Bool.and_eq_true] at stands
  cases asks : expr.note.cast with
  | none =>
    obtain ⟨noOperator, notAs⟩ := concludes.unabsorbed asks
    rw [Note.terminals_eq_nil asks, List.nil_append] at faces
    have follows : Follows 0 expr.absorbs (upcoming rest) :=
      { notParen := concludes.notParen
        notSquare := concludes.notSquare
        looser := fun operator found => by rw [noOperator] at found; cases found
        unabsorbed := fun _ => ⟨noOperator, notAs⟩ }
    refine Takes.bind (reads.fromLevel (Nat.zero_le _) allowance faces follows)
      fun found faces same => ?_
    rw [Expr.unconverted_eq asks] at same
    exact Takes.sees_other faces (by decide) notAs (Takes.pure faces same)
  | some cast =>
    rw [asks, Bool.and_eq_true, Bool.not_eq_true'] at stands
    have written : expr.note.terminals = .mark .asWord :: cast.value.terminals := by
      rw [Note.terminals, asks]
    rw [written] at faces
    have follows : Follows 0 expr.absorbs (.mark .asWord) := stands.2.2 ▸ follows_conversion
    refine Takes.bind (reads.fromLevel (Nat.zero_le _) allowance faces follows)
      fun found faces same => Takes.sees_next faces (Takes.advance faces fun faces => ?_)
    refine Takes.bind (type_takes stands.2.1 faces concludes.notSquare)
      fun type faces isType => Takes.pure faces ?_
    have sameCast : type.unplaced = cast.unplaced := by rw [Located.unplaced, isType]; rfl
    rw [unplaced_withCast, same, sameCast, ← unplaced_withCast, withCast_unconverted asks]

/-! ### Lists -/

/-- No expression begins with a mark that concludes one. -/
theorem upcoming_terminals_ne (closes : mark ∈ closers) (expr : Expr) (rest : List Terminal) :
    upcoming (expr.terminals ++ rest) ≠ .mark mark := by
  intro same
  have begins := beginsExpr_terminals expr rest
  have noneBegins : ∀ mark ∈ closers, (Terminal.mark mark).beginsExpr = false := by decide
  rw [same, noneBegins mark closes] at begins
  cases begins

/-- Expressions between a mark and its counterpart are read back. -/
theorem listUpTo_takes {closing : Mark} (notComma : closing ≠ .comma)
    (plain : closing ≠ .identifier) (closes : closing ∈ closers)
    (each : ∀ item ∈ items, ReadAlone item) {allowance : Nat}
    (faces : cursor.Faces (commas (items.map Expr.terminals) ++ .mark closing :: rest)) :
    Takes (listUpTo closing (expression allowance) count) cursor rest fun found =>
      unplacedItems found = unplacedItems items := by
  refine itemsUpTo_takes Expr.unplaced notComma plain (upcoming_terminals_ne closes) ?_ faces ?_
  · intro item member cursor rest facesItem next
    refine each item member facesItem ?_
    rcases next with next | next
    · rw [next]
      exact concludes_of_mem (by decide) item
    · rw [next]
      exact concludes_of_mem closes item
  · intro later found faces same
    refine Takes.expect faces fun faces => Takes.pure faces ?_
    rw [unplacedItems_eq_map, unplacedItems_eq_map, same]

/-! ### Primary expressions -/

/-- An expression without its conversion is read back as a primary one. -/
def ReadPrimary (expr : Expr) : Prop :=
  ∀ ⦃allowance : Nat⦄ ⦃cursor : Cursor⦄ ⦃rest : List Terminal⦄,
    cursor.Faces (expr.unconverted.terminals ++ rest) →
    Follows unaryLevel expr.absorbs (upcoming rest) →
    Takes (primary (expression allowance) (allowance + 1)) cursor rest fun found =>
      found.unplaced = expr.unconverted.unplaced

theorem readable_of_primary (isPrimary : expr.level = unaryLevel + 1) (reads : ReadPrimary expr) :
    Readable expr := by
  refine readable_of_unary fun allowance count cursor rest faces follows => ?_
  rcases count with _ | count
  · exact Takes.exhausted
  have noOperator : unaryOperator? cursor.peek = none := by
    rw [unaryOperator?, Token.content_eq, faces.peek]
    cases expr with
    | binary note left operator right => cases operator <;> cases isPrimary
    | unary note operator operand => cases isPrimary
    | literal | array | side | read | randomInt | var | index | call | group => rfl
  refine Takes.peek ?_
  rw [noOperator]
  exact reads faces follows

section Primary

variable {note : Note} (untyped : note.type = none)

include untyped

theorem unplaced_note (position : Position) :
    Note.unplaced { position } = Note.unplaced { note with cast := none } := by
  rw [Note.unplaced, Note.unplaced, untyped]

theorem readPrimary_literal (value : Literal) : ReadPrimary (.literal note value) := by
  intro allowance cursor rest faces follows
  refine Takes.peek ?_
  rw [faces.content_peek]
  refine Takes.advance faces fun faces => Takes.pure faces ?_
  exact congrArg (Expr.literal · value) (unplaced_note untyped _)

theorem readPrimary_side (which : Side) : ReadPrimary (.side note which) := by
  intro allowance cursor rest faces follows
  refine Takes.peek ?_
  rw [faces.content_peek]
  have placed := congrArg (Expr.side · which) (unplaced_note untyped cursor.peek.position)
  cases which <;> exact Takes.advance faces fun faces => Takes.pure faces placed

theorem readPrimary_group {inner : Expr} (reads : ReadAlone inner) :
    ReadPrimary (.group note inner) := by
  intro allowance cursor rest faces follows
  have terminals : (Expr.group note inner).unconverted.terminals ++ rest =
      .mark .openParen :: (inner.terminals ++ .mark .closeParen :: rest) := by
    simp [Expr.unconverted, Expr.withNote, Expr.terminals, Note.terminals]
  rw [terminals] at faces
  refine Takes.peek ?_
  rw [faces.content_peek]
  refine Takes.advance faces fun faces => ?_
  refine Takes.bind (reads faces (concludes_of_mem (by decide) inner)) fun found faces same => ?_
  refine Takes.expect faces fun faces => Takes.pure faces ?_
  rw [Expr.unplaced, same, unplaced_note untyped]
  rfl

theorem readPrimary_array (reads : ∀ item ∈ items, ReadAlone item) :
    ReadPrimary (.array note items) := by
  intro allowance cursor rest faces follows
  have terminals : (Expr.array note items).unconverted.terminals ++ rest =
      .mark .openSquare :: (commas (items.map Expr.terminals) ++ .mark .closeSquare :: rest) := by
    simp [Expr.unconverted, Expr.withNote, Expr.terminals, Note.terminals, eachTerminals_eq_map]
  rw [terminals] at faces
  refine Takes.peek ?_
  rw [faces.content_peek]
  refine Takes.advance faces fun faces => ?_
  refine Takes.bind (listUpTo_takes (by decide) (by decide) (by decide) reads faces)
    fun found faces same => Takes.pure faces ?_
  rw [Expr.unplaced, same, unplaced_note untyped]
  rfl

theorem readPrimary_randomInt {limit : Expr} (reads : ReadAlone limit) :
    ReadPrimary (.randomInt note limit) := by
  intro allowance cursor rest faces follows
  have terminals : (Expr.randomInt note limit).unconverted.terminals ++ rest =
      .builtin .randomInt :: (limit.terminals ++ rest) := by
    simp [Expr.unconverted, Expr.withNote, Expr.terminals, Note.terminals]
  rw [terminals] at faces
  refine Takes.peek ?_
  rw [faces.content_peek]
  refine Takes.advance faces fun faces => ?_
  refine Takes.bind (reads faces (concludes_of_follows follows))
    fun found faces same => Takes.pure faces ?_
  rw [Expr.unplaced, same, unplaced_note untyped]
  rfl

theorem readPrimary_read {x y : Expr} (readsX : ReadAlone x) (readsY : ReadAlone y) :
    ReadPrimary (.read note x y) := by
  intro allowance cursor rest faces follows
  have terminals : (Expr.read note x y).unconverted.terminals ++ rest =
      .builtin .read :: (x.terminals ++ .mark .comma :: (y.terminals ++ rest)) := by
    simp [Expr.unconverted, Expr.withNote, Expr.terminals, Note.terminals]
  rw [terminals] at faces
  refine Takes.peek ?_
  rw [faces.content_peek]
  refine Takes.advance faces fun faces => ?_
  refine Takes.bind (readsX faces (concludes_of_mem (by decide) x))
    fun foundX faces sameX => Takes.expect faces fun faces => ?_
  refine Takes.bind (readsY faces (concludes_of_follows follows))
    fun foundY faces sameY => Takes.pure faces ?_
  rw [Expr.unplaced, sameX, sameY, unplaced_note untyped]
  rfl

theorem readPrimary_var (name : String) : ReadPrimary (.var note name) := by
  intro allowance cursor rest faces follows
  refine Takes.peek ?_
  rw [faces.content_peek]
  refine Takes.peekSecond (Takes.identifier faces fun found isName facesLater => ?_)
  -- what stands behind the name is neither of the marks that would make it a call or an element
  have second : cursor.peekSecond.terminal = upcoming rest := faces.peekSecond
  split
  · rename_i isParen
    exact absurd (second ▸ Token.terminal_of_content (by decide) isParen) follows.notParen
  · rename_i isSquare
    exact absurd (second ▸ Token.terminal_of_content (by decide) isSquare) follows.notSquare
  · refine Takes.pure facesLater ?_
    rw [Expr.unplaced, unplaced_note untyped, isName]
    rfl

theorem readPrimary_index {name : Ident} {offset : Expr} (reads : ReadAlone offset) :
    ReadPrimary (.index note name offset) := by
  intro allowance cursor rest faces follows
  have terminals : (Expr.index note name offset).unconverted.terminals ++ rest =
      .name name.value :: .mark .openSquare ::
        (offset.terminals ++ .mark .closeSquare :: rest) := by
    simp [Expr.unconverted, Expr.withNote, Expr.terminals, Note.terminals]
  rw [terminals] at faces
  refine Takes.peek ?_
  rw [faces.content_peek]
  refine Takes.peekSecond (Takes.identifier faces fun found isName facesLater => ?_)
  rw [Token.content_eq, faces.peekSecond]
  refine Takes.advance facesLater fun faces => ?_
  refine Takes.bind (reads faces (concludes_of_mem (by decide) offset))
    fun offset faces same => Takes.expect faces fun faces => Takes.pure faces ?_
  rw [Expr.unplaced, same, unplaced_note untyped, Located.unplaced, isName]
  rfl

theorem readPrimary_call {function : Ident} (reads : ∀ item ∈ items, ReadAlone item) :
    ReadPrimary (.call note function items) := by
  intro allowance cursor rest faces follows
  have terminals : (Expr.call note function items).unconverted.terminals ++ rest =
      .name function.value :: .mark .openParen ::
        (commas (items.map Expr.terminals) ++ .mark .closeParen :: rest) := by
    simp [Expr.unconverted, Expr.withNote, Expr.terminals, Note.terminals, eachTerminals_eq_map]
  rw [terminals] at faces
  refine Takes.peek ?_
  rw [faces.content_peek]
  refine Takes.peekSecond (Takes.identifier faces fun found isName facesLater => ?_)
  rw [Token.content_eq, faces.peekSecond]
  refine Takes.advance facesLater fun faces => ?_
  refine Takes.bind (listUpTo_takes (by decide) (by decide) (by decide) reads faces)
    fun items faces same => Takes.pure faces ?_
  rw [Expr.unplaced, same, unplaced_note untyped, Located.unplaced, isName]
  rfl

end Primary

/-! ### Canonical expressions -/

mutual

/-- Canonical expressions are readable. -/
theorem readable_of_isCanonical {expr : Expr} (canonical : expr.isCanonical = true)
    (untyped : expr.note.type = none) : Readable expr := by
  match expr with
  | .literal note value => exact readable_of_primary rfl (readPrimary_literal untyped value)
  | .side note which => exact readable_of_primary rfl (readPrimary_side untyped which)
  | .array note items =>
    exact readable_of_primary rfl (readPrimary_array untyped (readAlone_of_allCanonical canonical))
  | .read note x y =>
    rw [Expr.isCanonical, Bool.and_eq_true] at canonical
    exact readable_of_primary rfl (readPrimary_read untyped (readAlone_of_isCanonical canonical.1)
      (readAlone_of_isCanonical canonical.2))
  | .randomInt note limit =>
    exact readable_of_primary rfl
      (readPrimary_randomInt untyped (readAlone_of_isCanonical canonical))
  | .var note name => exact readable_of_primary rfl (readPrimary_var untyped name)
  | .index note name offset =>
    rw [Expr.isCanonical, Bool.and_eq_true] at canonical
    exact readable_of_primary rfl
      (readPrimary_index untyped (readAlone_of_isCanonical canonical.2))
  | .call note function items =>
    rw [Expr.isCanonical, Bool.and_eq_true] at canonical
    exact readable_of_primary rfl
      (readPrimary_call untyped (readAlone_of_allCanonical canonical.2))
  | .group note inner =>
    exact readable_of_primary rfl (readPrimary_group untyped (readAlone_of_isCanonical canonical))
  | .unary note operator operand =>
    rw [Expr.isCanonical, Bool.and_eq_true] at canonical
    obtain ⟨loose, plain, untypedOperand⟩ := Expr.standsAt_iff.mp canonical.2
    have readable := readable_of_isCanonical canonical.1 untypedOperand
    exact readable_of_unary
      (read_unary untyped plain (readable.read unaryLevel loose (Nat.le_refl _)))
  | .binary note left operator right =>
    simp only [Expr.isCanonical, Bool.and_eq_true, Bool.not_eq_true'] at canonical
    obtain ⟨⟨⟨canonicalLeft, standsLeft⟩, closed⟩, canonicalRight, standsRight⟩ := canonical
    exact readable_binary untyped standsLeft closed standsRight
      (readable_of_isCanonical canonicalLeft (Expr.standsAt_iff.mp standsLeft).2.2)
      (readable_of_isCanonical canonicalRight (Expr.standsAt_iff.mp standsRight).2.2)

/-- A canonical expression that stands on its own is read back. -/
theorem readAlone_of_isCanonical {expr : Expr}
    (whole : (expr.isCanonical && expr.standsAlone) = true) : ReadAlone expr := by
  rw [Bool.and_eq_true] at whole
  have stands := whole.2
  rw [Expr.standsAlone, Bool.and_eq_true, Option.isNone_iff_eq_none] at stands
  exact (readable_of_isCanonical whole.1 stands.1).alone whole.2

theorem readAlone_of_allCanonical {items : List Expr} (canonical : allCanonical items = true) :
    ∀ item ∈ items, ReadAlone item := by
  match items with
  | [] => exact List.forall_mem_nil _
  | first :: rest =>
    rw [allCanonical, Bool.and_eq_true] at canonical
    exact List.forall_mem_cons.mpr
      ⟨readAlone_of_isCanonical canonical.1, readAlone_of_allCanonical canonical.2⟩

end

end Grammar

end PadLang
