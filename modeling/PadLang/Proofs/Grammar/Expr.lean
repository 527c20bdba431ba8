/-
This file follows types and expressions through the tokens ahead.

Each nested expression and each repetition begins after a token of the one before. So an
allowance larger than the number of tokens ahead is never used up. A token is consumed only where
it is known not to be the end of file.
-/

import PadLang.Proofs.Grammar.Cursor

namespace PadLang

variable {token : Token} {operand nested : Rule Expr} {bound count : Nat}

namespace Grammar

open Rule

variable {clear opened : Cursor → Cursor → Prop} (pairs : Cursor.Pairs clear opened)

include pairs

/-! ### Types -/

theorem keeps_type : Keeps clear bound true type := by
  intro token
  refine pairs.peek_bind pairs.opens ?_
  split
  · exact pairs.refuse _ token
  · rename_i base isBase
    have notEnd : token.content ≠ .mark .endOfFile := by
      intro isEnd
      rw [tokenBase?, isEnd] at isBase
      cases isBase
    refine Follows.any ((pairs.advance pairs.opens notEnd).bind fun _ =>
      pairs.option (by decide) (fun _ => ?_) (keeps_pure _))
    intro token
    refine pairs.peek_bind pairs.opens ?_
    split
    · exact pairs.refuse _ token
    · rename_i size isSize
      have notEnd : token.content ≠ .mark .endOfFile := by
        intro isEnd
        rw [arraySize?, isEnd] at isSize
        cases isSize
      exact Follows.any ((pairs.advance pairs.opens notEnd).bind fun _ =>
        (pairs.expect (by decide)).bind fun _ => keeps_pure _)

/-! ### Operators -/

omit pairs in
theorem content_ne_of_operator? {tier : Tier} {operator : BinaryOperator} (listed : tier ∈ tiers)
    (found : tier.operator? token = some operator) : token.content ≠ .mark .endOfFile := by
  intro isEnd
  have unlisted : ∀ tier ∈ tiers, tier.operators.lookup .endOfFile = none := by decide
  rw [Tier.operator?, isEnd] at found
  cases (unlisted tier listed).symm.trans found

section Chains

variable {tier : Tier} (listed : tier ∈ tiers)

include listed

/-- An operator is consumed, and what comes behind it is read. -/
theorem keeps_operator {absent : Rule Expr} {present : BinaryOperator → Token → Rule Expr}
    (reads : ∀ operator token, Keeps clear bound true (present operator token))
    (others : Keeps clear (bound + 1) false absent) :
    Keeps clear (bound + 1) false (do
      match tier.operator? (← peek) with
      | none => absent
      | some operator =>
        let token ← advance
        present operator token) := by
  intro token
  refine pairs.peek_bind pairs.opens ?_
  split
  · exact others token
  · rename_i operator isOperator
    have notEnd := content_ne_of_operator? listed isOperator
    exact Follows.any ((pairs.advance pairs.opens notEnd).after fun _ => reads operator _)

theorem keeps_leftChain (each : Keeps clear bound true operand) (enough : bound ≤ count)
    (left : Expr) : Keeps clear bound false (leftChain tier operand count left) := by
  induction bound generalizing count left with
  | zero => exact keeps_zero _
  | succ bound inductionHypothesis =>
    obtain ⟨count, rfl⟩ := Nat.exists_eq_succ_of_ne_zero (Nat.ne_zero_of_lt enough)
    have fewer := each.within (Nat.le_succ bound)
    exact keeps_operator pairs listed (fun _ _ => fewer.bind fun _ =>
      inductionHypothesis fewer (Nat.le_of_succ_le_succ enough) _) (keeps_pure _)

theorem keeps_rightChain (each : Keeps clear bound true operand) (enough : bound ≤ count) :
    Keeps clear bound true (rightChain tier operand count) := by
  induction bound generalizing count with
  | zero => exact keeps_zero _
  | succ bound inductionHypothesis =>
    obtain ⟨count, rfl⟩ := Nat.exists_eq_succ_of_ne_zero (Nat.ne_zero_of_lt enough)
    have others := inductionHypothesis (each.within (Nat.le_succ bound))
      (Nat.le_of_succ_le_succ enough)
    exact each.bind fun _ => keeps_operator pairs listed
      (fun _ _ => others.bind fun _ => keeps_pure _) (keeps_pure _)

end Chains

theorem keeps_climb {tightest : Rule Expr} (each : Keeps clear count true tightest)
    {some : List Tier} (listed : ∀ tier ∈ some, tier ∈ tiers) :
    Keeps clear count true (climb tightest count some) := by
  induction some with
  | nil => exact each
  | cons tier tighter inductionHypothesis =>
    obtain ⟨listedFirst, listedRest⟩ := List.forall_mem_cons.mp listed
    have operands := inductionHypothesis listedRest
    rw [climb]
    cases tier.associativity with
    | left =>
      exact operands.bind fun _ => keeps_leftChain pairs listedFirst operands (Nat.le_refl _) _
    | right => exact keeps_rightChain pairs listedFirst operands (Nat.le_refl _)

theorem keeps_unary {primary : Rule Expr} (each : Keeps clear bound true primary)
    (enough : bound ≤ count) : Keeps clear bound true (unary primary count) := by
  induction bound generalizing count with
  | zero => exact keeps_zero _
  | succ bound inductionHypothesis =>
    obtain ⟨count, rfl⟩ := Nat.exists_eq_succ_of_ne_zero (Nat.ne_zero_of_lt enough)
    have others := inductionHypothesis (each.within (Nat.le_succ bound))
      (Nat.le_of_succ_le_succ enough)
    intro token
    refine pairs.peek_bind pairs.opens ?_
    split
    · exact each token
    · rename_i operator isOperator
      have notEnd : token.content ≠ .mark .endOfFile := by
        intro isEnd
        rw [unaryOperator?, isEnd] at isOperator
        cases isOperator
      exact Follows.any ((pairs.advance pairs.opens notEnd).after fun _ =>
        others.bind fun _ => keeps_pure _)

/-! ### Primary expressions -/

section Nested

variable (each : Keeps clear bound true nested)

include each

theorem keeps_listUpTo {closing : Mark} (notEnd : closing ≠ .endOfFile) (enough : bound ≤ count) :
    Keeps clear bound true (listUpTo closing nested count) := by
  have closed (items : List Expr) : Keeps clear bound true (do
      let _ ← expect closing
      return items) := (pairs.expect notEnd).bind fun _ => keeps_pure _
  exact pairs.sees.bind fun _ => .ite ((keeps_pure _).bind closed)
    ((keeps_commaSeparated pairs each enough).bind closed)

theorem keeps_builtinOperands (note : Note) (builtin : Builtin) :
    Keeps clear bound false (builtinOperands note builtin nested) := by
  cases builtin with
  | width | height => exact keeps_pure _
  | print | delay | write | writeBox | clear => exact pairs.refuse _
  | randomInt => exact (each.bind fun _ => keeps_pure _).lax
  | read =>
    exact (each.bind fun _ => (pairs.expect (by decide)).bind fun _ =>
      each.bind fun _ => keeps_pure _).lax

theorem follows_named (isName : token.content = .mark .identifier) (note : Note)
    (enough : bound ≤ count) :
    Follows clear clear token (bound + 1) true false (named note nested count) := by
  refine pairs.named isName fun second name => ?_
  split
  · rename_i isParen
    exact Follows.any ((pairs.advance pairs.opens (by simp [isParen])).bind fun _ =>
      (keeps_listUpTo pairs each (by decide) enough).bind fun _ => keeps_pure _)
  · rename_i isSquare
    exact Follows.any ((pairs.advance pairs.opens (by simp [isSquare])).bind fun _ =>
      each.bind fun _ => (pairs.expect (by decide)).bind fun _ => keeps_pure _)
  · exact keeps_pure _ second

theorem keeps_primary (enough : bound ≤ count) :
    Keeps clear (bound + 1) true (primary nested count) := by
  intro token
  refine pairs.peek_bind pairs.opens ?_
  dsimp only
  split
  · rename_i isLiteral
    exact Follows.any ((pairs.advance pairs.opens (by simp [isLiteral])).bind fun _ => keeps_pure _)
  · rename_i isBuiltin
    split
    · exact pairs.refuse _ token
    · exact Follows.any ((pairs.advance pairs.opens (by simp [isBuiltin])).after fun _ =>
        keeps_builtinOperands pairs each _ _)
  · rename_i isParen
    exact Follows.any ((pairs.advance pairs.opens (by simp [isParen])).after fun _ =>
      each.bind fun _ => (pairs.expect (by decide)).bind fun _ => keeps_pure _)
  · rename_i isSquare
    exact Follows.any ((pairs.advance pairs.opens (by simp [isSquare])).after fun _ =>
      (keeps_listUpTo pairs each (by decide) enough).bind fun _ => keeps_pure _)
  · rename_i isName
    exact follows_named pairs each isName _ enough
  · exact pairs.refuse _ token

end Nested

/-! ### Expressions -/

theorem keeps_conversion (each : Keeps clear bound true operand) :
    Keeps clear bound true (conversion operand) :=
  each.bind fun _ => pairs.option (by decide)
    (fun _ => (keeps_type pairs).bind fun _ => keeps_pure _) (keeps_pure _)

/-- An allowance above the number of tokens ahead is enough for an expression, which consumes at
least one of them. -/
theorem keeps_expression (allowance : Nat) :
    Keeps clear allowance true (expression allowance) := by
  induction allowance with
  | zero => exact keeps_zero _
  | succ allowance inductionHypothesis =>
    have tightest := keeps_unary pairs
      (keeps_primary pairs inductionHypothesis (Nat.le_succ allowance)) (Nat.le_refl _)
    exact keeps_conversion pairs (keeps_climb pairs tightest fun _ => id)

end Grammar

end PadLang
