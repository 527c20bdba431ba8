/-
This file orders the positions of a text.

A position comes before another if it is on an earlier line, or further to the left on the same
one. Every character leads to a later position, so the characters before a position determine how
positions compare.
-/

import PadLang.Position
import PadLang.Proofs.Outcome
import Mathlib.Data.Prod.Lex

namespace PadLang

namespace Position

variable {text : List Char}

/-! ### The order -/

/-- Positions are ordered by line and then by column. -/
instance : PartialOrder Position :=
  PartialOrder.lift (fun position => toLex (position.line, position.column)) (by
    rintro ⟨line, column⟩ ⟨otherLine, otherColumn⟩ same
    cases toLex.injective same
    rfl)

theorem lt_iff {first second : Position} :
    first < second ↔ first.line < second.line ∨
      first.line = second.line ∧ first.column < second.column :=
  Prod.Lex.toLex_lt_toLex

instance : DecidableLT Position := fun _ _ => decidable_of_iff _ lt_iff.symm

/-! ### Characters lead forward -/

variable {position next : Position}

theorem advance_lt : Meets False (position < ·) position.advance := by
  refine Meets.bind (Counter.add_meets False.elim) ?_
  rintro _ ⟨rfl, -⟩
  exact Meets.pure (lt_iff.mpr (.inr ⟨rfl, Nat.lt_succ_self _⟩))

theorem newline_lt : Meets False (position < ·) position.newline := by
  refine Meets.bind (Counter.add_meets False.elim) ?_
  rintro _ ⟨rfl, -⟩
  exact Meets.pure (lt_iff.mpr (.inl (Nat.lt_succ_self _)))

/-- A tab leads past the column it begins in. -/
theorem tab_lt : Meets False (position < ·) position.tab := by
  rw [tab, Counter.subtract]
  split
  · rename_i positive
    change Meets _ _ (Counter.add ((position.column - 1) / tabStop) 1 >>= _)
    refine Meets.bind (Counter.add_meets False.elim) ?_
    rintro _ ⟨rfl, -⟩
    refine Meets.bind (Counter.multiply_meets False.elim) ?_
    rintro _ ⟨rfl, -⟩
    refine Meets.bind (Counter.add_meets False.elim) ?_
    rintro _ ⟨rfl, -⟩
    refine Meets.pure (lt_iff.mpr (.inr ⟨rfl, ?_⟩))
    dsimp only [tabStop]
    omega
  · exact not_false

theorem lt_of_after {character : Char} (moved : position.after character = .ok next) :
    position < next := by
  have leads : Meets False (position < ·) (position.after character) := by
    unfold after
    split
    · exact newline_lt
    · split
      · exact tab_lt
      · exact advance_lt
  exact leads.good_of_ok moved

/-- The position after a run of characters is found by taking them one after the other. -/
theorem afterAll_eq_foldlM (position : Position) (text : List Char) :
    position.afterAll text = text.foldlM after position := by
  induction text generalizing position with
  | nil => rfl
  | cons character rest inductionHypothesis =>
    rw [afterAll, List.foldlM_cons]
    exact bind_congr fun next => inductionHypothesis next

theorem afterAll_append (position : Position) (front rest : List Char) :
    position.afterAll (front ++ rest) = position.afterAll front >>= (·.afterAll rest) := by
  simp only [afterAll_eq_foldlM, List.foldlM_append]

theorem le_of_afterAll (moved : position.afterAll text = .ok next) : position ≤ next := by
  induction text generalizing position with
  | nil =>
    cases moved
    exact le_refl _
  | cons character rest inductionHypothesis =>
    obtain ⟨middle, first, others⟩ := bind_eq_ok_iff.mp moved
    exact (lt_of_after first).le.trans (inductionHypothesis others)

theorem lt_of_afterAll (nonempty : text ≠ []) (moved : position.afterAll text = .ok next) :
    position < next := by
  obtain ⟨character, rest, rfl⟩ := List.exists_cons_of_ne_nil nonempty
  obtain ⟨middle, first, others⟩ := bind_eq_ok_iff.mp moved
  exact (lt_of_after first).trans_le (le_of_afterAll others)

end Position

end PadLang
