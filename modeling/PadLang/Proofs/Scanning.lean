/-
This file shows that no text of a moderate size drives a position out of range.

A character starts at most one line, and it moves a column by at most the width of a tab stop.
So after so many characters lines and columns are bounded by that many, and every counter on the
way to them holds. A scan makes at most one token of each character, and one for the end.
-/

import PadLang.Token.Scan
import PadLang.Proofs.Outcome

namespace PadLang

/-! ### Positions -/

namespace Position

/-- A position that so many characters can lead to. -/
structure Within (position : Position) (count : Nat) : Prop where
  line : position.line ≤ count + 1
  positive : 1 ≤ position.column
  column : position.column ≤ count * tabStop + 1

theorem within_start : ({} : Position).Within 0 :=
  ⟨Nat.le_refl _, Nat.le_refl _, Nat.le_refl _⟩

variable {position : Position} {count : Nat}

variable (within : position.Within count)

include within

theorem advance_meets :
    Meets ((count + 1) * tabStop + 1 < Counter.bound) (·.Within (count + 1)) position.advance := by
  obtain ⟨line, -, column⟩ := within
  dsimp only [tabStop] at column ⊢
  refine Meets.bind (Counter.add_meets fun small => by omega) ?_
  rintro _ ⟨rfl, -⟩
  refine Meets.pure ⟨?_, ?_, ?_⟩ <;> dsimp only [tabStop] <;> omega

theorem newline_meets :
    Meets ((count + 1) * tabStop + 1 < Counter.bound) (·.Within (count + 1)) position.newline := by
  have line := within.line
  dsimp only [tabStop]
  refine Meets.bind (Counter.add_meets fun small => by omega) ?_
  rintro _ ⟨rfl, -⟩
  refine Meets.pure ⟨?_, ?_, ?_⟩ <;> dsimp only <;> omega

/-- The next tab stop is at most the width between two stops away. -/
theorem tab_meets :
    Meets ((count + 1) * tabStop + 1 < Counter.bound) (·.Within (count + 1)) position.tab := by
  obtain ⟨line, positive, column⟩ := within
  rw [tab, Counter.subtract, if_pos positive]
  dsimp only [tabStop] at column ⊢
  have stops : (position.column - 1) / 4 ≤ count := by omega
  change Meets _ _ (Counter.add ((position.column - 1) / 4) 1 >>= _)
  refine Meets.bind (Counter.add_meets fun small => by omega) ?_
  rintro _ ⟨rfl, -⟩
  refine Meets.bind (Counter.multiply_meets fun small => by omega) ?_
  rintro _ ⟨rfl, -⟩
  refine Meets.bind (Counter.add_meets fun small => by omega) ?_
  rintro _ ⟨rfl, -⟩
  refine Meets.pure ⟨?_, ?_, ?_⟩ <;> dsimp only [tabStop] <;> omega

theorem after_meets (character : Char) :
    Meets ((count + 1) * tabStop + 1 < Counter.bound) (·.Within (count + 1))
      (position.after character) := by
  unfold after
  split
  · exact newline_meets within
  · split
    · exact tab_meets within
    · exact advance_meets within

theorem afterAll_meets (text : List Char) :
    Meets ((count + text.length) * tabStop + 1 < Counter.bound) (·.Within (count + text.length))
      (position.afterAll text) := by
  induction text generalizing position count with
  | nil => exact Meets.ok within
  | cons character rest inductionHypothesis =>
    have sum : count + (character :: rest).length = count + 1 + rest.length := by
      rw [List.length_cons]
      omega
    rw [sum]
    refine Meets.bind ((after_meets within character).weaken fun small => ?_) fun next reached =>
      inductionHypothesis reached
    rw [tabStop] at small ⊢
    omega

end Position

/-! ### Scans -/

namespace Scan

open Position (tabStop)

theorem itemsFrom_meets {position : Position} {count : Nat} (within : position.Within count)
    (text : List Char) :
    Meets ((count + text.length) * tabStop + 1 < Counter.bound)
      (fun items => items.length ≤ text.length + 1) (itemsFrom position text) := by
  match text with
  | [] =>
    rw [itemsFrom]
    exact Meets.ok (Nat.le_refl _)
  | first :: rest =>
    rw [itemsFrom]
    generalize Lexicon.automaton.longestMatch (first :: rest) = verdict
    have parts : (first :: rest.take (verdict.length - 1)).length +
        (rest.drop (verdict.length - 1)).length = (first :: rest).length := by
      simp only [List.length_cons, List.length_take, List.length_drop]
      omega
    refine Meets.bind ((Position.afterAll_meets within _).weaken fun small => ?_)
      fun next reached => ?_
    · rw [tabStop] at small ⊢
      omega
    · refine Meets.bind ((itemsFrom_meets reached _).weaken fun small => ?_) fun items few => ?_
      · rw [tabStop] at small ⊢
        omega
      · refine Meets.pure ?_
        rw [List.length_cons] at *
        omega
termination_by text.length
decreasing_by
  simp only [List.length_drop, List.length_cons]
  omega

theorem items_meets (source : String) :
    Meets (source.length * tabStop + 1 < Counter.bound)
      (fun items => items.length ≤ source.length + 1) (items source) := by
  have scanned := itemsFrom_meets Position.within_start source.toList
  rwa [Nat.zero_add, String.length_toList] at scanned

theorem length_tokens_le (items : List Item) : (tokens items).length ≤ items.length :=
  List.length_filterMap_le _ _

end Scan

end PadLang
