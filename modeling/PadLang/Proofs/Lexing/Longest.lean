/-
This file says what the longest match of an automaton finds.

A run follows the transitions of a text, and ends in a state if every character has one. A text is
recognised if its run ends in an accepting state. The longest match runs as far as there are
transitions and keeps the last prefix that was recognised on the way. Since a prefix that no run
reaches is not recognised, that prefix is the longest one of all.

The same is said at the end of runs that are given as a relation, one step for each character by
the first category that has a transition.
-/

import PadLang.Automaton
import Mathlib.Data.Nat.SuccPred
import Mathlib.Order.SuccPred.Archimedean

namespace PadLang

namespace Automaton

variable {State Category Kind : Type} {kind : Kind} {earlier : Option (Kind × Nat)}
  {length consumed : Nat} {character : Char} {reached : State} {rest : List Char}

/-! ### Runs -/

/-- The state that a text leads to, if each of its characters has a transition. -/
def run (automaton : Automaton State Category Kind) (state : State) : List Char → Option State
  | [] => some state
  | character :: rest => (automaton.next state character).bind (automaton.run · rest)

/-- The kind as which a text is recognised from a state. -/
def recognize (automaton : Automaton State Category Kind) (state : State) (text : List Char) :
    Option Kind :=
  (automaton.run state text).bind automaton.accepts

/-- The number of characters that have transitions one after the other. -/
def reach (automaton : Automaton State Category Kind) (state : State) : List Char → Nat
  | [] => 0
  | character :: rest =>
    match automaton.next state character with
    | none => 0
    | some reached => automaton.reach reached rest + 1

variable {automaton : Automaton State Category Kind} {state : State} {text : List Char}

theorem recognize_nil : automaton.recognize state [] = automaton.accepts state := rfl

theorem recognize_cons (character : Char) (rest : List Char) :
    automaton.recognize state (character :: rest) =
      (automaton.next state character).bind (automaton.recognize · rest) :=
  Option.bind_assoc _ _ _

theorem reach_le_length (state : State) (text : List Char) :
    automaton.reach state text ≤ text.length := by
  induction text generalizing state with
  | nil => exact Nat.le_refl _
  | cons character rest inductionHypothesis =>
    rw [reach]
    split
    · exact Nat.zero_le _
    · exact Nat.succ_le_succ (inductionHypothesis _)

/-! ### States with few transitions -/

section

variable {accepted : Kind} {passes : Char → Bool} {text : List Char}

/-- A state that is left for itself only recognises the texts that pass its test throughout. -/
theorem recognize_loop (accepts : automaton.accepts state = some accepted)
    (loops : ∀ character, automaton.next state character =
      if passes character then some state else none) :
    automaton.recognize state text = some kind ↔
      kind = accepted ∧ ∀ character ∈ text, passes character := by
  induction text with
  | nil =>
    rw [recognize_nil, accepts, Option.some_inj, eq_comm]
    exact (and_iff_left (List.forall_mem_nil _)).symm
  | cons character rest inductionHypothesis =>
    rw [recognize_cons, loops, List.forall_mem_cons, and_left_comm,
      ← inductionHypothesis]
    cases passes character with
    | true => exact (and_iff_right rfl).symm
    | false =>
      exact iff_of_false (Option.some_ne_none kind).symm fun both => Bool.false_ne_true both.1

/-- A state in front of such a state, entered by the same test, needs one character. -/
theorem recognize_enter {inner : State} (refuses : automaton.accepts state = none)
    (accepts : automaton.accepts inner = some accepted)
    (enters : ∀ character, automaton.next state character =
      if passes character then some inner else none)
    (loops : ∀ character, automaton.next inner character =
      if passes character then some inner else none) :
    automaton.recognize state text = some kind ↔
      kind = accepted ∧ text ≠ [] ∧ ∀ character ∈ text, passes character := by
  cases text with
  | nil =>
    rw [recognize_nil, refuses]
    exact iff_of_false (Option.some_ne_none kind).symm fun all => all.2.1 rfl
  | cons character rest =>
    have same : automaton.recognize state (character :: rest) =
        automaton.recognize inner (character :: rest) := by
      rw [recognize_cons, recognize_cons, enters, loops]
    rw [same, recognize_loop accepts loops]
    exact and_congr_right fun _ => (and_iff_right (List.cons_ne_nil _ _)).symm

/-- A state that is never left recognises the empty text only. -/
theorem recognize_final (ends : ∀ character, automaton.next state character = none) :
    automaton.recognize state text = some kind ↔
      automaton.accepts state = some kind ∧ text = [] := by
  cases text with
  | nil => exact (and_iff_left rfl).symm
  | cons character rest =>
    rw [recognize_cons, ends]
    exact iff_of_false (Option.some_ne_none kind).symm fun both => List.cons_ne_nil _ _ both.2

/-- A state that is left by one character only, for a state that is never left. -/
theorem recognize_pair {second : Char} {last : State}
    (leaves : ∀ character, automaton.next state character =
      if character = second then some last else none)
    (ends : ∀ character, automaton.next last character = none) :
    automaton.recognize state text = some kind ↔
      automaton.accepts state = some kind ∧ text = [] ∨
        automaton.accepts last = some kind ∧ text = [second] := by
  cases text with
  | nil =>
    rw [recognize_nil, and_iff_left rfl, or_iff_left]
    exact fun both => List.cons_ne_nil _ _ both.2.symm
  | cons character rest =>
    rw [recognize_cons, leaves, or_iff_right fun both => List.cons_ne_nil _ _ both.2,
      List.cons_eq_cons]
    split
    · rename_i same
      rw [Option.bind_some, recognize_final ends, and_iff_right same]
    · rename_i other
      exact iff_of_false (Option.some_ne_none kind).symm fun both => other both.2.1

end

/-! ### Recognised prefixes -/

/-- The lengths of the prefixes that are recognised from a state. -/
def recognized (automaton : Automaton State Category Kind) (state : State) (text : List Char) :
    Set Nat :=
  {length | length ≤ text.length ∧ (automaton.recognize state (text.take length)).isSome}

theorem zero_mem_recognized_iff :
    0 ∈ automaton.recognized state text ↔ (automaton.accepts state).isSome :=
  and_iff_right (Nat.zero_le _)

theorem succ_mem_recognized_iff :
    length + 1 ∈ automaton.recognized state (character :: rest) ↔
      ∃ reached, automaton.next state character = some reached ∧
        length ∈ automaton.recognized reached rest := by
  change length + 1 ≤ rest.length + 1 ∧ _ ↔ ∃ reached, _ ∧ length ≤ rest.length ∧ _
  rw [List.take_succ_cons, recognize_cons, Nat.succ_le_succ_iff]
  cases automaton.next state character with
  | none =>
    refine iff_of_false (fun found => Bool.false_ne_true found.2) ?_
    rintro ⟨reached, transition, -⟩
    cases transition
  | some reached =>
    rw [Option.bind_some]
    constructor
    · exact fun found => ⟨reached, rfl, found⟩
    · rintro ⟨_, ⟨⟩, found⟩
      exact found

theorem recognized_bddAbove : BddAbove (automaton.recognized state text) :=
  ⟨text.length, fun _ found => found.1⟩

/-! ### The longest match -/

theorem latest_of_recognized_empty (barren : automaton.recognized state text = ∅) :
    automaton.latest state consumed earlier = earlier := by
  have notZero : 0 ∉ automaton.recognized state text := barren ▸ Set.notMem_empty 0
  rw [zero_mem_recognized_iff, Option.not_isSome_iff_eq_none] at notZero
  rw [latest, notZero]

theorem recognized_empty_of_next (transition : automaton.next state character = some reached)
    (barren : ∀ length, length + 1 ∉ automaton.recognized state (character :: rest)) :
    automaton.recognized reached rest = ∅ :=
  Set.eq_empty_of_forall_notMem fun length found =>
    barren length (succ_mem_recognized_iff.mpr ⟨reached, transition, found⟩)

/-- Where no prefix is recognised, the last one accepted before stands. -/
theorem pursue_of_recognized_empty (barren : automaton.recognized state text = ∅) :
    automaton.pursue state consumed earlier text =
      conclude (consumed + automaton.reach state text) earlier := by
  induction text generalizing state consumed with
  | nil => rw [pursue, latest_of_recognized_empty barren, reach, Nat.add_zero]
  | cons character rest inductionHypothesis =>
    rw [pursue, reach, latest_of_recognized_empty barren]
    cases transition : automaton.next state character with
    | none => rfl
    | some reached =>
      have barrenRest := recognized_empty_of_next transition fun length =>
        barren ▸ Set.notMem_empty (length + 1)
      change automaton.pursue reached (consumed + 1) earlier rest =
        conclude (consumed + (automaton.reach reached rest + 1)) earlier
      rw [inductionHypothesis barrenRest, Nat.add_assoc, Nat.add_comm 1]

/-- The longest prefix that is recognised is the one that is found. -/
theorem pursue_of_isGreatest (greatest : IsGreatest (automaton.recognized state text) length)
    (found : automaton.recognize state (text.take length) = some kind) :
    automaton.pursue state consumed earlier text = .accepted kind (consumed + length) := by
  induction text generalizing state consumed earlier length with
  | nil =>
    obtain rfl : length = 0 := Nat.le_zero.mp greatest.1.1
    rw [List.take_zero, recognize_nil] at found
    rw [pursue, latest, found]
    rfl
  | cons character rest inductionHypothesis =>
    rw [pursue]
    cases length with
    | zero =>
      -- Nothing longer is recognised, so the rest of the run keeps this prefix.
      rw [List.take_zero, recognize_nil] at found
      rw [latest, found]
      cases transition : automaton.next state character with
      | none => rfl
      | some reached =>
        have barren := recognized_empty_of_next transition fun longer isFound =>
          Nat.not_succ_le_zero longer (greatest.2 isFound)
        exact pursue_of_recognized_empty barren
    | succ shorter =>
      obtain ⟨reached, transition, isFound⟩ := succ_mem_recognized_iff.mp greatest.1
      rw [List.take_succ_cons, recognize_cons, transition, Option.bind_some] at found
      have greatestRest : IsGreatest (automaton.recognized reached rest) shorter := by
        refine ⟨isFound, fun other isOther => ?_⟩
        exact Nat.le_of_succ_le_succ
          (greatest.2 (succ_mem_recognized_iff.mpr ⟨reached, transition, isOther⟩))
      rw [transition]
      change automaton.pursue reached (consumed + 1) _ rest = _
      rw [inductionHypothesis greatestRest found, Nat.add_assoc, Nat.add_comm 1]

theorem longestMatch_of_recognized_empty
    (barren : automaton.recognized automaton.start text = ∅) :
    automaton.longestMatch text = .rejected (max (automaton.reach automaton.start text) 1) := by
  rw [longestMatch, pursue_of_recognized_empty barren, Nat.zero_add]
  rfl

theorem longestMatch_of_isGreatest
    (greatest : IsGreatest (automaton.recognized automaton.start text) length)
    (found : automaton.recognize automaton.start (text.take length) = some kind) :
    automaton.longestMatch text = .accepted kind length := by
  rw [longestMatch, pursue_of_isGreatest greatest found, Nat.zero_add]

/-- A longest match accepts the greatest recognised prefix, or there is none. -/
theorem longestMatch_cases (automaton : Automaton State Category Kind) (text : List Char) :
    (automaton.recognized automaton.start text = ∅ ∧ automaton.longestMatch text =
        .rejected (max (automaton.reach automaton.start text) 1)) ∨
      ∃ kind length, IsGreatest (automaton.recognized automaton.start text) length ∧
        automaton.recognize automaton.start (text.take length) = some kind ∧
        automaton.longestMatch text = .accepted kind length := by
  rcases (automaton.recognized automaton.start text).eq_empty_or_nonempty with barren | nonempty
  · exact .inl ⟨barren, longestMatch_of_recognized_empty barren⟩
  · obtain ⟨length, greatest⟩ := recognized_bddAbove.exists_isGreatest_of_nonempty nonempty
    obtain ⟨kind, found⟩ := Option.isSome_iff_exists.mp greatest.1.2
    exact .inr ⟨kind, length, greatest, found, longestMatch_of_isGreatest greatest found⟩

theorem longestMatch_eq_accepted_iff :
    automaton.longestMatch text = .accepted kind length ↔
      IsGreatest (automaton.recognized automaton.start text) length ∧
        automaton.recognize automaton.start (text.take length) = some kind := by
  constructor
  · intro accepted
    rcases automaton.longestMatch_cases text with ⟨-, rejected⟩ | ⟨_, _, greatest, found, same⟩
    · rw [rejected] at accepted
      cases accepted
    · rw [same] at accepted
      cases accepted
      exact ⟨greatest, found⟩
  · rintro ⟨greatest, found⟩
    exact longestMatch_of_isGreatest greatest found

theorem longestMatch_eq_rejected_iff :
    automaton.longestMatch text = .rejected length ↔
      automaton.recognized automaton.start text = ∅ ∧
        length = max (automaton.reach automaton.start text) 1 := by
  constructor
  · intro rejected
    rcases automaton.longestMatch_cases text with ⟨barren, verdict⟩ | ⟨_, _, -, -, accepted⟩
    · rw [verdict] at rejected
      cases rejected
      exact ⟨barren, rfl⟩
    · rw [accepted] at rejected
      cases rejected
  · rintro ⟨barren, rfl⟩
    exact longestMatch_of_recognized_empty barren

theorem exists_longestMatch_eq_rejected_iff :
    (∃ length, automaton.longestMatch text = .rejected length) ↔
      automaton.recognized automaton.start text = ∅ := by
  constructor
  · rintro ⟨length, rejected⟩
    exact (longestMatch_eq_rejected_iff.mp rejected).1
  · exact fun barren => ⟨_, longestMatch_of_recognized_empty barren⟩

/-- A verdict is about some of the characters there are. -/
theorem length_longestMatch_le (nonempty : text ≠ []) :
    (automaton.longestMatch text).length ≤ text.length := by
  rcases automaton.longestMatch_cases text with ⟨-, verdict⟩ | ⟨_, _, greatest, -, verdict⟩
  · rw [verdict]
    exact Nat.max_le.mpr ⟨reach_le_length _ _, List.length_pos_iff.mpr nonempty⟩
  · rw [verdict]
    exact greatest.1.1

/-- A verdict is about one character at least, if the empty text is not accepted. -/
theorem length_longestMatch_pos (refuses : automaton.accepts automaton.start = none) :
    0 < (automaton.longestMatch text).length := by
  rcases automaton.longestMatch_cases text with ⟨-, verdict⟩ | ⟨_, length, greatest, -, verdict⟩
  · rw [verdict]
    exact Nat.lt_of_lt_of_le Nat.one_pos (Nat.le_max_right _ _)
  · rw [verdict]
    refine Nat.pos_of_ne_zero ?_
    rintro rfl
    have accepts := zero_mem_recognized_iff.mp greatest.1
    rw [refuses] at accepts
    cases accepts

/-! ### Runs as relations -/

/-- A character leads to a state by the first of the categories it passes that has a transition. -/
def Moves (automaton : Automaton State Category Kind) (state : State) (character : Char)
    (reached : State) : Prop :=
  ∃ before category passes after,
    automaton.categories = before ++ (category, passes) :: after ∧ passes character = true ∧
      automaton.step state category = some reached ∧
      ∀ earlier ∈ before, earlier.2 character = true → automaton.step state earlier.1 = none

/-- A text leads to a state if its characters do, one after the other. -/
inductive Leads (automaton : Automaton State Category Kind) : State → List Char → State → Prop where
  | nil (state : State) : Leads automaton state [] state
  | cons {state middle reached : State} {character : Char} {rest : List Char}
      (moves : automaton.Moves state character middle)
      (leads : Leads automaton middle rest reached) :
      Leads automaton state (character :: rest) reached

/-- The categories that a character does not pass have no part in its step. -/
theorem next_eq_findSome? (character : Char) :
    automaton.next state character = automaton.categories.findSome? fun category =>
      if category.2 character then automaton.step state category.1 else none := by
  rw [next, transition, categorize, List.findSome?_map]
  induction automaton.categories with
  | nil => rfl
  | cons category rest inductionHypothesis =>
    rw [List.filter_cons, List.findSome?_cons]
    cases category.2 character with
    | true =>
      rw [if_pos rfl, if_pos rfl, List.findSome?_cons, inductionHypothesis]
      rfl
    | false => exact inductionHypothesis

theorem next_eq_some_iff :
    automaton.next state character = some reached ↔ automaton.Moves state character reached := by
  rw [next_eq_findSome?, List.findSome?_eq_some_iff]
  constructor
  · rintro ⟨before, ⟨category, passes⟩, after, split, found, earlier⟩
    obtain ⟨passed, moved⟩ := Option.ite_none_right_eq_some.mp found
    refine ⟨before, category, passes, after, split, passed, moved, fun other member isPassed => ?_⟩
    have refused := earlier other member
    rwa [if_pos isPassed] at refused
  · rintro ⟨before, category, passes, after, split, passed, moved, earlier⟩
    refine ⟨before, (category, passes), after, split, ?_, fun other member => ?_⟩
    · rw [if_pos passed, moved]
    · split
      · rename_i isPassed
        exact earlier other member isPassed
      · rfl

theorem run_eq_some_iff :
    automaton.run state text = some reached ↔ automaton.Leads state text reached := by
  induction text generalizing state with
  | nil =>
    rw [run, Option.some_inj]
    constructor
    · rintro rfl
      exact .nil state
    · rintro ⟨⟩
      rfl
  | cons character rest inductionHypothesis =>
    rw [run, Option.bind_eq_some_iff]
    constructor
    · rintro ⟨middle, moved, others⟩
      exact .cons (next_eq_some_iff.mp moved) (inductionHypothesis.mp others)
    · rintro (_ | ⟨moves, leads⟩)
      exact ⟨_, next_eq_some_iff.mpr moves, inductionHypothesis.mpr leads⟩

theorem recognize_eq_some_iff :
    automaton.recognize state text = some kind ↔
      ∃ reached, automaton.Leads state text reached ∧ automaton.accepts reached = some kind := by
  rw [recognize, Option.bind_eq_some_iff]
  exact exists_congr fun reached => and_congr_left' run_eq_some_iff

theorem mem_recognized_iff :
    length ∈ automaton.recognized state text ↔ length ≤ text.length ∧
      ∃ reached kind, automaton.Leads state (text.take length) reached ∧
        automaton.accepts reached = some kind := by
  refine and_congr_right fun _ => ?_
  simp only [Option.isSome_iff_exists, recognize_eq_some_iff]
  exact exists_comm

/-- A number with a point but no digit behind it ends in front of the point. -/
example :
    let digits : Table Nat Bool String := {
      categories := [(true, Char.isDigit), (false, (· == '.'))]
      transitions := [((0, true), 1), ((1, true), 1), ((1, false), 2), ((2, true), 3)]
      accepting := [(1, "whole"), (3, "fraction")]
      start := some 0 }
    (digits.build.toOption.map fun automaton => automaton.longestMatch "12.x".toList) =
      some (.accepted "whole" 2) := by
  decide

end Automaton

end PadLang
