/-
This file holds deterministic automata that recognise the longest prefix of a text.

An automaton does not look at characters directly but at categories, which are named tests
on characters. One character may pass several tests at once (an `a` is a letter and also a
hexadecimal digit), so the categories are tried in a fixed order and the first one that has
a transition from the current state is taken.

The longest match runs as far as there are transitions and then falls back to the last
accepting state it went through. If there was none, the whole run is rejected; a rejected
run is never empty, so that a caller who skips it makes progress.
-/

import PadLang.Fault

namespace PadLang

/-! ### Automata -/

/-- A deterministic automaton over categories of characters. -/
structure Automaton (State Category Kind : Type) where
  /-- The categories with their tests, in the order they are tried. -/
  categories : List (Category × (Char → Bool))
  /-- The state reached from a state by a category. -/
  step : State → Category → Option State
  /-- The kind of text recognised in a state. -/
  accepts : State → Option Kind
  /-- The state before the first character. -/
  start : State

/-- What a longest match finds. -/
inductive Verdict (Kind : Type) where
  /-- The prefix of this length is the longest one recognised, as text of this kind. -/
  | accepted (kind : Kind) (length : Nat)
  /-- No prefix is recognised; this many characters were tried. -/
  | rejected (length : Nat)
deriving DecidableEq, Repr

/-- The characters a verdict is about. -/
def Verdict.length {Kind : Type} : Verdict Kind → Nat
  | .accepted _ length => length
  | .rejected length => length

namespace Automaton

variable {State Category Kind : Type}

/-- The categories whose tests a character passes, in order. -/
def categorize (automaton : Automaton State Category Kind) (character : Char) : List Category :=
  (automaton.categories.filter fun category => category.2 character).map Prod.fst

/-- The state reached by the first of the categories that has a transition. -/
def transition (automaton : Automaton State Category Kind) (state : State)
    (categories : List Category) : Option State :=
  categories.findSome? (automaton.step state)

/-- The state reached by one character. -/
def next (automaton : Automaton State Category Kind) (state : State) (character : Char) :
    Option State :=
  automaton.transition state (automaton.categorize character)

/-- The last accepted prefix once a state has been reached: a new one if the state accepts,
else the one before. -/
def latest (automaton : Automaton State Category Kind) (state : State) (consumed : Nat)
    (earlier : Option (Kind × Nat)) : Option (Kind × Nat) :=
  match automaton.accepts state with
  | some kind => some (kind, consumed)
  | none => earlier

/-- The verdict at the end of a run. -/
def conclude (consumed : Nat) : Option (Kind × Nat) → Verdict Kind
  | some (kind, length) => .accepted kind length
  | none => .rejected (max consumed 1)

/-- Goes on with a run that has consumed some characters and last accepted some prefix. -/
def pursue (automaton : Automaton State Category Kind) (state : State) (consumed : Nat)
    (earlier : Option (Kind × Nat)) : List Char → Verdict Kind
  | [] => conclude consumed (automaton.latest state consumed earlier)
  | character :: rest =>
    match automaton.next state character with
    | none => conclude consumed (automaton.latest state consumed earlier)
    | some reached =>
      automaton.pursue reached (consumed + 1) (automaton.latest state consumed earlier) rest

/-- The longest prefix of a text that the automaton recognises. -/
def longestMatch (automaton : Automaton State Category Kind) (text : List Char) : Verdict Kind :=
  automaton.pursue automaton.start 0 none text

/-! ### Tables -/

/-- An automaton written out as tables. A later entry for the same state and category, or
for the same accepting state, replaces an earlier one. -/
structure Table (State Category Kind : Type) where
  categories : List (Category × (Char → Bool))
  transitions : List ((State × Category) × State)
  accepting : List (State × Kind)
  start : Option State

/-- The automaton of a table, which needs a state to start in. -/
def Table.build [BEq State] [BEq Category] (table : Table State Category Kind) :
    Except Fault (Automaton State Category Kind) :=
  match table.start with
  | none => .error .missingStart
  | some start =>
    .ok {
      categories := table.categories
      step := fun state category => table.transitions.reverse.lookup (state, category)
      accepts := fun state => table.accepting.reverse.lookup state
      start }

end Automaton

end PadLang
