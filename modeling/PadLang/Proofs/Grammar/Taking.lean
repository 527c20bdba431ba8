/-
This file says what it is for a rule to take terminals.

A rule that faces the terminals of a construct takes just them and delivers the construct, if what
comes next cannot go on with it. That is said of the rules whose allowance does not run out; that it
does not is known of whole programs. Rules that follow one another take terminals that follow one
another; types and lists are the first constructs built from that.
-/

import PadLang.Proofs.Grammar.Canonical
import PadLang.Proofs.Grammar.Spelling

namespace PadLang

variable {mark : Mark}

/-! ### Facing terminals -/

/-- The terminal that is seen next, the end of file if there is none. -/
def upcoming (terminals : List Terminal) : Terminal := terminals.headD (.mark .endOfFile)

theorem upcoming_mark_ne {other : Mark} (differ : mark ≠ other) (rest : List Terminal) :
    upcoming (.mark mark :: rest) ≠ .mark other := fun same => differ (Terminal.mark.inj same)

namespace Cursor

/-- A place in front of these terminals, with no errors so far. -/
structure Faces (cursor : Cursor) (terminals : List Terminal) : Prop where
  ended : cursor.Ended
  clean : cursor.errors = []
  ahead : cursor.ahead.map Token.terminal = terminals

variable {cursor : Cursor} {terminal : Terminal} {terminals : List Terminal}

theorem Faces.peek (faces : cursor.Faces terminals) :
    cursor.peek.terminal = upcoming terminals := by
  rw [← faces.ahead, Cursor.peek, upcoming]
  cases cursor.ahead with
  | nil =>
    have isEnd := Cursor.content_of_isMark faces.ended
    exact Token.terminal_of_content (by decide) isEnd
  | cons token rest => rfl

theorem Faces.content_peek (faces : cursor.Faces (terminal :: terminals)) :
    cursor.peek.content = terminal.content := by
  rw [Token.content_eq, faces.peek]
  rfl

theorem Faces.advance (faces : cursor.Faces (terminal :: terminals)) :
    cursor.advance.Faces terminals := by
  obtain ⟨ended, clean, ahead⟩ := faces
  unfold Cursor.advance
  cases isAhead : cursor.ahead with
  | nil =>
    rw [isAhead] at ahead
    cases ahead
  | cons token rest =>
    rw [isAhead, List.map_cons] at ahead
    exact ⟨ended, clean, (List.cons.inj ahead).2⟩

theorem Faces.peekSecond (faces : cursor.Faces (terminal :: terminals)) :
    cursor.peekSecond.terminal = upcoming terminals := by
  have some_left : cursor.ahead ≠ [] := by
    intro nothing
    have ahead := faces.ahead
    rw [nothing] at ahead
    cases ahead
  rw [← peek_advance some_left]
  exact faces.advance.peek

end Cursor

theorem Token.isMark_eq (token : Token) (mark : Mark) :
    token.isMark mark = (token.terminal.content == .mark mark) := by
  rw [isMark, token.content_eq]

namespace Rule

variable {α β : Type} {cursor : Cursor} {good : α → Prop} {better : β → Prop}
  {terminal : Terminal} {terminals between rest : List Terminal}

/-- A rule whose allowance does not run out delivers something good at a place and stops in front of
the given terminals. -/
def Takes (rule : Rule α) (cursor : Cursor) (rest : List Terminal) (good : α → Prop) : Prop :=
  rule cursor ≠ .exhausted →
    ∃ value next, rule cursor = .done value next ∧ next.Faces rest ∧ good value

theorem Takes.exhausted : Takes Rule.exhausted cursor rest good :=
  fun finishes => absurd rfl finishes

theorem Takes.of_done {rule : Rule α} {value : α} {next : Cursor}
    (done : rule cursor = .done value next) (faces : next.Faces rest) (holds : good value) :
    Takes rule cursor rest good :=
  fun _ => ⟨value, next, done, faces, holds⟩

theorem Takes.pure {value : α} (faces : cursor.Faces rest) (holds : good value) :
    Takes (Pure.pure value) cursor rest good := Takes.of_done rfl faces holds

theorem Takes.bind {first : Rule α} {second : α → Rule β} (start : Takes first cursor between good)
    (next : ∀ {later} value, later.Faces between → good value →
      Takes (second value) later rest better) :
    Takes (first >>= second) cursor rest better := by
  change andThen first second cursor ≠ .exhausted → _
  intro finishes
  rw [andThen] at finishes
  obtain ⟨value, later, done, faces, holds⟩ := start fun runsOut => finishes (by rw [runsOut])
  rw [done] at finishes
  obtain ⟨result, last, doneNext, facesNext, holdsNext⟩ := next value faces holds finishes
  exact ⟨result, last, bind_eq_done_iff.mpr ⟨value, later, done, doneNext⟩, facesNext, holdsNext⟩

theorem Takes.peek {second : Token → Rule β}
    (next : Takes (second cursor.peek) cursor rest better) :
    Takes (Rule.peek >>= second) cursor rest better := next

theorem Takes.peekSecond {second : Token → Rule β}
    (next : Takes (second cursor.peekSecond) cursor rest better) :
    Takes (Rule.peekSecond >>= second) cursor rest better := next

theorem Takes.sees_upcoming {second : Bool → Rule β} (faces : cursor.Faces terminals)
    (isNext : upcoming terminals = .mark mark) (next : Takes (second true) cursor rest better) :
    Takes (Rule.sees mark >>= second) cursor rest better := by
  have seen : cursor.peek.isMark mark = true := by
    rw [Token.isMark_eq, faces.peek, isNext]
    exact beq_self_eq_true _
  rw [← seen] at next
  exact next

theorem Takes.sees_next {second : Bool → Rule β} (faces : cursor.Faces (.mark mark :: terminals))
    (next : Takes (second true) cursor rest better) :
    Takes (Rule.sees mark >>= second) cursor rest better := Takes.sees_upcoming faces rfl next

theorem Takes.sees_other {second : Bool → Rule β} (faces : cursor.Faces terminals)
    (plain : mark ≠ .identifier) (other : upcoming terminals ≠ .mark mark)
    (next : Takes (second false) cursor rest better) :
    Takes (Rule.sees mark >>= second) cursor rest better := by
  have unseen : cursor.peek.isMark mark = false := by
    refine Bool.eq_false_iff.mpr fun seen => other ?_
    rw [← faces.peek]
    exact Token.terminal_of_isMark plain seen
  rw [← unseen] at next
  exact next

theorem Takes.advance {second : Token → Rule β} (faces : cursor.Faces (terminal :: terminals))
    (next : cursor.advance.Faces terminals →
      Takes (second cursor.peek) cursor.advance rest better) :
    Takes (Rule.advance >>= second) cursor rest better := next faces.advance

theorem expect_of_seen (seen : cursor.peek.isMark mark = true) :
    Rule.expect mark cursor = .done cursor.peek cursor.advance := by
  rw [Rule.expect, if_pos seen]
  rfl

theorem Takes.expect {second : Token → Rule β} (faces : cursor.Faces (.mark mark :: terminals))
    (next : ∀ {token later}, later.Faces terminals → Takes (second token) later rest better) :
    Takes (Rule.expect mark >>= second) cursor rest better := by
  have seen : cursor.peek.isMark mark = true := by
    rw [Token.isMark_eq, faces.peek]
    exact beq_self_eq_true _
  have takes : Takes (Rule.expect mark) cursor terminals fun _ => True :=
    Takes.of_done (expect_of_seen seen) faces.advance trivial
  exact takes.bind fun _ faces _ => next faces

theorem Takes.identifier {text : String} {second : Ident → Rule β}
    (faces : cursor.Faces (.name text :: terminals))
    (next : ∀ {later} name, name.value = text → later.Faces terminals →
      Takes (second name) later rest better) :
    Takes (Rule.identifier >>= second) cursor rest better := by
  have seen : cursor.peek.isMark .identifier = true := by
    rw [Token.isMark_eq, faces.peek]
    rfl
  have isText : cursor.peek.lexeme = text := by
    have found := faces.peek
    rw [Token.terminal, Cursor.content_of_isMark seen] at found
    exact Terminal.name.inj found
  have done : Rule.identifier cursor =
      .done ⟨cursor.peek.position, cursor.peek.lexeme⟩ cursor.advance :=
    bind_eq_done_iff.mpr ⟨_, _, expect_of_seen seen, rfl⟩
  have takes : Takes Rule.identifier cursor terminals fun name => name.value = text :=
    Takes.of_done done faces.advance isText
  exact takes.bind fun name faces isText => next name isText faces

end Rule

/-! ### Lists -/

namespace Grammar

open Rule

variable {rest : List Terminal} {cursor : Cursor} {closing : Mark} {token : Token} {count : Nat}

/-- Items are read back if each of them is, in front of a comma and of what closes the list. -/
theorem commaSeparated_takes {α β : Type} {item : Rule α} {flatten : α → List Terminal}
    {view : α → β} (notComma : closing ≠ .comma) {values : List α}
    (each : ∀ value ∈ values, ∀ ⦃cursor : Cursor⦄ ⦃rest : List Terminal⦄,
      cursor.Faces (flatten value ++ rest) →
      upcoming rest = .mark .comma ∨ upcoming rest = .mark closing →
      Takes item cursor rest fun found => view found = view value) (some_values : values ≠ [])
    (faces : cursor.Faces (commas (values.map flatten) ++ .mark closing :: rest)) :
    Takes (commaSeparated item count) cursor (.mark closing :: rest) fun found =>
      found.map view = values.map view := by
  induction values generalizing count cursor with
  | nil => exact absurd rfl some_values
  | cons first others inductionHypothesis =>
    obtain ⟨eachFirst, eachOther⟩ := List.forall_mem_cons.mp each
    rcases count with _ | count
    · exact Takes.exhausted
    rw [commaSeparated]
    cases others with
    | nil =>
      refine Takes.bind (eachFirst faces (.inr rfl)) fun found faces same => ?_
      refine Takes.sees_other faces (by decide) (upcoming_mark_ne notComma rest)
        (Takes.pure faces ?_)
      rw [List.map_singleton, List.map_singleton, same]
    | cons second others =>
      have several : (second :: others).map flatten ≠ [] := List.cons_ne_nil _ _
      rw [List.map_cons, commas_cons several, List.append_assoc, List.cons_append] at faces
      refine Takes.bind (eachFirst faces (.inl rfl)) fun found faces same => ?_
      refine Takes.sees_next faces (Takes.advance faces fun faces => ?_)
      refine Takes.bind (inductionHypothesis eachOther (List.cons_ne_nil _ _) faces)
        fun more faces sameOthers => Takes.pure faces ?_
      rw [List.map_cons, List.map_cons, same, sameOthers]

/-- Items up to what closes the list are read back, if there are any. -/
theorem itemsUpTo_takes {α β γ : Type} {item : Rule α} {flatten : α → List Terminal} (view : α → β)
    (notComma : closing ≠ .comma) (plain : closing ≠ .identifier) {values : List α}
    (begins : ∀ value rest, upcoming (flatten value ++ rest) ≠ .mark closing)
    (each : ∀ value ∈ values, ∀ ⦃cursor : Cursor⦄ ⦃rest : List Terminal⦄,
      cursor.Faces (flatten value ++ rest) →
      upcoming rest = .mark .comma ∨ upcoming rest = .mark closing →
      Takes item cursor rest fun found => view found = view value) {behind : List Terminal}
    {next : List α → Rule γ} {good : γ → Prop}
    (faces : cursor.Faces (commas (values.map flatten) ++ .mark closing :: rest))
    (goesOn : ∀ {later} found, later.Faces (.mark closing :: rest) →
      found.map view = values.map view → Takes (next found) later behind good) :
    Takes (sees closing >>= fun seen =>
      if seen = true then next [] else commaSeparated item count >>= next) cursor behind good := by
  cases values with
  | nil => exact Takes.sees_next faces (goesOn [] faces rfl)
  | cons first others =>
    have notClosing : upcoming (commas ((first :: others).map flatten) ++ .mark closing :: rest) ≠
        .mark closing := by
      cases others with
      | nil => exact begins first _
      | cons second more =>
        have several : (second :: more).map flatten ≠ [] := List.cons_ne_nil _ _
        rw [List.map_cons, commas_cons several, List.append_assoc]
        exact begins first _
    exact Takes.sees_other faces plain notClosing
      (Takes.bind (commaSeparated_takes notComma each (List.cons_ne_nil _ _) faces) goesOn)

/-! ### Types -/

theorem tokenBase?_of_terminal {base : Base} (found : token.terminal = .mark base.mark) :
    tokenBase? token = some base := by
  rw [tokenBase?, token.content_eq, found]
  cases base <;> rfl

theorem arraySize?_of_terminal {size : Nat} (found : token.terminal = .literal (.int size))
    (positive : 0 < size) (fits : size < Counter.bound) : arraySize? token = some size := by
  have range : 0 < (size : Int) ∧ (size : Int) < Counter.bound := by omega
  rw [arraySize?, token.content_eq, found]
  exact if_pos range

/-- A type is read back if no size could follow it. -/
theorem type_takes {written : Ty} (canonical : written.isCanonical = true)
    (faces : cursor.Faces (written.terminals ++ rest))
    (notSquare : upcoming rest ≠ .mark .openSquare) :
    Takes type cursor rest fun found => found.value = written := by
  cases written with
  | base base =>
    refine Takes.peek ?_
    rw [tokenBase?_of_terminal faces.peek]
    refine Takes.advance faces fun faces => ?_
    exact Takes.sees_other faces (by decide) notSquare (Takes.pure faces rfl)
  | array size element =>
    cases element with
    | array _ _ => cases canonical
    | base base =>
      rw [Ty.isCanonical, Bool.and_eq_true, decide_eq_true_iff, decide_eq_true_iff] at canonical
      refine Takes.peek ?_
      rw [tokenBase?_of_terminal faces.peek]
      refine Takes.advance faces fun faces => Takes.sees_next faces ?_
      refine Takes.advance faces fun faces => Takes.peek ?_
      rw [arraySize?_of_terminal faces.peek canonical.1 canonical.2]
      refine Takes.advance faces fun faces => ?_
      exact Takes.expect faces fun faces => Takes.pure faces rfl

end Grammar

end PadLang
