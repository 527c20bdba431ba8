/-
This file says how the rules of the grammar go through the tokens ahead.

A rule is followed from two places at once that it cannot tell apart. It ends the same way at both,
in places that again cannot be told apart. It never goes back, and it never uses up its allowance
where fewer tokens than that are ahead. What it refuses is the token ahead. What cannot be told
apart is left open: a place may be compared with itself, to follow a property of it, or with one in
other tokens.
-/

import Mathlib.Data.Bool.Basic
import PadLang.Grammar.Stmt

namespace PadLang

variable {token : Token} {mark : Mark} {good : Cursor → Cursor → Prop} {cursor : Cursor}
  {strict weaker refusing : Bool} {α : Type}

/-! ### Cursors that move forward -/

namespace Cursor

/-- The number of tokens ahead. -/
def left (cursor : Cursor) : Nat := cursor.ahead.length

/-- The tokens end with an end of file. -/
def Ended (cursor : Cursor) : Prop := cursor.finish.isMark .endOfFile = true

variable {cursor next later : Cursor}

/-- Only the end of file is found at the end. -/
theorem ahead_ne_nil (ended : cursor.Ended) (notEnd : cursor.peek.content ≠ .mark .endOfFile) :
    cursor.ahead ≠ [] := by
  intro empty
  rw [peek, empty] at notEnd
  rw [Ended, Token.isMark, beq_iff_eq] at ended
  exact notEnd ended

theorem content_of_isMark (isMark : token.isMark mark = true) : token.content = .mark mark := by
  rwa [Token.isMark, beq_iff_eq] at isMark

theorem content_ne_of_isMark (isMark : token.isMark mark = true) (notEnd : mark ≠ .endOfFile) :
    token.content ≠ .mark .endOfFile := by
  rw [content_of_isMark isMark]
  exact fun same => notEnd (Content.mark.inj same)

theorem left_advance_lt (some_left : cursor.ahead ≠ []) : cursor.advance.left < cursor.left := by
  unfold advance
  split
  · exact absurd ‹_› some_left
  · rename_i token rest ahead
    simp [left, ahead]

theorem peek_advance (some_left : cursor.ahead ≠ []) :
    cursor.advance.peek = cursor.peekSecond := by
  unfold advance peek peekSecond
  cases ahead : cursor.ahead with
  | nil => exact absurd ahead some_left
  | cons token rest => rfl

/-- A place with fewer tokens ahead, or, unless that is strict, the same place. -/
def Reaches (strict : Bool) (cursor next : Cursor) : Prop :=
  next.left < cursor.left ∨ strict = false ∧ next = cursor

theorem Reaches.left_le (reaches : Reaches strict cursor next) : next.left ≤ cursor.left := by
  rcases reaches with fewer | ⟨-, rfl⟩
  · exact Nat.le_of_lt fewer
  · exact Nat.le_refl _

theorem Reaches.left_lt (reaches : Reaches true cursor next) : next.left < cursor.left :=
  reaches.resolve_right fun same => Bool.noConfusion same.1

theorem Reaches.mono (reaches : Reaches strict cursor next) (implies : weaker ≤ strict) :
    Reaches weaker cursor next := by
  refine reaches.imp_right fun ⟨isLax, same⟩ => ⟨?_, same⟩
  subst isLax
  exact Bool.eq_false_of_le_false implies

theorem Reaches.trans {first second : Bool} (start : Reaches first cursor later)
    (rest : Reaches second later next) : Reaches (first || second) cursor next := by
  rcases rest with fewer | ⟨rfl, rfl⟩
  · exact .inl (Nat.lt_of_lt_of_le fewer start.left_le)
  · rwa [Bool.or_false]

/-! ### Places that cannot be told apart -/

/-- Pairs of places at which the same tokens are seen and the same token was consumed last. At a
clear pair the next token was not refused before. At an open pair it may have been, if it begins a
statement. -/
structure Pairs (clear opened : Cursor → Cursor → Prop) : Prop where
  opens : ∀ {cursor other}, clear cursor other → opened cursor other
  ended : ∀ {cursor other}, opened cursor other → cursor.Ended
  next : ∀ {cursor other}, opened cursor other → other.peek = cursor.peek
  second : ∀ {cursor other}, opened cursor other → cursor.peek.content ≠ .mark .endOfFile →
    other.peekSecond = cursor.peekSecond
  last : ∀ {cursor other}, opened cursor other → other.behind = cursor.behind
  advances : ∀ {cursor other}, opened cursor other → cursor.peek.content ≠ .mark .endOfFile →
    clear cursor.advance other.advance
  clears : ∀ {cursor other}, opened cursor other → Grammar.beginsStatement cursor.peek = false →
    clear cursor other
  recovers : ∀ {cursor other error}, clear cursor other → error.position = cursor.peek.position →
    opened (Grammar.recover cursor error) (Grammar.recover other error)

end Cursor

/-! ### What a rule does -/

/-- The outcomes of a rule at a place and at one paired with it. How far the first one is at least
is told for what is read and for what is refused. -/
inductive Outcome.Agree {α : Type} (good : Cursor → Cursor → Prop) (cursor : Cursor)
    (reading refusing : Bool) : Outcome α → Outcome α → Prop
  | done {value : α} {next other : Cursor} (isGood : good next other)
      (reaches : cursor.Reaches reading next) :
      Agree good cursor reading refusing (.done value next) (.done value other)
  | refused {error : Located ParseError} {next other : Cursor} (isGood : good next other)
      (reaches : cursor.Reaches refusing next) (blames : error.position = next.peek.position) :
      Agree good cursor reading refusing (.refused error next) (.refused error other)

/-- Outcomes that agree at a later place agree at an earlier one. -/
theorem Outcome.Agree.after {later : Cursor} {reading : Bool} {first second : Outcome α}
    (agree : first.Agree good later reading refusing second)
    (reaches : cursor.Reaches strict later) :
    first.Agree good cursor (strict || reading) (strict || refusing) second := by
  cases agree with
  | done isGood more => exact .done isGood (reaches.trans more)
  | refused isGood more blames => exact .refused isGood (reaches.trans more) blames

theorem Outcome.Agree.mono {reading laxer : Bool} {first second : Outcome α}
    (agree : first.Agree good cursor reading refusing second) (reads : weaker ≤ reading)
    (refuses : laxer ≤ refusing) : first.Agree good cursor weaker laxer second := by
  cases agree with
  | done isGood reaches => exact .done isGood (reaches.mono reads)
  | refused isGood reaches blames => exact .refused isGood (reaches.mono refuses) blames

namespace Rule

variable {α β : Type} {good clear opened : Cursor → Cursor → Prop} {bound count most : Nat}
  {strict more reading refusing : Bool}

/-- At good pairs of places in front of a token, with fewer than so many tokens ahead, a rule has
outcomes that agree. -/
def Follows (good clear : Cursor → Cursor → Prop) (token : Token) (bound : Nat)
    (reading refusing : Bool) (rule : Rule α) : Prop :=
  ∀ cursor other, good cursor other → cursor.peek = token → cursor.left < bound →
    (rule cursor).Agree clear cursor reading refusing (rule other)

/-- At clear pairs of places a rule has outcomes that agree. If it is strict, it consumes a token
where it does not refuse one. -/
def Keeps (clear : Cursor → Cursor → Prop) (bound : Nat) (strict : Bool) (rule : Rule α) : Prop :=
  ∀ token, Follows clear clear token bound strict false rule

theorem Follows.mono {rule : Rule α} {laxer : Bool}
    (follows : Follows good clear token bound reading refusing rule) (fewer : most ≤ bound)
    (reads : weaker ≤ reading) (refuses : laxer ≤ refusing) :
    Follows good clear token most weaker laxer rule := by
  intro cursor other isGood isToken inside
  exact (follows cursor other isGood isToken (Nat.lt_of_lt_of_le inside fewer)).mono reads refuses

/-- A rule that consumes a token in any case. -/
theorem Follows.any {rule : Rule α} (follows : Follows good clear token bound true true rule) :
    Follows good clear token bound reading refusing rule :=
  follows.mono (Nat.le_refl _) (Bool.le_true _) (Bool.le_true _)

theorem Keeps.within {rule : Rule α} (keeps : Keeps clear bound strict rule)
    (fewer : most ≤ bound) : Keeps clear most strict rule :=
  fun token => (keeps token).mono fewer (Bool.le_refl _) (Bool.le_refl _)

theorem Keeps.lax {rule : Rule α} (keeps : Keeps clear bound strict rule) :
    Keeps clear bound false rule :=
  fun token => (keeps token).mono (Nat.le_refl _) (Bool.false_le _) (Bool.le_refl _)

theorem keeps_zero (rule : Rule α) : Keeps clear 0 strict rule :=
  fun _ _ _ _ _ inside => absurd inside (Nat.not_lt_zero _)

theorem keeps_pure (value : α) : Keeps clear bound false (pure value) :=
  fun _ _ _ isClear _ _ => .done isClear (.inr ⟨rfl, rfl⟩)

/-- A rule that has consumed a token goes on with fewer tokens ahead. -/
theorem Follows.andThen {first : Rule α} {second : α → Rule β} {fewer : Nat}
    (start : Follows good clear token bound strict refusing first)
    (fits : bound ≤ fewer + strict.toNat)
    (next : ∀ value, Keeps clear fewer more (second value)) :
    Follows good clear token bound (strict || more) (refusing && strict) (first >>= second) := by
  intro cursor other isGood isToken inside
  have outcome := start cursor other isGood isToken inside
  change (Rule.andThen first second cursor).Agree clear cursor _ _
    (Rule.andThen first second other)
  rw [Rule.andThen, Rule.andThen]
  generalize first cursor = here at outcome
  generalize first other = there at outcome
  cases outcome with
  | @done value later _ isClear reaches =>
    have few : later.left < fewer := by
      cases strict with
      | true =>
        have fewer := reaches.left_lt
        rw [Bool.toNat_true] at fits
        omega
      | false => exact Nat.lt_of_le_of_lt reaches.left_le (Nat.lt_of_lt_of_le inside fits)
    have following := (next value _ _ _ isClear rfl few).after reaches
    rw [Bool.or_false] at following
    exact following.mono (Bool.le_refl _) (Bool.and_le_right _ _)
  | refused isClear reaches blames =>
    exact .refused isClear (reaches.mono (Bool.and_le_left _ _)) blames

theorem Follows.bind {first : Rule α} {second : α → Rule β}
    (start : Follows good clear token bound strict refusing first)
    (next : ∀ value, Keeps clear bound more (second value)) :
    Follows good clear token bound (strict || more) (refusing && strict) (first >>= second) :=
  start.andThen (Nat.le_add_right _ _) next

theorem Keeps.bind {first : Rule α} {second : α → Rule β} (start : Keeps clear bound strict first)
    (next : ∀ value, Keeps clear bound more (second value)) :
    Keeps clear bound (strict || more) (first >>= second) :=
  fun token => (start token).bind next

theorem Follows.after {first : Rule α} {second : α → Rule β}
    (start : Follows good clear token (bound + 1) true refusing first)
    (next : ∀ value, Keeps clear bound more (second value)) :
    Follows good clear token (bound + 1) true refusing (first >>= second) := by
  have follows := start.andThen (Nat.le_refl _) next
  rwa [Bool.true_or, Bool.and_true] at follows

theorem Keeps.after {first : Rule α} {second : α → Rule β}
    (start : Keeps clear (bound + 1) true first)
    (next : ∀ value, Keeps clear bound more (second value)) :
    Keeps clear (bound + 1) true (first >>= second) :=
  fun token => (start token).after next

theorem Keeps.ite {condition : Bool} {first second : Rule α} (yes : Keeps clear bound strict first)
    (no : Keeps clear bound strict second) :
    Keeps clear bound strict (if condition then first else second) := by
  cases condition with
  | true => exact yes
  | false => exact no

theorem bind_eq_done_iff {next : Cursor} {first : Rule α} {second : α → Rule β} {value : β} :
    (first >>= second) cursor = .done value next ↔
      ∃ between later, first cursor = .done between later ∧
        second between later = .done value next := by
  change andThen first second cursor = _ ↔ _
  rw [andThen]
  cases first cursor with
  | done between later =>
    refine ⟨fun done => ⟨between, later, rfl, done⟩, ?_⟩
    rintro ⟨_, _, same, done⟩
    cases same
    exact done
  | refused error later => simp
  | exhausted => simp

theorem identifier_eq_done (seen : cursor.peek.isMark .identifier = true) :
    identifier cursor =
      .done { position := cursor.peek.position, value := cursor.peek.lexeme } cursor.advance := by
  change andThen (expect .identifier) _ cursor = _
  rw [andThen, expect, if_pos seen]
  rfl

end Rule

/-! ### Single tokens -/

namespace Cursor.Pairs

open Rule (Follows Keeps)

variable {α β : Type} {good clear opened : Cursor → Cursor → Prop} {bound : Nat}
  {strict more reading refusing : Bool} (pairs : Pairs clear opened)

include pairs

theorem refuse (error : String → ParseError) :
    Keeps clear bound strict (Rule.refuse error : Rule α) := by
  intro token cursor other isClear _ _
  rw [Rule.refuse, Rule.refuse, pairs.next (pairs.opens isClear)]
  exact .refused isClear (.inr ⟨rfl, rfl⟩) rfl

theorem behind : Keeps clear bound false Rule.behind := by
  intro token cursor other isClear _ _
  rw [Rule.behind, Rule.behind, pairs.last (pairs.opens isClear)]
  exact .done isClear (.inr ⟨rfl, rfl⟩)

theorem sees : Keeps clear bound false (Rule.sees mark) := by
  intro token cursor other isClear _ _
  rw [Rule.sees, Rule.sees, pairs.next (pairs.opens isClear)]
  exact .done isClear (.inr ⟨rfl, rfl⟩)

theorem expect (notEnd : mark ≠ .endOfFile) : Keeps clear bound true (Rule.expect mark) := by
  intro token cursor other isClear isToken inside
  have isOpen := pairs.opens isClear
  have same := pairs.next isOpen
  rw [Rule.expect, Rule.expect, same]
  split
  · rename_i seen
    have isNot := content_ne_of_isMark seen notEnd
    rw [Rule.advance, Rule.advance, same]
    exact .done (pairs.advances isOpen isNot)
      (.inl (left_advance_lt (ahead_ne_nil (pairs.ended isOpen) isNot)))
  · exact pairs.refuse _ token cursor other isClear isToken inside

theorem identifier : Keeps clear bound true Rule.identifier :=
  (pairs.expect (by decide)).bind fun _ => Rule.keeps_pure _

/-- A token that does not begin a statement was not refused before. -/
theorem settle {rule : Rule α} (keeps : Keeps clear bound strict rule)
    (notFirst : Grammar.beginsStatement token = false) :
    Follows opened clear token bound strict (Grammar.beginsStatement token) rule := by
  rw [notFirst]
  rintro cursor other isOpen rfl inside
  exact keeps _ cursor other (pairs.clears isOpen notFirst) rfl inside

section

variable (opens : ∀ {cursor other}, good cursor other → opened cursor other)

include opens

theorem peek_bind {second : Token → Rule β}
    (next : Follows good clear token bound reading refusing (second token)) :
    Follows good clear token bound reading refusing (Rule.peek >>= second) := by
  intro cursor other isGood isToken inside
  change (second cursor.peek cursor).Agree clear cursor _ _ (second other.peek other)
  rw [pairs.next (opens isGood), isToken]
  exact next cursor other isGood isToken inside

theorem sees_bind {second : Bool → Rule β}
    (next : Follows good clear token bound reading refusing (second (token.isMark mark))) :
    Follows good clear token bound reading refusing (Rule.sees mark >>= second) := by
  intro cursor other isGood isToken inside
  change (second (cursor.peek.isMark mark) cursor).Agree clear cursor _ _
    (second (other.peek.isMark mark) other)
  rw [pairs.next (opens isGood), isToken]
  exact next cursor other isGood isToken inside

/-- A token that is not the end of file is consumed. -/
theorem advance (notEnd : token.content ≠ .mark .endOfFile) :
    Follows good clear token bound true true Rule.advance := by
  rintro cursor other isGood rfl inside
  have isOpen := opens isGood
  rw [Rule.advance, Rule.advance, pairs.next isOpen]
  exact .done (pairs.advances isOpen notEnd)
    (.inl (left_advance_lt (ahead_ne_nil (pairs.ended isOpen) notEnd)))

theorem expect_seen (seen : token.isMark mark = true) (notEnd : mark ≠ .endOfFile) :
    Follows good clear token bound true true (Rule.expect mark) := by
  intro cursor other isGood isToken inside
  rw [Rule.expect, Rule.expect, pairs.next (opens isGood), isToken, if_pos seen, if_pos seen]
  exact pairs.advance opens (content_ne_of_isMark seen notEnd) cursor other isGood isToken inside

end

/-- What begins with a mark is read if the mark is seen. -/
theorem option (notEnd : mark ≠ .endOfFile) {present : Token → Rule β} {absent : Rule β}
    (reads : ∀ token, Keeps clear bound true (present token))
    (others : Keeps clear bound strict absent) :
    Keeps clear bound strict (do
      if ← Rule.sees mark then
        let token ← Rule.advance
        present token
      else absent) := by
  intro token
  refine pairs.sees_bind pairs.opens ?_
  split
  · rename_i seen
    exact ((pairs.advance pairs.opens (content_ne_of_isMark seen notEnd)).bind reads).any
  · exact others token

/-- What follows an identifier is told by the token behind it. -/
theorem named {rest : Token → Ident → Rule β} (isName : token.content = .mark .identifier)
    (next : ∀ second name, Follows clear clear second bound false false (rest second name)) :
    Follows clear clear token (bound + 1) true false (do
      let second ← Rule.peekSecond
      let name ← Rule.identifier
      rest second name) := by
  rintro cursor other isClear rfl inside
  have isOpen := pairs.opens isClear
  have notEnd : cursor.peek.content ≠ .mark .endOfFile := by simp [isName]
  have some_left := ahead_ne_nil (pairs.ended isOpen) notEnd
  have seen : cursor.peek.isMark .identifier = true := by simp [Token.isMark, isName]
  have same := pairs.next isOpen
  change (Rule.andThen Rule.identifier (rest cursor.peekSecond) cursor).Agree clear cursor _ _
    (Rule.andThen Rule.identifier (rest other.peekSecond) other)
  rw [Rule.andThen, Rule.andThen, pairs.second isOpen notEnd, Rule.identifier_eq_done seen,
    Rule.identifier_eq_done (by rwa [same]), same]
  have fewer := left_advance_lt some_left
  have reaches : cursor.Reaches true cursor.advance := .inl fewer
  have following := next cursor.peekSecond
    { position := cursor.peek.position, value := cursor.peek.lexeme } _ _
    (pairs.advances isOpen notEnd) (peek_advance some_left) (by omega)
  exact (following.after reaches).mono (Bool.le_refl _) (Bool.false_le _)

end Cursor.Pairs

/-! ### Lists -/

namespace Rule

variable {α : Type} {clear opened : Cursor → Cursor → Prop} {bound : Nat}

theorem keeps_commaSeparated (pairs : Cursor.Pairs clear opened) {item : Rule α} {count : Nat}
    (each : Keeps clear bound true item) (enough : bound ≤ count) :
    Keeps clear bound true (commaSeparated item count) := by
  induction bound generalizing count with
  | zero => exact keeps_zero _
  | succ bound inductionHypothesis =>
    obtain ⟨count, rfl⟩ := Nat.exists_eq_succ_of_ne_zero (Nat.ne_zero_of_lt enough)
    have others := inductionHypothesis (each.within (Nat.le_succ _)) (Nat.le_of_succ_le_succ enough)
    exact each.after fun _ => pairs.option (by decide)
      (fun _ => others.bind fun _ => keeps_pure _) (keeps_pure _)

end Rule

end PadLang
