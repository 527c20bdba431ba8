/-
This file shows that recovery makes progress and never blames a token twice.

A rule refuses the token it has come to. Recovery skips that token, unless it can only begin a
statement; then it stays in place, and the next statement begins by consuming it. So whenever a
token is refused, the tokens that were blamed before are behind it. Only the end of file, which is
never consumed, can be blamed again, once by each block that it leaves open.
-/

import PadLang.Proofs.Grammar.Lossless
import PadLang.Proofs.Ordering

namespace PadLang

variable {cursor : Cursor} {tokens : List Token} {error : Located ParseError} {finish token : Token}

/-! ### Errors so far -/

/-- Errors in the order of what they blame. Only what stands at the end can be blamed again. -/
def Located.Follows (last : Position) (first second : Located ParseError) : Prop :=
  first.position < second.position ∨ first.position = last ∧ second.position = last

namespace Cursor

/-- The errors so far blame tokens in order, and none of these tokens. -/
structure Spares (all : List Token) (cursor : Cursor) (tokens : List Token) : Prop where
  ahead : cursor.ahead ++ [cursor.finish] <:+ all
  ended : cursor.Ended
  inner : ∀ token ∈ cursor.ahead, token.content ≠ .mark .endOfFile
  known : ∀ error ∈ cursor.errors, ∃ token ∈ all, error.position = token.position
  ordered : cursor.errors.Pairwise (Located.Follows cursor.finish.position)
  spared : ∀ error ∈ cursor.errors, ∀ token ∈ tokens, error.position < token.position

/-- No token ahead is blamed yet. -/
def Clear (all : List Token) (cursor : Cursor) : Prop := cursor.Spares all cursor.ahead

/-- No token ahead is blamed yet, except perhaps the next one, which begins a statement. -/
def Open (all : List Token) (cursor : Cursor) : Prop :=
  cursor.Clear all ∨
    Grammar.beginsStatement cursor.peek = true ∧ cursor.Spares all cursor.ahead.tail

variable {all : List Token}

theorem Open.spares_tail (isOpen : cursor.Open all) : cursor.Spares all cursor.ahead.tail := by
  rcases isOpen with clear | ⟨-, spares⟩
  · exact { clear with
      spared := fun error member token isLater =>
        clear.spared error member token (List.mem_of_mem_tail isLater) }
  · exact spares

theorem Open.advance (isOpen : cursor.Open all) : cursor.advance.Clear all := by
  have spares := isOpen.spares_tail
  unfold Cursor.advance
  split
  · rename_i empty
    rw [empty] at spares
    rwa [Clear, empty]
  · rename_i token rest ahead
    have later : rest ++ [cursor.finish] <:+ all := by
      refine List.IsSuffix.trans ?_ spares.ahead
      rw [ahead]
      exact List.suffix_cons token _
    have inner := spares.inner
    rw [ahead] at spares inner
    exact { spares with ahead := later, inner := (List.forall_mem_cons.mp inner).2 }

/-- A token that does not begin a statement is not blamed yet. -/
theorem Open.clear (isOpen : cursor.Open all)
    (notFirst : Grammar.beginsStatement cursor.peek = false) : cursor.Clear all := by
  rcases isOpen with clear | ⟨first, -⟩
  · exact clear
  · rw [notFirst] at first
    cases first

theorem Spares.peek_mem (spares : cursor.Spares all tokens) : cursor.peek ∈ all := by
  refine spares.ahead.subset ?_
  unfold peek
  cases cursor.ahead with
  | nil => exact List.mem_cons_self
  | cons token rest => exact List.mem_cons_self

section

variable (ascending : all.Pairwise fun first second => first.position < second.position)

include ascending

/-- The end of file is the last of all tokens. -/
theorem Spares.le_finish (spares : cursor.Spares all tokens) (member : token ∈ all) :
    token.position ≤ cursor.finish.position := by
  obtain ⟨before, rfl⟩ := spares.ahead
  rw [← List.append_assoc] at ascending member
  rcases List.mem_append.mp member with isBefore | isLast
  · exact ((List.pairwise_append.mp ascending).2.2 token isBefore _ List.mem_cons_self).le
  · rw [List.mem_singleton.mp isLast]

/-- A new error is about the token ahead, so it follows all errors so far. -/
theorem Clear.follows (clear : cursor.Clear all) (blames : error.position = cursor.peek.position) :
    ∀ earlier ∈ cursor.errors, earlier.Follows cursor.finish.position error := by
  intro earlier member
  rw [Located.Follows, blames, peek]
  cases ahead : cursor.ahead with
  | nil =>
    obtain ⟨token, isToken, same⟩ := clear.known earlier member
    have notLater := clear.le_finish ascending isToken
    rw [← same] at notLater
    exact notLater.lt_or_eq.imp_right fun isLast => ⟨isLast, rfl⟩
  | cons token rest =>
    refine .inl (clear.spared earlier member token ?_)
    rw [ahead]
    exact List.mem_cons_self

end

end Cursor

/-! ### Recovery -/

namespace Grammar

open Rule

variable {errors : List (Located ParseError)}

/-- Recovery skips the next token, or it stays in front of one that begins a statement. -/
theorem skip_cases (behind : Position) (rest : List Token)
    (notEnd : token.content ≠ .mark .endOfFile) :
    (skip behind (token :: rest)).1 <:+ rest ∨
      beginsStatement token = true ∧ (skip behind (token :: rest)).1 = token :: rest := by
  have isNot : token.isMark .endOfFile = false :=
    Bool.eq_false_iff.mpr fun isEnd => notEnd (Cursor.content_of_isMark isEnd)
  rw [skip, isNot, Bool.or_false]
  split
  · exact .inl List.suffix_rfl
  · split
    · exact .inr ⟨by assumption, rfl⟩
    · exact .inl (skip_suffix token.position rest)

variable {all : List Token}
  (ascending : all.Pairwise fun first second => first.position < second.position)

include ascending

/-- The errors with a new one are still in order. -/
theorem pairwise_errors_append (clear : cursor.Clear all)
    (blames : error.position = cursor.peek.position) :
    (cursor.errors ++ [error]).Pairwise (Located.Follows cursor.finish.position) := by
  refine List.pairwise_append.mpr ⟨clear.ordered, List.pairwise_singleton _ _, ?_⟩
  intro earlier member _ isNew
  rw [List.mem_singleton.mp isNew]
  exact clear.follows ascending blames earlier member

omit ascending in
theorem known_errors_append (clear : cursor.Clear all)
    (blames : error.position = cursor.peek.position) :
    ∀ found ∈ cursor.errors ++ [error], ∃ token ∈ all, found.position = token.position :=
  List.forall_mem_append.mpr ⟨clear.known,
    List.forall_mem_singleton.mpr ⟨cursor.peek, clear.peek_mem, blames⟩⟩

/-- Behind the blamed token nothing is blamed yet. -/
theorem open_recover (clear : cursor.Clear all) (blames : error.position = cursor.peek.position) :
    (recover cursor error).Open all := by
  have spares (tokens : List Token)
      (isLater : ∀ token ∈ tokens, token ∈ cursor.ahead ∧ cursor.peek.position < token.position) :
      (recover cursor error).Spares all tokens := by
    have later := skip_suffix cursor.behind cursor.ahead
    refine ⟨?_, clear.ended, fun token member => clear.inner token (later.subset member),
      known_errors_append clear blames, pairwise_errors_append ascending clear blames, ?_⟩
    · obtain ⟨skipped, same⟩ := later
      refine List.IsSuffix.trans ⟨skipped, ?_⟩ clear.ahead
      rw [← List.append_assoc]
      exact congrArg (· ++ [cursor.finish]) same
    · refine List.forall_mem_append.mpr ⟨fun earlier member token found => ?_,
        List.forall_mem_singleton.mpr fun token found => ?_⟩
      · exact clear.spared earlier member token (isLater token found).1
      · rw [blames]
        exact (isLater token found).2
  cases ahead : cursor.ahead with
  | nil =>
    refine .inl (spares _ fun token isLater => ?_)
    change token ∈ (skip cursor.behind cursor.ahead).1 at isLater
    rw [ahead] at isLater
    cases isLater
  | cons token rest =>
    have isNext : cursor.peek = token := by rw [Cursor.peek, ahead, List.headD_cons]
    have behindIt : ∀ other ∈ rest, other ∈ cursor.ahead ∧
        cursor.peek.position < other.position := by
      have inOrder := ascending.sublist clear.ahead.sublist
      rw [ahead] at inOrder
      intro other member
      rw [ahead, isNext]
      exact ⟨List.mem_cons_of_mem _ member,
        (List.pairwise_cons.mp inOrder).1 other (List.mem_append_left _ member)⟩
    have notEnd := clear.inner token (ahead ▸ List.mem_cons_self)
    rcases skip_cases cursor.behind rest notEnd with passed | ⟨begins, inPlace⟩
    · refine .inl (spares _ fun other isLater => behindIt other (passed.subset ?_))
      rw [← ahead]
      exact isLater
    · have stays : (recover cursor error).ahead = token :: rest := by
        change (skip cursor.behind cursor.ahead).1 = token :: rest
        rw [ahead, inPlace]
      refine .inr ⟨?_, ?_⟩
      · rw [Cursor.peek, stays]
        exact begins
      · rw [stays]
        exact spares rest behindIt

/-- Wherever the grammar is, the tokens that were blamed are behind it. -/
theorem pairs_clear : Cursor.Pairs (fun cursor other => other = cursor ∧ cursor.Clear all)
    (fun cursor other => other = cursor ∧ cursor.Open all) :=
  pairs_self .inl (fun isOpen => isOpen.spares_tail.ended) Cursor.Open.advance
    Cursor.Open.clear (open_recover ascending)

/-! ### Programs -/

omit ascending in
theorem finish_ofTokens (found : tokens.find? (·.isMark .endOfFile) = some finish) :
    (Cursor.ofTokens tokens).finish = finish := by
  change (List.find? _ (tokens.filter _)).getD _ = finish
  have same : List.find? (fun token : Token => token.isMark .endOfFile)
      (tokens.filter fun token => !token.isTrivia) = some finish := by
    rw [List.find?_filter, ← found]
    refine congrArg (List.find? · tokens) (funext fun token => ?_)
    rw [Bool.eq_iff_iff, decide_eq_true_iff]
    refine and_iff_right_of_imp fun isEnd => ?_
    rw [Token.isTrivia, Token.isMark, Token.isMark, Cursor.content_of_isMark isEnd]
    rfl
  rw [same, Option.getD_some]

omit ascending in
theorem open_ofTokens (found : tokens.find? (·.isMark .endOfFile) = some finish) :
    (Cursor.ofTokens tokens).Open (significant tokens ++ [finish]) := by
  refine .inl ⟨?_, ended_ofTokens tokens, fun token member => ?_, List.forall_mem_nil _,
    List.Pairwise.nil, List.forall_mem_nil _⟩
  · rw [finish_ofTokens found]
    exact List.suffix_rfl
  · have notEnd := List.all_eq_true.mp List.all_takeWhile token member
    refine content_ne_of_not_isMark fun isEnd => ?_
    rw [isEnd] at notEnd
    cases notEnd

omit ascending in
/-- What does not stand at the end is blamed once at most. -/
theorem countP_le_one_of_follows {last place : Position}
    (ordered : errors.Pairwise (Located.Follows last)) (notLast : place ≠ last) :
    (errors.countP fun error => error.position = place) ≤ 1 := by
  have blames : ∀ error ∈ errors.filter (fun error => error.position = place),
      error.position = place := fun error member =>
    decide_eq_true_iff.mp (List.mem_filter.mp member).2
  have inOrder := ordered.filter fun error => error.position = place
  rw [List.countP_eq_length_filter]
  generalize errors.filter (fun error => error.position = place) = blaming at blames inOrder ⊢
  match blaming with
  | [] => exact Nat.zero_le _
  | [_] => exact Nat.le_refl _
  | first :: second :: _ =>
    have isFirst := blames first List.mem_cons_self
    have isSecond := blames second (List.mem_cons_of_mem _ List.mem_cons_self)
    rcases (List.pairwise_cons.mp inOrder).1 second List.mem_cons_self with before | ⟨isLast, -⟩
    · rw [isFirst, isSecond] at before
      exact absurd before (lt_irrefl _)
    · exact absurd (isFirst.symm.trans isLast) notLast

include ascending in
/-- The errors of a program blame tokens in order. -/
theorem program_errors (isAll : all = significant tokens ++ [finish])
    (found : tokens.find? (·.isMark .endOfFile) = some finish)
    (failed : program tokens = .ok (.error errors)) :
    (∀ error ∈ errors, ∃ token ∈ all, error.position = token.position) ∧
      errors.Pairwise (Located.Follows finish.position) := by
  obtain ⟨read, next, _, -, -, ⟨-, isOpen⟩, -, isProgram⟩ := program_agree (pairs_clear ascending)
    rfl ⟨rfl, isAll ▸ open_ofTokens found⟩
  have spares := isOpen.spares_tail
  have isLast : next.finish = finish := by
    obtain ⟨before, same⟩ := isAll ▸ spares.ahead
    rw [← List.append_assoc] at same
    exact List.singleton_inj.mp (List.append_inj' same rfl).2
  rw [isProgram] at failed
  split at failed
  · cases failed
  · cases failed
    exact ⟨spares.known, isLast ▸ spares.ordered⟩

end Grammar

/-- Every list of tokens is read to its end. If it has an end of file, and the significant tokens
up to the first one are in order, then the errors are reported in that order. Each one blames one
of these tokens, and none but the end of file is blamed twice. -/
theorem recovery_progresses (tokens : List Token) :
    (∃ result, Grammar.program tokens = .ok result) ∧
    ∀ finish errors, tokens.find? (·.isMark .endOfFile) = some finish →
      (significant tokens ++ [finish]).Pairwise
        (fun first second => first.position < second.position) →
      Grammar.program tokens = .ok (.error errors) →
      errors.Pairwise (fun first second => first.position ≤ second.position) ∧
      (errors.filter fun error => error.position < finish.position).Pairwise
        (fun first second => first.position < second.position) ∧
      (∀ error ∈ errors, ∃ token ∈ significant tokens ++ [finish],
        error.position = token.position) ∧
      ∀ token ∈ significant tokens,
        (errors.countP fun error => error.position = token.position) ≤ 1 := by
  constructor
  · obtain ⟨_, _, -, -, isProgram⟩ := Grammar.program_reads tokens
    exact ⟨_, isProgram⟩
  · intro finish errors found ascending failed
    obtain ⟨known, ordered⟩ := Grammar.program_errors ascending rfl found failed
    refine ⟨ordered.imp ?_, ?_, known, ?_⟩
    · rintro first second (before | ⟨isLast, alsoLast⟩)
      · exact before.le
      · exact (isLast.trans alsoLast.symm).le
    · refine (List.pairwise_filter.mpr (ordered.imp fun follows _ isBefore => ?_))
      rcases follows with before | ⟨-, isLast⟩
      · exact before
      · rw [decide_eq_true_iff, isLast] at isBefore
        exact absurd isBefore (lt_irrefl _)
    · intro token member
      have notLast : token.position ≠ finish.position :=
        ((List.pairwise_append.mp ascending).2.2 token member finish List.mem_cons_self).ne
      exact Grammar.countP_le_one_of_follows ordered notLast

/-- The tokens of two open blocks, with a name missing before a semicolon and another one before a
word that begins a statement. -/
def brokenTokens : List Token :=
  inOneLine [(.mark .openCurly, "\x7b"), (.mark .letWord, "let"), (.mark .semicolon, ";"),
    (.mark .openCurly, "\x7b"), (.mark .letWord, "let"), (.mark .ifWord, "if"),
    (.mark .endOfFile, ""), (.mark .closeCurly, "\x7d")]

theorem recovery_progresses_broken :
    ∃ errors, Grammar.program brokenTokens = .ok (.error errors) ∧
      errors.map (fun error => error.position.column) = [2, 5, 6, 6, 6] ∧
      errors.Pairwise (fun first second => first.position ≤ second.position) ∧
      ∀ token ∈ significant brokenTokens,
        (errors.countP fun error => error.position = token.position) ≤ 1 := by
  obtain ⟨sorted, -, -, once⟩ := (recovery_progresses brokenTokens).2 _ _ rfl (by decide) rfl
  exact ⟨_, rfl, by decide, sorted, once⟩

end PadLang
