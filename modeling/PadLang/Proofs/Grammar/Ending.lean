/-
This file shows that the grammar sees significant tokens only, up to the first end of file.

Blanks, comments and whatever stands behind the end of file make no difference to what is read or
reported. Nor is that owed to their being left out: where the tokens behind the end of file stay
ahead, every rule does what it does without them, because none consumes the end of file. Reading
such tokens comes to a stop in front of the end of file, with all of them still ahead.
-/

import PadLang.Proofs.Grammar.Stmt

namespace PadLang

variable {tokens rest : List Token} {finish : Token}

/-- The tokens of a list that are neither blanks nor comments. -/
def withoutTrivia (tokens : List Token) : List Token := tokens.filter fun token => !token.isTrivia

namespace Cursor

/-- The cursor in front of a list of tokens that is not cut off at the first end of file. -/
def uncut (tokens : List Token) : Cursor := { ofTokens tokens with ahead := withoutTrivia tokens }

/-- The same place in tokens that go on behind the end of file. -/
structure Streams (finish : Token) (rest : List Token) (cursor stream : Cursor) : Prop where
  ends : cursor.finish = finish
  inner : ∀ token ∈ cursor.ahead, token.isMark .endOfFile = false
  ahead : stream.ahead = cursor.ahead ++ finish :: rest
  behind : stream.behind = cursor.behind
  errors : stream.errors = cursor.errors

variable {cursor stream : Cursor} (streams : Streams finish rest cursor stream)

include streams

theorem Streams.ended (isEnd : finish.isMark .endOfFile = true) : cursor.Ended := by
  rwa [Ended, streams.ends]

/-- A token that is not the end of file is followed by the same tokens in both places. -/
theorem Streams.exists_cons (isEnd : finish.isMark .endOfFile = true)
    (notEnd : cursor.peek.content ≠ .mark .endOfFile) :
    ∃ token others, cursor.ahead = token :: others ∧
      stream.ahead = token :: (others ++ finish :: rest) := by
  obtain ⟨token, others, ahead⟩ :=
    List.exists_cons_of_ne_nil (ahead_ne_nil (streams.ended isEnd) notEnd)
  exact ⟨token, others, ahead, by rw [streams.ahead, ahead, List.cons_append]⟩

/-- At the end of file nothing else is ahead of it. -/
theorem Streams.ahead_eq (atEnd : cursor.peek.isMark .endOfFile = true) :
    stream.ahead = finish :: rest := by
  rw [streams.ahead]
  cases ahead : cursor.ahead with
  | nil => rfl
  | cons token others =>
    have notEnd := streams.inner token (ahead ▸ List.mem_cons_self)
    rw [peek, ahead, List.headD_cons, notEnd] at atEnd
    cases atEnd

end Cursor

namespace Grammar

/-- Recovery does not skip the end of file. -/
theorem skip_append (isEnd : finish.isMark .endOfFile = true) (behind : Position)
    (tokens rest : List Token) :
    skip behind (tokens ++ finish :: rest) =
      ((skip behind tokens).1 ++ finish :: rest, (skip behind tokens).2) := by
  induction tokens generalizing behind with
  | nil =>
    have notSemicolon : finish.isMark .semicolon = false := by
      rw [Token.isMark, Cursor.content_of_isMark isEnd]
      rfl
    simp [skip, isEnd, notSemicolon]
  | cons token others inductionHypothesis =>
    rw [List.cons_append, skip, skip]
    split
    · rfl
    · split
      · rfl
      · exact inductionHypothesis token.position

/-- Tokens behind the end of file are out of sight. -/
theorem pairs_streams (isEnd : finish.isMark .endOfFile = true) (rest : List Token) :
    Cursor.Pairs (Cursor.Streams finish rest) (Cursor.Streams finish rest) where
  opens := id
  ended := fun streams => streams.ended isEnd
  next := by
    intro cursor stream streams
    rw [Cursor.peek, Cursor.peek, streams.ahead, streams.ends]
    cases cursor.ahead <;> rfl
  second := by
    intro cursor stream streams notEnd
    obtain ⟨token, others, ahead, aheadToo⟩ := streams.exists_cons isEnd notEnd
    rw [Cursor.peekSecond, Cursor.peekSecond, ahead, aheadToo, streams.ends]
    cases others <;> rfl
  last := Cursor.Streams.behind
  advances := by
    intro cursor stream streams notEnd
    obtain ⟨token, others, ahead, aheadToo⟩ := streams.exists_cons isEnd notEnd
    have inner := streams.inner
    rw [ahead] at inner
    unfold Cursor.advance
    rw [ahead, aheadToo]
    exact ⟨streams.ends, (List.forall_mem_cons.mp inner).2, rfl, rfl, streams.errors⟩
  clears := fun streams _ => streams
  recovers := by
    intro cursor stream error streams _
    have skips := skip_append isEnd cursor.behind cursor.ahead rest
    refine ⟨streams.ends, fun token member => streams.inner token ?_, ?_, ?_, ?_⟩
    · exact (skip_suffix cursor.behind cursor.ahead).subset member
    · change (skip stream.behind stream.ahead).1 =
        (skip cursor.behind cursor.ahead).1 ++ finish :: rest
      rw [streams.behind, streams.ahead, skips]
    · change (skip stream.behind stream.ahead).2 = (skip cursor.behind cursor.ahead).2
      rw [streams.behind, streams.ahead, skips]
    · exact congrArg (· ++ [error]) streams.errors

/-! ### Programs -/

theorem withoutTrivia_append (isEnd : finish.isMark .endOfFile = true)
    (tokens rest : List Token) :
    withoutTrivia (tokens ++ finish :: rest) =
      withoutTrivia tokens ++ finish :: withoutTrivia rest := by
  have notTrivia : finish.isTrivia = false := by
    rw [Token.isTrivia, Token.isMark, Token.isMark, Cursor.content_of_isMark isEnd]
    rfl
  simp [withoutTrivia, notTrivia]

theorem program_congr {others : List Token} (same : Cursor.ofTokens tokens = .ofTokens others) :
    program tokens = program others := by
  unfold program
  rw [same]

/-- Of tokens that go on behind the end of file, only the significant ones in front of it count. -/
theorem ofTokens_append (inner : ∀ token ∈ tokens, token.isMark .endOfFile = false)
    (isEnd : finish.isMark .endOfFile = true) (rest : List Token) :
    Cursor.ofTokens (tokens ++ finish :: rest) =
      { ahead := withoutTrivia tokens, finish, behind := {}, errors := [] } := by
  have others (token : Token) (member : token ∈ withoutTrivia tokens) :
      token.isMark .endOfFile = false := inner token (List.mem_filter.mp member).1
  have cut (more : List Token) : (withoutTrivia tokens ++ finish :: more).takeWhile
      (fun token => !token.isMark .endOfFile) = withoutTrivia tokens := by
    rw [List.takeWhile_append_of_pos fun token member => by rw [others token member]; rfl,
      List.takeWhile_cons_of_neg (by rw [isEnd]; decide), List.append_nil]
  have found (more : List Token) : (withoutTrivia tokens ++ finish :: more).find?
      (fun token => token.isMark .endOfFile) = some finish := by
    rw [List.find?_append, List.find?_eq_none.mpr fun token member =>
      Bool.eq_false_iff.mp (others token member), Option.none_or]
    exact List.find?_cons_of_pos isEnd
  change Cursor.mk ((withoutTrivia _).takeWhile _)
    (((withoutTrivia _).find? _).getD _) _ _ = _
  rw [withoutTrivia_append isEnd, cut, found, Option.getD_some]

end Grammar

/-- Reading tokens that go on behind an end of file is reading the significant ones in front of it
with just the end of file behind them: the same program is delivered, with the same positions, or
the same errors are reported at the same positions. The end of file is not consumed: where the
tokens behind it stay ahead, the same is read, and the reading stops in front of it. -/
theorem parsing_stops_at_end {tokens rest : List Token} {finish : Token}
    (inner : ∀ token ∈ tokens, token.isMark .endOfFile = false)
    (isEnd : finish.isMark .endOfFile = true) :
    (∃ result, Grammar.program (tokens ++ finish :: rest) = .ok result ∧
      Grammar.program (withoutTrivia tokens ++ [finish]) = .ok result) ∧
    ∃ read last,
      Grammar.statements (Grammar.allowanceFor (.ofTokens (tokens ++ finish :: rest)))
        (.uncut (tokens ++ finish :: rest)) = .done read last ∧
      last.ahead = finish :: withoutTrivia rest ∧
      Grammar.program (tokens ++ finish :: rest) =
        .ok (if last.errors = [] then .ok ⟨read⟩ else .error last.errors) := by
  have start := Grammar.ofTokens_append inner isEnd rest
  have shown (token : Token) (member : token ∈ withoutTrivia tokens) :
      token.isMark .endOfFile = false := inner token (List.mem_filter.mp member).1
  have streams : Cursor.Streams finish (withoutTrivia rest)
      (.ofTokens (tokens ++ finish :: rest)) (.uncut (tokens ++ finish :: rest)) := by
    rw [Cursor.uncut, Grammar.withoutTrivia_append isEnd, start]
    exact ⟨rfl, shown, rfl, rfl, rfl⟩
  have same : Cursor.ofTokens (withoutTrivia tokens ++ [finish]) =
      .ofTokens (tokens ++ finish :: rest) := by
    rw [Grammar.ofTokens_append shown isEnd, start]
    simp [withoutTrivia]
  obtain ⟨read, next, last, -, uncut, isLast, atEnd, isProgram⟩ :=
    Grammar.program_agree (Grammar.pairs_streams isEnd _) rfl streams
  refine ⟨⟨_, isProgram, ?_⟩, read, last, uncut, isLast.ahead_eq atEnd, ?_⟩
  · rw [Grammar.program_congr same, isProgram]
  · rw [isLast.errors, isProgram]

/-- The tokens of a call of a builtin with a comment in it, of a statement that breaks off before
the end of file, and of another one behind that. -/
def breakingTokens : List Token × Token × List Token :=
  let place (index : Nat) (content : Content) (lexeme : String) : Token :=
    { position := { column := index }, lexeme, content }
  ([place 1 (.builtin .print) "__print", place 2 (.mark .comment) "/* */",
    place 3 (.literal (.int 1)) "1", place 4 (.mark .semicolon) ";", place 5 (.mark .letWord) "let",
    place 6 (.mark .whitespace) " ", place 7 (.mark .identifier) "x"],
    place 8 (.mark .endOfFile) "", [place 9 (.mark .colon) ":", place 10 (.mark .semicolon) ";"])

theorem parsing_stops_at_end_breaking :
    let (tokens, finish, rest) := breakingTokens
    Grammar.program (tokens ++ finish :: rest) = .ok (.error
      [⟨{ column := 8 }, .unexpected (.mark .colon) finish.describe⟩]) ∧
    (∃ result, Grammar.program (tokens ++ finish :: rest) = .ok result ∧
      Grammar.program (withoutTrivia tokens ++ [finish]) = .ok result) ∧
    ∃ read last,
      Grammar.statements (Grammar.allowanceFor (.ofTokens (tokens ++ finish :: rest)))
        (.uncut (tokens ++ finish :: rest)) = .done read last ∧
      last.ahead = finish :: withoutTrivia rest ∧
      Grammar.program (tokens ++ finish :: rest) =
        .ok (if last.errors = [] then .ok ⟨read⟩ else .error last.errors) :=
  ⟨rfl, parsing_stops_at_end (by decide) (by decide)⟩

end PadLang
