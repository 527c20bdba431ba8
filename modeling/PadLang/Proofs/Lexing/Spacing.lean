/-
This file shows that a scan undoes spacing out lexemes.

A run that has ended in an accepting state with no transition for the next character has found the
longest match. No state that completes a lexeme other than blanks and comments has a transition for
a space, and none of these lexemes begins with a blank. So lexemes with a space between each two are
found again one by one. They hold no line feed and no tab, so they all stand on the first line, each
where the lengths before it add up to.
-/

import PadLang.Proofs.Lexing.Partition
import Mathlib.Data.Nat.Digits.Defs

namespace PadLang

variable {digits : List Char}

/-! ### Stuck runs -/

namespace Automaton

variable {State Category Kind : Type} {automaton : Automaton State Category Kind}
  {state reached : State} {kind : Kind} {front rest : List Char}

theorem pursue_append (leads : automaton.run state front = some reached)
    (accepted : automaton.accepts reached = some kind)
    (stuck : ∀ character ∈ rest.head?, automaton.next reached character = none) (consumed : Nat)
    (earlier : Option (Kind × Nat)) :
    automaton.pursue state consumed earlier (front ++ rest) =
      .accepted kind (consumed + front.length) := by
  induction front generalizing state consumed earlier with
  | nil =>
    cases leads
    cases rest with
    | nil =>
      rw [List.nil_append, pursue, latest, accepted]
      rfl
    | cons character rest =>
      rw [List.nil_append, pursue, stuck character rfl, latest, accepted]
      rfl
  | cons character front inductionHypothesis =>
    obtain ⟨middle, moved, leads⟩ := Option.bind_eq_some_iff.mp leads
    rw [List.cons_append, pursue, moved, List.length_cons, Nat.add_comm front.length,
      ← Nat.add_assoc]
    exact inductionHypothesis leads _ _

/-- A run that is stuck in an accepting state has found the longest match. -/
theorem longestMatch_append (leads : automaton.run automaton.start front = some reached)
    (accepted : automaton.accepts reached = some kind)
    (stuck : ∀ character ∈ rest.head?, automaton.next reached character = none) :
    automaton.longestMatch (front ++ rest) = .accepted kind front.length := by
  rw [longestMatch, pursue_append leads accepted stuck, Nat.zero_add]

end Automaton

/-! ### Lexemes in front of a space -/

namespace Lexicon

variable {state : State} {kind : TokenKind} {text rest : List Char}

/-- A lexeme of the kind is neither a run of blanks nor a comment. -/
def Solid (kind : TokenKind) : Prop := kind ≠ .mark .whitespace ∧ kind ≠ .mark .comment

instance (kind : TokenKind) : Decidable (Solid kind) :=
  inferInstanceAs (Decidable (kind ≠ .mark .whitespace ∧ kind ≠ .mark .comment))

theorem next_space (accepted : accepts state = some kind) (solid : Solid kind) :
    automaton.next state ' ' = none := by
  cases state with
  | whitespace | lineComment =>
    cases accepted
    exact absurd solid (by decide)
  | hex digits =>
    rw [next_hex]
    rfl
  | start | doubleUnderscore | point | hash | blockComment | blockStar | bang => cases accepted
  | _ =>
    rw [next_eq_firstExit]
    rfl

/-- Such a lexeme holds no blank. -/
theorem Lexeme.isBlank_eq_false (lexeme : Lexeme kind text) (solid : Solid kind) :
    ∀ character ∈ text, isBlank character = false := by
  have notBlank {passes : Char → Bool} (blanks : [' ', '\t', '\r', '\n'].all (!passes ·) = true)
      {character : Char} (does : passes character = true) : isBlank character = false := by
    simp only [List.all_cons, List.all_nil, Bool.and_true, Bool.and_eq_true,
      Bool.not_eq_true'] at blanks
    simp [isBlank, ne_of_passes does blanks.1, ne_of_passes does blanks.2.1,
      ne_of_passes does blanks.2.2.1, ne_of_passes does blanks.2.2.2]
  have symbolic : ∀ symbol ∈ symbols, symbol.1.toList.any isBlank = false := by decide
  have decimal {digits : List Char} (all : ∀ digit ∈ digits, Text.isDigit digit) :
      ∀ digit ∈ digits, isBlank digit = false := fun digit member =>
    notBlank (by decide) (all digit member)
  have goes {rest : List Char} (all : ∀ character ∈ rest, isWordCharacter character) :
      ∀ character ∈ rest, isBlank character = false := fun character member =>
    notBlank (by decide) (all character member)
  cases lexeme with
  | whitespace => exact absurd rfl solid.1
  | lineComment | blockComment => exact absurd rfl solid.2
  | identifier starts goesOn =>
    refine List.forall_mem_cons.mpr ⟨?_, goes goesOn⟩
    rcases starts with letter | rfl
    · exact notBlank (by decide) letter
    · rfl
  | builtin _ goesOn =>
    exact List.forall_mem_cons.mpr ⟨rfl, List.forall_mem_cons.mpr ⟨rfl, goes goesOn⟩⟩
  | integer _ all => exact decimal all
  | float _ allWhole _ allFraction =>
    exact List.forall_mem_append.mpr ⟨decimal allWhole,
      List.forall_mem_cons.mpr ⟨rfl, decimal allFraction⟩⟩
  | colour _ hexadecimal =>
    exact List.forall_mem_cons.mpr ⟨rfl, fun digit member =>
      notBlank (by decide) (hexadecimal digit member)⟩
  | symbol listed =>
    exact fun character member =>
      Bool.eq_false_iff.mpr (List.any_eq_false.mp (symbolic _ listed) character member)

/-- Such a lexeme is found again in front of a space and at the end of a text. -/
theorem Lexeme.longestMatch_append (lexeme : Lexeme kind text) (solid : Solid kind)
    (apart : ∀ character ∈ rest.head?, character = ' ') :
    automaton.longestMatch (text ++ rest) = .accepted kind text.length := by
  obtain ⟨reached, leads, accepted⟩ := Option.bind_eq_some_iff.mp lexeme.recognize
  refine Automaton.longestMatch_append leads accepted fun character isNext => ?_
  rw [apart character isNext]
  exact next_space accepted solid

/-- A space is found again in front of anything but a blank. -/
theorem longestMatch_space (apart : ∀ character ∈ rest.head?, isBlank character = false) :
    automaton.longestMatch (' ' :: rest) = .accepted (.mark .whitespace) 1 := by
  have leads : automaton.run automaton.start [' '] = some .whitespace := rfl
  refine Automaton.longestMatch_append leads rfl fun character isNext => ?_
  rw [next_whitespace, apart character isNext]
  rfl

end Lexicon

/-! ### Lexemes on the first line -/

theorem Position.afterAll_of_line {text : List Char} (plain : ∀ character ∈ text,
    Lexicon.isBlank character = true → character = ' ') {line column : Nat}
    (fits : column < Counter.bound) :
    (⟨line, column⟩ : Position).afterAll text =
      if column + text.length < Counter.bound then .ok ⟨line, column + text.length⟩
      else .error (.overflow .add) := by
  induction text generalizing column with
  | nil => rw [List.length_nil, Nat.add_zero, if_pos fits, afterAll]
  | cons character rest inductionHypothesis =>
    obtain ⟨first, others⟩ := List.forall_mem_cons.mp plain
    have moved : (⟨line, column⟩ : Position).after character =
        (⟨line, column⟩ : Position).advance := by
      have notNewline : character ≠ '\n' := by
        rintro rfl
        cases first rfl
      have notTab : character ≠ '\t' := by
        rintro rfl
        cases first rfl
      rw [after, if_neg notNewline, if_neg notTab]
    rw [afterAll, moved, advance, Counter.add, List.length_cons]
    by_cases next : column + 1 < Counter.bound
    · rw [if_pos next]
      exact (inductionHypothesis others next).trans (by rw [Nat.add_assoc, Nat.add_comm 1])
    · rw [if_neg next, if_neg (by omega)]
      rfl

namespace Scan

variable {kind : TokenKind} {position : Position} {front rest : List Char}
  {pieces words : List (TokenKind × String)}

/-- The characters of lexemes one after another. -/
def charsOf (pieces : List (TokenKind × String)) : List Char :=
  pieces.flatMap fun piece => piece.2.toList

/-- The items of lexemes that follow each other on the first line, from a column on. -/
def itemsAlong (column : Nat) : List (TokenKind × String) → List Item
  | [] => [.ok (Token.endOfFile ⟨1, column⟩)]
  | (kind, lexeme) :: rest =>
    (Token.read kind lexeme ⟨1, column⟩).mapError (⟨⟨1, column⟩, ·⟩) ::
      itemsAlong (column + lexeme.length) rest

/-- Each of the lexemes is the longest match of what is left, and they stay on one line. -/
inductive Cut : List (TokenKind × String) → Prop where
  | nil : Cut []
  | cons {kind : TokenKind} {lexeme : String} {rest : List (TokenKind × String)}
      (nonempty : lexeme.toList ≠ [])
      (longest : Lexicon.automaton.longestMatch (lexeme.toList ++ charsOf rest) =
        .accepted kind lexeme.length)
      (plain : ∀ character ∈ lexeme.toList, Lexicon.isBlank character = true → character = ' ')
      (others : Cut rest) : Cut ((kind, lexeme) :: rest)

/-- A scan goes on behind the longest match. -/
theorem itemsFrom_append (nonempty : front ≠ [])
    (longest : Lexicon.automaton.longestMatch (front ++ rest) = .accepted kind front.length) :
    itemsFrom position (front ++ rest) = do
      let next ← position.afterAll front
      let items ← itemsFrom next rest
      return item (.accepted kind front.length) (String.ofList front) position :: items := by
  obtain ⟨first, more, rfl⟩ := List.exists_cons_of_ne_nil nonempty
  rw [List.cons_append] at longest ⊢
  rw [itemsFrom, longest, Verdict.length, List.length_cons, Nat.add_sub_cancel,
    List.take_left, List.drop_left]

theorem Cut.itemsFrom (cut : Cut pieces) {column : Nat} (fits : column < Counter.bound) :
    itemsFrom ⟨1, column⟩ (charsOf pieces) =
      if column + (charsOf pieces).length < Counter.bound then .ok (itemsAlong column pieces)
      else .error (.overflow .add) := by
  induction cut generalizing column with
  | nil =>
    rw [charsOf, List.flatMap_nil, Scan.itemsFrom, List.length_nil, Nat.add_zero, if_pos fits]
    rfl
  | @cons kind lexeme rest nonempty longest plain others inductionHypothesis =>
    have chars : charsOf ((kind, lexeme) :: rest) = lexeme.toList ++ charsOf rest := rfl
    rw [← String.length_toList] at longest
    rw [chars, itemsFrom_append nonempty longest, Position.afterAll_of_line plain fits,
      List.length_append, ← Nat.add_assoc]
    by_cases next : column + lexeme.toList.length < Counter.bound
    · rw [if_pos next]
      change (Scan.itemsFrom ⟨1, column + lexeme.toList.length⟩ (charsOf rest) >>= _) = _
      rw [inductionHypothesis next]
      split
      · rw [String.length_toList, String.ofList_toList]
        rfl
      · rfl
    · rw [if_neg next, if_neg (by omega)]
      rfl

/-! ### Spaces in between -/

/-- The words with a space between each two. -/
def spaced (words : List (TokenKind × String)) : List (TokenKind × String) :=
  words.intersperse (.mark .whitespace, " ")

theorem charsOf_spaced (words : List (TokenKind × String)) :
    charsOf (spaced words) = (" ".intercalate (words.map Prod.snd)).toList := by
  rw [String.toList_intercalate]
  induction words with
  | nil => rfl
  | cons first rest inductionHypothesis =>
    cases rest with
    | nil => simp [charsOf, spaced]
    | cons second rest =>
      rw [spaced, List.intersperse_cons_cons, ← spaced, List.map_cons, List.map_cons, List.map_cons,
        List.map_cons, List.intercalate_cons_cons, List.append_assoc]
      exact congrArg (first.2.toList ++ ' ' :: ·) inductionHypothesis

/-- The text is a lexeme of the kind, which is neither a run of blanks nor a comment. -/
def IsWord (piece : TokenKind × String) : Prop :=
  Lexicon.automaton.longestMatch piece.2.toList = .accepted piece.1 piece.2.length ∧
    Lexicon.Solid piece.1

instance (piece : TokenKind × String) : Decidable (IsWord piece) :=
  inferInstanceAs (Decidable (_ ∧ _))

theorem IsWord.lexeme {word : TokenKind × String} (isWord : IsWord word) :
    Lexicon.Lexeme word.1 word.2.toList := by
  have lexeme := Lexicon.lexeme_of_longestMatch isWord.1
  rwa [← String.length_toList, List.take_length] at lexeme

/-- A word is cut off in front of a space or at the end. -/
theorem Cut.word {word : TokenKind × String} (isWord : IsWord word)
    (apart : ∀ character ∈ (charsOf pieces).head?, character = ' ') (cut : Cut pieces) :
    Cut (word :: pieces) := by
  have lexeme := isWord.lexeme
  refine .cons lexeme.ne_nil ?_ (fun character member blank => ?_) cut
  · rw [← String.length_toList]
    exact lexeme.longestMatch_append isWord.2 apart
  · rw [lexeme.isBlank_eq_false isWord.2 character member] at blank
    cases blank

theorem cut_spaced (areWords : ∀ word ∈ words, IsWord word) : Cut (spaced words) := by
  induction words with
  | nil => exact .nil
  | cons first rest inductionHypothesis =>
    obtain ⟨isWord, others⟩ := List.forall_mem_cons.mp areWords
    have cut := inductionHypothesis others
    cases rest with
    | nil =>
      refine .word isWord ?_ .nil
      rintro _ ⟨⟩
    | cons second rest =>
      rw [spaced, List.intersperse_cons_cons, ← spaced]
      refine .word isWord ?_ (.cons (List.cons_ne_nil _ _) ?_ ?_ cut)
      · rintro _ ⟨⟩
        rfl
      · -- The next word stands right behind the space, and it does not begin with a blank.
        have next := (others second List.mem_cons_self).lexeme
        have starts : ∃ more, spaced (second :: rest) = second :: more := by
          cases rest with
          | nil => exact ⟨[], rfl⟩
          | cons third rest => exact ⟨_, List.intersperse_cons_cons⟩
        obtain ⟨more, starts⟩ := starts
        refine Lexicon.longestMatch_space fun character isNext => ?_
        obtain ⟨head, tail, chars⟩ := List.exists_cons_of_ne_nil next.ne_nil
        rw [starts, charsOf, List.flatMap_cons, chars] at isNext
        obtain rfl : head = character := Option.some.inj isNext
        refine next.isBlank_eq_false (others second List.mem_cons_self).2 head ?_
        rw [chars]
        exact List.mem_cons_self
      · exact List.forall_mem_singleton.mpr fun _ => rfl

end Scan

/-! ### Digits -/

/-- The number that decimal digits denote, the most significant digit first. -/
def decimalValue (digits : List Char) : Nat :=
  Nat.ofDigits 10 (digits.reverse.map fun digit => digit.toNat - '0'.toNat)

theorem digitsValue_eq (digits : List Char) : Text.digitsValue digits = decimalValue digits := by
  rw [Text.digitsValue, decimalValue, Nat.ofDigits_eq_foldr, List.map_reverse, List.foldr_reverse,
    List.foldl_map]
  refine congrArg (fun step => digits.foldl step 0) ?_
  funext value digit
  exact Nat.add_comm _ _

theorem Text.splitSign_of_digits (decimal : ∀ digit ∈ digits, Text.isDigit digit) :
    splitSign digits = (false, digits) := by
  unfold splitSign
  split
  · cases decimal _ List.mem_cons_self
  · cases decimal _ List.mem_cons_self
  · rfl

theorem Literal.integer?_of_digits (nonempty : digits ≠ [])
    (decimal : ∀ digit ∈ digits, Text.isDigit digit) :
    Literal.integer? digits =
      if decimalValue digits < 2 ^ 63 then some (decimalValue digits : Int) else none := by
  rw [integer?, Text.splitSign_of_digits decimal]
  simp only [Bool.false_eq_true, if_false]
  rw [if_pos ⟨nonempty, List.all_eq_true.mpr decimal⟩, digitsValue_eq]
  refine if_congr ?_ rfl rfl
  rw [fitsInteger, integerBound, decide_eq_true_eq]
  omega

/-- A scan undoes spacing out lexemes. Of lexemes with a space between each two, none of them blanks
or a comment, it makes just what each of them makes by itself, a token or an error, with one space
in between and the end of file behind, all on the first line; unless there are more columns than a
counter holds. Digits make an integer of their decimal value, however many they are and whatever
they begin with, as long as it fits in 64 bits. -/
theorem lexing_undoes_spacing (words : List (TokenKind × String))
    (areWords : ∀ word ∈ words, Scan.IsWord word) :
    (Scan.items (" ".intercalate (words.map Prod.snd)) =
      if (" ".intercalate (words.map Prod.snd)).length + 1 < Counter.bound then
        .ok (Scan.itemsAlong 1 (words.intersperse (.mark .whitespace, " ")))
      else .error (.overflow .add)) ∧
    (∀ position, Token.read (.mark .whitespace) " " position =
      .ok { position, lexeme := " ", content := .mark .whitespace }) ∧
    ∀ word ∈ words, (∀ digit ∈ word.2.toList, Text.isDigit digit) →
      word.1 = .literal .int ∧ ∀ position, Token.read word.1 word.2 position =
        if decimalValue word.2.toList < 2 ^ 63 then
          .ok { position, lexeme := word.2,
                content := .literal (.int (decimalValue word.2.toList)) }
        else .error (.integerOverflow word.2) := by
  refine ⟨?_, fun position => rfl, fun word member decimal => ?_⟩
  · have fits : 1 < Counter.bound := by decide
    have scanned := (Scan.cut_spaced areWords).itemsFrom fits
    rw [Scan.charsOf_spaced, String.length_toList, Nat.add_comm 1] at scanned
    exact scanned
  · have lexeme := (areWords word member).lexeme
    have isInteger := (Lexicon.Lexeme.integer lexeme.ne_nil decimal).kind_unique lexeme
    refine ⟨isInteger, fun position => ?_⟩
    rw [isInteger, Token.read]
    change Content.read (.literal .int) word.2 >>= _ = _
    rw [Content.read, Literal.integer?_of_digits lexeme.ne_nil decimal]
    by_cases fits : decimalValue word.2.toList < 2 ^ 63
    · rw [if_pos fits, if_pos fits]
      rfl
    · rw [if_neg fits, if_neg fits]
      rfl

/-- A keyword, a number with leading zeros, a builtin that does not exist and a number too large. -/
def exampleWords : List (TokenKind × String) :=
  [(.mark .identifier, "let"), (.literal .int, "007"), (.builtin, "__moon"),
   (.literal .int, "9223372036854775808")]

theorem lexing_undoes_spacing_example :
    (∀ word ∈ exampleWords, Scan.IsWord word) ∧
      Scan.items "let 007 __moon 9223372036854775808" = .ok
        [.ok ⟨⟨1, 1⟩, "let", .mark .letWord⟩, .ok ⟨⟨1, 4⟩, " ", .mark .whitespace⟩,
         .ok ⟨⟨1, 5⟩, "007", .literal (.int 7)⟩, .ok ⟨⟨1, 8⟩, " ", .mark .whitespace⟩,
         .error ⟨⟨1, 9⟩, .unknownBuiltin "__moon"⟩, .ok ⟨⟨1, 15⟩, " ", .mark .whitespace⟩,
         .error ⟨⟨1, 16⟩, .integerOverflow "9223372036854775808"⟩,
         .ok (Token.endOfFile ⟨1, 35⟩)] := by
  have areWords : ∀ word ∈ exampleWords, Scan.IsWord word := by decide
  exact ⟨areWords, (lexing_undoes_spacing exampleWords areWords).1⟩

end PadLang
