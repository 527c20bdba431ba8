/-
This file shows that a scan cuts its text into lexemes and loses nothing.

A scan lays items along the text: each one has a lexeme that is not empty, stands where its lexeme
begins, and is followed by an item where its lexeme ends. The end of file is laid last, and once,
because no lexeme is read as one. What is known of the items follows from how they are laid.
-/

import PadLang.Proofs.Lexing.Lexemes
import PadLang.Proofs.Ordering
import PadLang.Proofs.Scanning

namespace PadLang

variable {kind : TokenKind}

/-! ### Items -/

namespace Scan

/-- The text that an item is about. -/
def lexeme : Item → String
  | .ok token => token.lexeme
  | .error error => error.value.lexeme

/-- Where an item begins. -/
def place : Item → Position
  | .ok token => token.position
  | .error error => error.position

/-- Whether an item is an error. -/
def isError : Item → Bool
  | .ok _ => false
  | .error _ => true

/-- Whether an item is an end of file. -/
def isEnd : Item → Bool
  | .ok token => token.isMark .endOfFile
  | .error _ => false

end Scan

/-- A lexeme is read as its kind says, or the error names it. -/
theorem Content.read_cases (kind : TokenKind) (lexeme : String) :
    (∃ content, Content.read kind lexeme = .ok content ∧ content.kind = kind) ∨
      ∃ error, Content.read kind lexeme = .error error ∧ error.lexeme = lexeme := by
  cases kind with
  | mark sign => exact .inl ⟨.mark sign, rfl, rfl⟩
  | builtin =>
    unfold Content.read
    cases Builtin.ofText? lexeme with
    | none => exact .inr ⟨_, rfl, rfl⟩
    | some found => exact .inl ⟨_, rfl, rfl⟩
  | literal base =>
    unfold Content.read
    cases base with
    | bool => exact .inl ⟨_, rfl, rfl⟩
    | int =>
      cases Literal.integer? lexeme.toList with
      | none => exact .inr ⟨_, rfl, rfl⟩
      | some value => exact .inl ⟨_, rfl, rfl⟩
    | float =>
      cases Binary64.ofText? lexeme with
      | none => exact .inr ⟨_, rfl, rfl⟩
      | some value => exact .inl ⟨_, rfl, rfl⟩
    | colour =>
      cases Colour.ofText? lexeme with
      | none => exact .inr ⟨_, rfl, rfl⟩
      | some value => exact .inl ⟨_, rfl, rfl⟩

/-- No word is reserved for the end of file. -/
theorem TokenKind.refine_ne_endOfFile (notEnd : kind ≠ .mark .endOfFile) (lexeme : String) :
    kind.refine lexeme ≠ .mark .endOfFile := by
  have words : ∀ word ∈ reserved, word.2 ≠ .mark .endOfFile := by decide
  unfold refine
  split
  · cases found : reserved.lookup lexeme with
    | none => exact notEnd
    | some other =>
      obtain ⟨before, after, split, -⟩ := List.lookup_eq_some_iff.mp found
      refine words (lexeme, other) ?_
      rw [split]
      exact List.mem_append_right before List.mem_cons_self
  · exact notEnd

theorem Lexicon.Lexeme.kind_ne_endOfFile {text : List Char} (lexeme : Lexeme kind text) :
    kind ≠ .mark .endOfFile := by
  have marks : ∀ symbol ∈ symbols, symbol.2 ≠ .endOfFile := by decide
  cases lexeme with
  | symbol listed => exact fun same => marks _ listed (TokenKind.mark.inj same)
  | whitespace | identifier | builtin | integer | float | colour | lineComment | blockComment =>
    decide

namespace Scan

variable {items : List Item}

/-- An item tells its lexeme and where it begins, and it is an end of file only if the lexeme is
accepted as one. -/
theorem item_fits (verdict : Verdict TokenKind) (text : String) (position : Position) :
    lexeme (item verdict text position) = text ∧ place (item verdict text position) = position ∧
      (isEnd (item verdict text position) = true →
        ∃ kind length, verdict = .accepted kind length ∧ kind.refine text = .mark .endOfFile) := by
  cases verdict with
  | rejected length =>
    refine ⟨rfl, rfl, fun isEnd => ?_⟩
    cases isEnd
  | accepted kind length =>
    rcases Content.read_cases (kind.refine text) text with
      ⟨content, found, isKind⟩ | ⟨error, failed, isLexeme⟩
    · have made : item (.accepted kind length) text position =
          .ok { position, lexeme := text, content } := by
        rw [item, Token.read, found]
        rfl
      rw [made]
      refine ⟨rfl, rfl, fun isEnd => ⟨kind, length, rfl, ?_⟩⟩
      have isMark : content = .mark .endOfFile := eq_of_beq isEnd
      rw [← isKind, isMark]
      rfl
    · have made : item (.accepted kind length) text position =
          .error { position, value := error } := by
        rw [item, Token.read, failed]
        rfl
      rw [made]
      refine ⟨isLexeme, rfl, fun isEnd => ?_⟩
      cases isEnd

/-- No lexeme is the end of file. -/
theorem isEnd_item_longestMatch (text : List Char) (front : String) (position : Position) :
    isEnd (item (Lexicon.automaton.longestMatch text) front position) = false := by
  refine Bool.eq_false_iff.mpr fun isEnd => ?_
  obtain ⟨kind, length, accepted, ends⟩ := (item_fits _ _ _).2.2 isEnd
  have lexeme := Lexicon.lexeme_of_longestMatch accepted
  exact TokenKind.refine_ne_endOfFile lexeme.kind_ne_endOfFile front ends

/-! ### Items along a text -/

/-- The items are laid along the text, which begins at the position. -/
inductive Laid : Position → List Char → List Item → Prop where
  | finish (position : Position) : Laid position [] [.ok (Token.endOfFile position)]
  | lexeme {position next : Position} {front rest : List Char} {others : List Item}
      (nonempty : front ≠ [])
      (longest : (Lexicon.automaton.longestMatch (front ++ rest)).length = front.length)
      (moved : position.afterAll front = .ok next) (laid : Laid next rest others) :
      Laid position (front ++ rest) (item (Lexicon.automaton.longestMatch (front ++ rest))
        (String.ofList front) position :: others)

theorem itemsFrom_laid {position : Position} {text : List Char} {items : List Item}
    (scanned : itemsFrom position text = .ok items) : Laid position text items := by
  match text with
  | [] =>
    rw [itemsFrom] at scanned
    cases scanned
    exact .finish position
  | first :: rest =>
    rw [itemsFrom] at scanned
    obtain ⟨next, moved, scanned⟩ := bind_eq_ok_iff.mp scanned
    obtain ⟨others, scannedRest, made⟩ := bind_eq_ok_iff.mp scanned
    cases made
    have laid := itemsFrom_laid scannedRest
    have most : (Lexicon.automaton.longestMatch (first :: rest)).length ≤ (first :: rest).length :=
      Automaton.length_longestMatch_le (List.cons_ne_nil _ _)
    have least : 0 < (Lexicon.automaton.longestMatch (first :: rest)).length :=
      Automaton.length_longestMatch_pos rfl
    generalize taken : (Lexicon.automaton.longestMatch (first :: rest)).length - 1 = more at *
    have whole : (first :: rest.take more) ++ rest.drop more = first :: rest := by
      rw [List.cons_append, List.take_append_drop]
    have longest : (Lexicon.automaton.longestMatch (first :: rest)).length =
        (first :: rest.take more).length := by
      rw [List.length_cons, List.length_take]
      rw [List.length_cons] at most
      omega
    rw [← whole] at longest ⊢
    exact .lexeme (List.cons_ne_nil _ _) longest moved laid
termination_by text.length
decreasing_by
  simp only [List.length_drop, List.length_cons]
  omega

namespace Laid

variable {position : Position} {text : List Char} {items : List Item}

variable (laid : Laid position text items)

include laid

/-- The lexemes joined are the text. -/
theorem flatMap_lexeme : items.flatMap (fun item => (Scan.lexeme item).toList) = text := by
  induction laid with
  | finish position => rfl
  | lexeme nonempty longest moved laid inductionHypothesis =>
    rw [List.flatMap_cons, inductionHypothesis, (item_fits _ _ _).1, String.toList_ofList]

/-- An item stands at the position after the characters of all lexemes before it. -/
theorem afterAll_eq_place {before after : List Item} {found : Item}
    (split : items = before ++ found :: after) :
    position.afterAll (before.flatMap fun item => (Scan.lexeme item).toList) =
      .ok (place found) := by
  induction laid generalizing before with
  | finish position =>
    cases before with
    | nil =>
      cases split
      rfl
    | cons first before =>
      have empty := (List.cons.inj split).2
      exact absurd empty.symm (List.append_ne_nil_of_right_ne_nil _ (List.cons_ne_nil _ _))
  | lexeme nonempty longest moved laid inductionHypothesis =>
    cases before with
    | nil =>
      cases split
      rw [(item_fits _ _ _).2.1]
      rfl
    | cons first before =>
      cases split
      rw [List.flatMap_cons, (item_fits _ _ _).1, String.toList_ofList, Position.afterAll_append,
        moved]
      exact inductionHypothesis rfl

theorem le_place : ∀ item ∈ items, position ≤ place item := by
  induction laid with
  | finish position => exact List.forall_mem_singleton.mpr (le_refl position)
  | lexeme nonempty longest moved laid inductionHypothesis =>
    refine List.forall_mem_cons.mpr ⟨?_, fun other member => ?_⟩
    · rw [(item_fits _ _ _).2.1]
    · exact (Position.le_of_afterAll moved).trans (inductionHypothesis other member)

theorem places_increase : items.Pairwise fun first second => place first < place second := by
  induction laid with
  | finish position => exact List.pairwise_singleton _ _
  | lexeme nonempty longest moved laid inductionHypothesis =>
    refine List.pairwise_cons.mpr ⟨fun other member => ?_, inductionHypothesis⟩
    rw [(item_fits _ _ _).2.1]
    exact (Position.lt_of_afterAll nonempty moved).trans_le (laid.le_place other member)

/-- The end of file is the last item and the only one with an empty lexeme. -/
theorem exists_eq_append :
    ∃ found finish, items = found ++ [.ok (Token.endOfFile finish)] ∧
      ∀ item ∈ found, Scan.lexeme item ≠ "" ∧ isEnd item = false := by
  induction laid with
  | finish position => exact ⟨[], position, rfl, List.forall_mem_nil _⟩
  | lexeme nonempty longest moved laid inductionHypothesis =>
    obtain ⟨found, finish, rfl, inside⟩ := inductionHypothesis
    refine ⟨_ :: found, finish, rfl, List.forall_mem_cons.mpr ⟨⟨?_, ?_⟩, inside⟩⟩
    · rw [(item_fits _ _ _).1, Ne, String.ofList_eq_empty_iff]
      exact nonempty
    · exact isEnd_item_longestMatch _ _ _

end Laid

/-! ### All tokens or all errors -/

theorem filter_isError (items : List Item) : items.filter isError = (errors items).map .error := by
  induction items with
  | nil => rfl
  | cons item rest inductionHypothesis =>
    cases item with
    | ok token => exact inductionHypothesis
    | error error => exact congrArg (Except.error error :: ·) inductionHypothesis

theorem errors_map_ok (found : List Token) : errors (found.map .ok) = [] := by
  induction found with
  | nil => rfl
  | cons token rest inductionHypothesis => exact inductionHypothesis

theorem tokens_map_ok (found : List Token) : tokens (found.map .ok) = found := by
  induction found with
  | nil => rfl
  | cons token rest inductionHypothesis => exact congrArg (token :: ·) inductionHypothesis

theorem eq_map_ok_tokens (clean : errors items = []) : items = (tokens items).map .ok := by
  induction items with
  | nil => rfl
  | cons item rest inductionHypothesis =>
    cases item with
    | ok token => exact congrArg (Except.ok token :: ·) (inductionHypothesis clean)
    | error error => cases clean

/-- The tokens are delivered just if they are all there is. -/
theorem settle_eq_ok_iff {found : List Token} :
    settle items = .ok found ↔ items = found.map .ok := by
  constructor
  · intro settled
    unfold settle at settled
    split at settled
    · rename_i clean
      cases settled
      exact eq_map_ok_tokens clean
    · cases settled
  · rintro rfl
    rw [settle, errors_map_ok, tokens_map_ok]

/-- The errors are delivered, all of them and in order, just if there is one. -/
theorem settle_eq_error_iff {found : List (Located LexicalError)} :
    settle items = .error found ↔ found ≠ [] ∧ items.filter isError = found.map .error := by
  rw [filter_isError, List.map_inj_right fun _ _ => Except.error.inj, settle]
  split
  · rename_i clean
    rw [clean]
    refine iff_of_false (fun same => by cases same) ?_
    rintro ⟨nonempty, rfl⟩
    exact nonempty rfl
  · rename_i dirty
    constructor
    · rintro ⟨⟩
      exact ⟨dirty, rfl⟩
    · rintro ⟨-, same⟩
      rw [same]

end Scan

/-! ### Whole texts -/

/-- A scan partitions its text. It ends; the lexemes of its items joined are the text, and only
the last one is empty; the last item is the one end of file; each item stands at the position
after the characters before it, so positions increase; and all tokens are delivered, or all errors
if there is one. -/
theorem lexing_partitions_source (source : String) (short : source.length < 2 ^ 30) :
    ∃ items, Scan.items source = .ok items ∧
      String.join (items.map Scan.lexeme) = source ∧
      (∃ found finish, items = found ++ [.ok (Token.endOfFile finish)] ∧
        ∀ item ∈ found, Scan.lexeme item ≠ "" ∧ Scan.isEnd item = false) ∧
      (∀ before item after, items = before ++ item :: after →
        (String.join (before.map Scan.lexeme)).toList.foldlM Position.after ⟨1, 1⟩ =
          .ok (Scan.place item)) ∧
      items.Pairwise (fun first second => Scan.place first < Scan.place second) ∧
      (∀ tokens, Scan.settle items = .ok tokens ↔ items = tokens.map .ok) ∧
      ∀ errors, Scan.settle items = .error errors ↔
        errors ≠ [] ∧ items.filter Scan.isError = errors.map .error := by
  have small : source.length * Position.tabStop + 1 < Counter.bound := by
    rw [Position.tabStop, Counter.bound]
    omega
  have joined (items : List Item) : (String.join (items.map Scan.lexeme)).toList =
      items.flatMap fun item => (Scan.lexeme item).toList := by
    rw [String.toList_join, List.flatMap_map]
  obtain ⟨items, scanned, -⟩ := (Scan.items_meets source).exists_ok small
  have laid := Scan.itemsFrom_laid scanned
  refine ⟨items, scanned, ?_, laid.exists_eq_append, ?_, laid.places_increase,
    fun tokens => Scan.settle_eq_ok_iff, fun errors => Scan.settle_eq_error_iff⟩
  · rw [← String.toList_inj, joined, laid.flatMap_lexeme]
  · intro before item after split
    rw [joined, ← Position.afterAll_eq_foldlM]
    exact laid.afterAll_eq_place split

/-- A text with a tab, half a colour, a builtin that does not exist and an integer out of range. -/
def faultySource : String := "\t#12 __moon\n 9223372036854775808;"

theorem lexing_partitions_faulty :
    faultySource.length < 2 ^ 30 ∧
      ∃ items, Scan.items faultySource = .ok items ∧
        String.join (items.map Scan.lexeme) = faultySource ∧
        items.Pairwise fun first second => Scan.place first < Scan.place second := by
  have short : faultySource.length < 2 ^ 30 := by decide
  obtain ⟨items, scanned, joined, -, -, increasing, -⟩ := lexing_partitions_source _ short
  exact ⟨short, items, scanned, joined, increasing⟩

end PadLang
