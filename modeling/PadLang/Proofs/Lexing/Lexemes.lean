/-
This file says which character runs are lexemes and shows that the automaton finds the longest.

The lexemes are described by themselves: runs of blanks, words, numbers, colours, comments and
symbols. For each state of the automaton there is one lemma about the texts that are recognised
from it, and it rests on the lemmas about the states that can come next. The lemma about the
first state is the description of the lexemes.
-/

import PadLang.Token.Lexicon
import PadLang.Proofs.Lexing.Longest

namespace PadLang

variable {state : State} {character first : Char} {rest : List Char}

namespace Lexicon

variable {length : Nat}

/-! ### Lexemes -/

/-- The characters that separate lexemes. -/
def isBlank (character : Char) : Bool :=
  character == ' ' || character == '\t' || character == '\r' || character == '\n'

/-- The characters that words are made of. -/
def isWordCharacter (character : Char) : Bool :=
  isLetter character || Text.isDigit character || character == '_'

/-- The operators and the punctuation. -/
def symbols : List (String × Mark) :=
  [("+", .plus), ("-", .minus), ("*", .star), ("/", .slash), ("=", .assign), ("==", .equal),
   ("!=", .notEqual), ("<", .less), ("<=", .lessEqual), (">", .greater), (">=", .greaterEqual),
   ("(", .openParen), (")", .closeParen), ("\x7b", .openCurly), ("\x7d", .closeCurly),
   ("[", .openSquare), ("]", .closeSquare), (",", .comma), (";", .semicolon), (":", .colon),
   ("->", .arrow)]

/-- The text is a lexeme of the kind. -/
inductive Lexeme : TokenKind → List Char → Prop where
  | whitespace {text : List Char} (nonempty : text ≠ [])
      (blank : ∀ character ∈ text, isBlank character) : Lexeme (.mark .whitespace) text
  | identifier {first : Char} {rest : List Char} (starts : isLetter first ∨ first = '_')
      (goesOn : ∀ character ∈ rest, isWordCharacter character)
      (notBuiltin : ¬ ['_', '_'] <+: first :: rest) :
      Lexeme (.mark .identifier) (first :: rest)
  | builtin {rest : List Char} (nonempty : rest ≠ [])
      (goesOn : ∀ character ∈ rest, isWordCharacter character) :
      Lexeme .builtin ('_' :: '_' :: rest)
  | integer {digits : List Char} (nonempty : digits ≠ [])
      (decimal : ∀ digit ∈ digits, Text.isDigit digit) : Lexeme (.literal .int) digits
  | float {whole fraction : List Char} (nonemptyWhole : whole ≠ [])
      (decimalWhole : ∀ digit ∈ whole, Text.isDigit digit) (nonemptyFraction : fraction ≠ [])
      (decimalFraction : ∀ digit ∈ fraction, Text.isDigit digit) :
      Lexeme (.literal .float) (whole ++ '.' :: fraction)
  | colour {digits : List Char} (six : digits.length = 6)
      (hexadecimal : ∀ digit ∈ digits, isHexDigit digit) : Lexeme (.literal .colour) ('#' :: digits)
  | lineComment {body : List Char} (oneLine : '\n' ∉ body) :
      Lexeme (.mark .comment) ('/' :: '/' :: body)
  /-- A block comment ends with the first closing behind its opening. -/
  | blockComment {body : List Char} (unclosed : ¬ ['*', '/'] <:+: body) :
      Lexeme (.mark .comment) ('/' :: '*' :: (body ++ ['*', '/']))
  | symbol {spelling : String} {mark : Mark} (listed : (spelling, mark) ∈ symbols) :
      Lexeme (.mark mark) spelling.toList

/-! ### Transitions -/

/-- The transitions of a state, in the order they are tried. -/
def exits (state : State) : List (CharClass × State) :=
  classes.filterMap fun category => (step state category).map (category, ·)

/-- Where the first exit leads that is open to a character. -/
def firstExit (character : Char) : List (CharClass × State) → Option State
  | [] => none
  | (category, target) :: rest =>
    if category.test character then some target else firstExit character rest

theorem next_eq_firstExit (state : State) (character : Char) :
    automaton.next state character = firstExit character (exits state) := by
  have order : automaton.categories = classes.map fun category => (category, category.test) := rfl
  rw [Automaton.next, Automaton.transition, Automaton.categorize, order, exits]
  induction classes with
  | nil => rfl
  | cons category rest inductionHypothesis =>
    rw [List.map_cons, List.filter_cons, List.filterMap_cons]
    split
    · rename_i passes
      rw [List.map_cons, List.findSome?_cons, inductionHypothesis]
      have stepped : automaton.step state (category, category.test).1 = step state category := rfl
      rw [stepped]
      cases step state category with
      | none => rfl
      | some target => exact (if_pos passes).symm
    · rename_i fails
      rw [inductionHypothesis]
      cases step state category with
      | none => rfl
      | some target => exact (if_neg fails).symm

/-- A character takes a transition of a category it belongs to. -/
theorem exists_step_of_next {target : State}
    (transition : automaton.next state character = some target) :
    ∃ category : CharClass, step state category = some target ∧ category.test character := by
  obtain ⟨_, member, stepped⟩ := List.exists_of_findSome?_eq_some transition
  obtain ⟨_, passing, rfl⟩ := List.mem_map.mp member
  obtain ⟨listed, passes⟩ := List.mem_filter.mp passing
  obtain ⟨category, -, rfl⟩ := List.mem_map.mp listed
  exact ⟨category, stepped, passes⟩

/-! ### Blanks and words -/

theorem next_whitespace (character : Char) :
    automaton.next .whitespace character =
      if isBlank character then some .whitespace else none := by
  rw [next_eq_firstExit]
  change firstExit character [(.newline, .whitespace), (.space, .whitespace)] = _
  simp only [firstExit, CharClass.test, isBlank]
  grind

theorem next_word (character : Char) :
    automaton.next .word character = if isWordCharacter character then some .word else none := by
  rw [next_eq_firstExit]
  change firstExit character [(.underscore, .word), (.digit, .word), (.letter, .word)] = _
  simp only [firstExit, CharClass.test, isWordCharacter]
  grind

theorem next_builtin (character : Char) :
    automaton.next .builtin character =
      if isWordCharacter character then some .builtin else none := by
  rw [next_eq_firstExit]
  change firstExit character [(.underscore, .builtin), (.digit, .builtin), (.letter, .builtin)] = _
  simp only [firstExit, CharClass.test, isWordCharacter]
  grind

theorem next_doubleUnderscore (character : Char) :
    automaton.next .doubleUnderscore character =
      if isWordCharacter character then some .builtin else none := by
  rw [← next_builtin, next_eq_firstExit, next_eq_firstExit]
  rfl

theorem next_underscore (character : Char) :
    automaton.next .underscore character =
      if character = '_' then some .doubleUnderscore
      else if isWordCharacter character then some .word else none := by
  rw [next_eq_firstExit]
  change firstExit character
    [(.underscore, .doubleUnderscore), (.digit, .word), (.letter, .word)] = _
  simp only [firstExit, CharClass.test, isWordCharacter]
  grind

variable {text : List Char} {kind : TokenKind}

theorem recognize_whitespace :
    automaton.recognize .whitespace text = some kind ↔
      kind = .mark .whitespace ∧ ∀ character ∈ text, isBlank character :=
  Automaton.recognize_loop rfl next_whitespace

theorem recognize_word :
    automaton.recognize .word text = some kind ↔
      kind = .mark .identifier ∧ ∀ character ∈ text, isWordCharacter character :=
  Automaton.recognize_loop rfl next_word

theorem recognize_doubleUnderscore :
    automaton.recognize .doubleUnderscore text = some kind ↔
      kind = .builtin ∧ text ≠ [] ∧ ∀ character ∈ text, isWordCharacter character :=
  Automaton.recognize_enter rfl rfl next_doubleUnderscore next_builtin

/-- After one underscore a word goes on, unless a second one makes it a builtin. -/
theorem recognize_underscore :
    automaton.recognize .underscore text = some kind ↔
      (kind = .mark .identifier ∧ (∀ character ∈ text, isWordCharacter character) ∧
        ¬ ['_'] <+: text) ∨
      ∃ rest, text = '_' :: rest ∧ kind = .builtin ∧ rest ≠ [] ∧
        ∀ character ∈ rest, isWordCharacter character := by
  cases text with
  | nil =>
    change some (TokenKind.mark .identifier) = some kind ↔ _
    rw [Option.some_inj, eq_comm]
    simp
  | cons first rest =>
    rw [Automaton.recognize_cons, next_underscore, List.forall_mem_cons, List.cons_prefix_cons,
      and_iff_left (List.nil_prefix)]
    split
    · rename_i isUnderscore
      subst isUnderscore
      rw [Option.bind_some, recognize_doubleUnderscore]
      simp
    · rename_i other
      split
      · rename_i goesOn
        rw [Option.bind_some, recognize_word]
        simp [goesOn, Ne.symm other, other]
      · rename_i stops
        simp [stops, other]

/-! ### Numbers and colours -/

theorem next_float (character : Char) :
    automaton.next .float character = if Text.isDigit character then some .float else none := by
  rw [next_eq_firstExit]
  rfl

theorem next_point (character : Char) :
    automaton.next .point character = if Text.isDigit character then some .float else none := by
  rw [next_eq_firstExit]
  rfl

theorem next_integer (character : Char) :
    automaton.next .integer character =
      if Text.isDigit character then some .integer
      else if character = '.' then some .point else none := by
  rw [next_eq_firstExit]
  change firstExit character [(.digit, .integer), (.point, .point)] = _
  simp only [firstExit, CharClass.test, beq_iff_eq]

theorem next_hex (count : Nat) (character : Char) :
    automaton.next (.hex count) character =
      if isHexDigit character ∧ count < 6 then some (.hex (count + 1)) else none := by
  rw [next_eq_firstExit]
  change firstExit character ([CharClass.hexDigit].filterMap fun category =>
    (step (.hex count) category).map (category, ·)) = _
  rw [List.filterMap_cons]
  by_cases few : count < 6
  · have stepped : step (.hex count) .hexDigit = some (.hex (count + 1)) := if_pos few
    rw [stepped]
    exact if_congr (and_iff_left few).symm rfl rfl
  · have stepped : step (.hex count) .hexDigit = none := if_neg few
    rw [stepped, if_neg fun both => few both.2]
    rfl

theorem recognize_point :
    automaton.recognize .point text = some kind ↔
      kind = .literal .float ∧ text ≠ [] ∧ ∀ digit ∈ text, Text.isDigit digit :=
  Automaton.recognize_enter rfl rfl next_point next_float

/-- Digits go on as an integer, and a point with more digits behind it makes a float. -/
theorem recognize_integer :
    automaton.recognize .integer text = some kind ↔
      (kind = .literal .int ∧ ∀ digit ∈ text, Text.isDigit digit) ∨
      ∃ whole fraction, text = whole ++ '.' :: fraction ∧ kind = .literal .float ∧
        (∀ digit ∈ whole, Text.isDigit digit) ∧ fraction ≠ [] ∧
        ∀ digit ∈ fraction, Text.isDigit digit := by
  induction text with
  | nil =>
    change some (TokenKind.literal .int) = some kind ↔ _
    rw [Option.some_inj, eq_comm]
    simp
  | cons first rest inductionHypothesis =>
    rw [Automaton.recognize_cons, next_integer, List.forall_mem_cons]
    split
    · rename_i isDigit
      rw [Option.bind_some, inductionHypothesis, and_iff_right isDigit]
      refine or_congr_right ⟨?_, ?_⟩
      · rintro ⟨whole, fraction, rfl, isFloat, decimal, some_left⟩
        exact ⟨first :: whole, fraction, rfl, isFloat,
          List.forall_mem_cons.mpr ⟨isDigit, decimal⟩, some_left⟩
      · rintro ⟨whole, fraction, same, isFloat, decimal, some_left⟩
        cases whole with
        | nil =>
          cases same
          cases isDigit
        | cons other whole =>
          cases same
          exact ⟨whole, fraction, rfl, isFloat, (List.forall_mem_cons.mp decimal).2, some_left⟩
    · rename_i notDigit
      rw [or_iff_right fun both => notDigit both.2.1]
      split
      · rename_i isPoint
        subst isPoint
        rw [Option.bind_some, recognize_point]
        constructor
        · rintro ⟨isFloat, some_left⟩
          exact ⟨[], rest, rfl, isFloat, List.forall_mem_nil _, some_left⟩
        · rintro ⟨whole, fraction, same, isFloat, decimal, some_left⟩
          cases whole with
          | nil =>
            cases same
            exact ⟨isFloat, some_left⟩
          | cons other whole =>
            cases same
            exact absurd (decimal _ List.mem_cons_self) notDigit
      · rename_i notPoint
        refine iff_of_false (Option.some_ne_none kind).symm ?_
        rintro ⟨whole, fraction, same, -, decimal, -⟩
        cases whole with
        | nil =>
          cases same
          exact notPoint rfl
        | cons other whole =>
          cases same
          exact notDigit (decimal _ List.mem_cons_self)

theorem recognize_hex {count : Nat} :
    automaton.recognize (.hex count) text = some kind ↔
      kind = .literal .colour ∧ count + text.length = 6 ∧ ∀ digit ∈ text, isHexDigit digit := by
  induction text generalizing count with
  | nil =>
    change (if count = 6 then some (TokenKind.literal .colour) else none) = some kind ↔ _
    rw [Option.ite_none_right_eq_some, Option.some_inj, eq_comm (b := kind), and_comm]
    simp
  | cons first rest inductionHypothesis =>
    rw [Automaton.recognize_cons, next_hex, List.forall_mem_cons, List.length_cons]
    split
    · rename_i both
      rw [Option.bind_some, inductionHypothesis, and_iff_right both.1, Nat.add_assoc,
        Nat.add_comm 1]
    · rename_i notBoth
      refine iff_of_false (Option.some_ne_none kind).symm ?_
      rintro ⟨-, six, isHex, -⟩
      exact notBoth ⟨isHex, by omega⟩

theorem recognize_hash :
    automaton.recognize .hash text = some kind ↔
      kind = .literal .colour ∧ text.length = 6 ∧ ∀ digit ∈ text, isHexDigit digit := by
  cases text with
  | nil =>
    refine iff_of_false (Option.some_ne_none kind).symm ?_
    rintro ⟨-, empty, -⟩
    cases empty
  | cons first rest =>
    have leaves : automaton.next .hash first =
        if isHexDigit first then some (.hex 1) else none := by
      rw [next_eq_firstExit]
      rfl
    rw [Automaton.recognize_cons, leaves, List.forall_mem_cons, List.length_cons]
    split
    · rename_i isHex
      rw [Option.bind_some, recognize_hex, and_iff_right isHex, Nat.add_comm]
    · rename_i notHex
      exact iff_of_false (Option.some_ne_none kind).symm fun all => notHex all.2.2.1

/-! ### Comments -/

/-- The text ends with the first closing of a block comment in it. -/
def Closes (text : List Char) : Prop :=
  ∃ body, text = body ++ ['*', '/'] ∧ ¬ ['*', '/'] <:+: body

theorem not_closes_nil : ¬ Closes [] := by
  rintro ⟨body, same, -⟩
  exact List.append_ne_nil_of_right_ne_nil body (List.cons_ne_nil _ _) same.symm

/-- A character that does not begin a closing can be left out. -/
theorem closes_cons_iff (notClosing : ¬ ['*', '/'] <+: first :: rest) :
    Closes (first :: rest) ↔ Closes rest := by
  constructor
  · rintro ⟨body, same, unclosed⟩
    cases body with
    | nil => exact absurd (same ▸ List.prefix_rfl) notClosing
    | cons other body =>
      cases same
      exact ⟨body, rfl, fun closed => unclosed (List.infix_cons closed)⟩
  · rintro ⟨body, rfl, unclosed⟩
    refine ⟨first :: body, rfl, fun closed => ?_⟩
    rcases List.infix_cons_iff.mp closed with starts | inside
    · exact notClosing (starts.trans (List.prefix_append (first :: body) ['*', '/']))
    · exact unclosed inside

theorem closes_star_slash_iff : Closes ('*' :: '/' :: rest) ↔ rest = [] := by
  constructor
  · rintro ⟨body, same, unclosed⟩
    match body with
    | [] =>
      cases same
      rfl
    | [_] => cases same
    | _ :: _ :: body =>
      cases same
      exact absurd ⟨[], body, rfl⟩ unclosed
  · rintro rfl
    exact ⟨[], rfl, by decide⟩

theorem next_blockComment (character : Char) :
    automaton.next .blockComment character =
      if character = '*' then some .blockStar else some .blockComment := by
  rw [next_eq_firstExit]
  change firstExit character [(.star, .blockStar), (.notStar, .blockComment)] = _
  simp only [firstExit, CharClass.test]
  grind

theorem next_blockStar (character : Char) :
    automaton.next .blockStar character =
      if character = '*' then some .blockStar
      else if character = '/' then some .blockEnd else some .blockComment := by
  rw [next_eq_firstExit]
  change firstExit character
    [(.star, .blockStar), (.slash, .blockEnd), (.notStar, .blockComment)] = _
  simp only [firstExit, CharClass.test]
  grind

theorem next_slash (character : Char) :
    automaton.next .slash character =
      if character = '*' then some .blockComment
      else if character = '/' then some .lineComment else none := by
  rw [next_eq_firstExit]
  change firstExit character [(.star, .blockComment), (.slash, .lineComment)] = _
  simp only [firstExit, CharClass.test, beq_iff_eq]

theorem recognize_blockEnd :
    automaton.recognize .blockEnd text = some kind ↔ kind = .mark .comment ∧ text = [] := by
  rw [Automaton.recognize_final fun character => by rw [next_eq_firstExit]; rfl]
  change some (TokenKind.mark .comment) = some kind ∧ _ ↔ _
  rw [Option.some_inj, eq_comm]

/-- Inside a block comment the first closing is looked for; behind a star it may be half read. -/
theorem recognize_block :
    (automaton.recognize .blockComment text = some kind ↔ kind = .mark .comment ∧ Closes text) ∧
    (automaton.recognize .blockStar text = some kind ↔
      kind = .mark .comment ∧ Closes ('*' :: text)) := by
  have notClosing {first : Char} {rest : List Char} (notStar : first ≠ '*') :
      ¬ ['*', '/'] <+: first :: rest := by
    rw [List.cons_prefix_cons]
    exact fun both => notStar both.1.symm
  have notClosed {second : Char} {rest : List Char} (notSlash : second ≠ '/') :
      ¬ ['*', '/'] <+: '*' :: second :: rest := by
    rw [List.cons_prefix_cons, List.cons_prefix_cons]
    exact fun all => notSlash all.2.1.symm
  induction text with
  | nil =>
    constructor
    · exact iff_of_false (Option.some_ne_none kind).symm fun both => not_closes_nil both.2
    · rw [closes_cons_iff (by decide)]
      exact iff_of_false (Option.some_ne_none kind).symm fun both => not_closes_nil both.2
  | cons first rest inductionHypothesis =>
    obtain ⟨inComment, behindStar⟩ := inductionHypothesis
    rw [Automaton.recognize_cons, Automaton.recognize_cons, next_blockComment, next_blockStar]
    by_cases isStar : first = '*'
    · subst isStar
      rw [if_pos rfl, if_pos rfl, Option.bind_some, behindStar,
        closes_cons_iff (notClosed (by decide))]
      exact ⟨Iff.rfl, Iff.rfl⟩
    · rw [if_neg isStar, if_neg isStar, Option.bind_some, inComment,
        closes_cons_iff (notClosing isStar)]
      refine ⟨Iff.rfl, ?_⟩
      by_cases isSlash : first = '/'
      · subst isSlash
        rw [if_pos rfl, Option.bind_some, recognize_blockEnd, closes_star_slash_iff]
      · rw [if_neg isSlash, Option.bind_some, inComment, closes_cons_iff (notClosed isSlash),
          closes_cons_iff (notClosing isStar)]

theorem recognize_lineComment :
    automaton.recognize .lineComment text = some kind ↔
      kind = .mark .comment ∧ '\n' ∉ text := by
  have loops (character : Char) : automaton.next .lineComment character =
      if character != '\n' then some .lineComment else none := by
    rw [next_eq_firstExit]
    rfl
  rw [Automaton.recognize_loop rfl loops]
  refine and_congr_right fun _ => ?_
  simp only [bne_iff_ne]
  exact ⟨fun all isIn => all _ isIn rfl, fun notIn _ isIn same => notIn (same ▸ isIn)⟩

theorem recognize_slash :
    automaton.recognize .slash text = some kind ↔
      (kind = .mark .slash ∧ text = []) ∨
      (∃ body, text = '/' :: body ∧ kind = .mark .comment ∧ '\n' ∉ body) ∨
      ∃ body, text = '*' :: body ∧ kind = .mark .comment ∧ Closes body := by
  cases text with
  | nil =>
    change some (TokenKind.mark .slash) = some kind ↔ _
    rw [Option.some_inj, eq_comm]
    simp
  | cons first rest =>
    rw [Automaton.recognize_cons, next_slash]
    split
    · rename_i isStar
      subst isStar
      rw [Option.bind_some, recognize_block.1]
      simp
    · rename_i notStar
      split
      · rename_i isSlash
        subst isSlash
        rw [Option.bind_some, recognize_lineComment]
        simp
      · rename_i notSlash
        simp [notStar, notSlash]

/-! ### Symbols -/

/-- Every symbol is recognised as what it stands for. -/
theorem recognize_symbol :
    ∀ symbol ∈ symbols, automaton.recognize .start symbol.1.toList = some (.mark symbol.2) := by
  decide

/-- The text is the spelling of what is complete in a state, if anything is. -/
def Spells (spelling : List Char) (state : State) : Prop :=
  ∀ kind ∈ accepts state, ∃ symbol ∈ symbols,
    symbol.1.toList = spelling ∧ TokenKind.mark symbol.2 = kind

instance (spelling : List Char) (state : State) : Decidable (Spells spelling state) :=
  inferInstanceAs (Decidable (∀ kind ∈ accepts state, ∃ symbol ∈ symbols,
    symbol.1.toList = spelling ∧ TokenKind.mark symbol.2 = kind))

theorem Spells.lexeme {spelling : List Char} (spells : Spells spelling state)
    (accepted : accepts state = some kind) : Lexeme kind spelling := by
  obtain ⟨symbol, listed, rfl, rfl⟩ := spells kind accepted
  exact .symbol listed

/-- A state that is never left completes the symbol that led to it. -/
theorem lexeme_of_final (found : automaton.recognize state text = some kind)
    (ends : exits state = []) (spells : Spells [first] state) : Lexeme kind (first :: text) := by
  have stays (character : Char) : automaton.next state character = none := by
    rw [next_eq_firstExit, ends, firstExit]
  obtain ⟨accepted, rfl⟩ := (Automaton.recognize_final stays).mp found
  exact spells.lexeme accepted

/-- A symbol of one character may be the beginning of a symbol of two. -/
theorem lexeme_of_pair {last : State} {category : CharClass} {second : Char}
    (found : automaton.recognize state text = some kind) (exit : exits state = [(category, last)])
    (only : category.test = (· == second)) (ends : exits last = []) (spells : Spells [first] state)
    (spellsBoth : Spells [first, second] last) : Lexeme kind (first :: text) := by
  have leaves (character : Char) : automaton.next state character =
      if character = second then some last else none := by
    rw [next_eq_firstExit, exit, firstExit, only, firstExit]
    exact if_congr beq_iff_eq rfl rfl
  have stays (character : Char) : automaton.next last character = none := by
    rw [next_eq_firstExit, ends, firstExit]
  rcases (Automaton.recognize_pair leaves stays).mp found with ⟨accepted, rfl⟩ | ⟨accepted, rfl⟩
  · exact spells.lexeme accepted
  · exact spellsBoth.lexeme accepted

/-! ### The first state -/

theorem exits_start :
    exits .start =
      [(.newline, .whitespace), (.space, .whitespace), (.underscore, .underscore),
       (.digit, .integer), (.letter, .word), (.plus, .single .plus), (.minus, .minus),
       (.star, .single .star), (.slash, .slash), (.equals, .assign), (.bang, .bang),
       (.less, .less), (.greater, .greater), (.openParen, .single .openParen),
       (.closeParen, .single .closeParen), (.openCurly, .single .openCurly),
       (.closeCurly, .single .closeCurly), (.openSquare, .single .openSquare),
       (.closeSquare, .single .closeSquare), (.comma, .single .comma),
       (.semicolon, .single .semicolon), (.colon, .single .colon), (.hash, .hash)] := rfl

theorem ne_of_passes {passes : Char → Bool} {other : Char} (does : passes character = true)
    (fails : passes other = false) : character ≠ other := by
  rintro rfl
  rw [does] at fails
  cases fails

theorem isDigit_of_isLetter (letter : isLetter character = true) :
    Text.isDigit character = false := by
  rw [isLetter, decide_eq_true_eq] at letter
  rw [Text.isDigit, decide_eq_false_iff_not]
  rintro ⟨-, most⟩
  rcases letter with ⟨least, -⟩ | ⟨least, -⟩
  · exact absurd (Char.le_trans least most) (by decide)
  · exact absurd (Char.le_trans least most) (by decide)

theorem next_start_of_blank (blank : isBlank character = true) :
    automaton.next .start character = some .whitespace := by
  rw [next_eq_firstExit, exits_start]
  simp only [firstExit, CharClass.test]
  grind [isBlank]

theorem next_start_of_digit (digit : Text.isDigit character = true) :
    automaton.next .start character = some .integer := by
  have differs (other : Char) (fails : Text.isDigit other = false) : character ≠ other :=
    ne_of_passes digit fails
  rw [next_eq_firstExit, exits_start]
  simp [firstExit, CharClass.test, digit, differs '\n' rfl, differs ' ' rfl, differs '\t' rfl,
    differs '\r' rfl, differs '_' rfl]

theorem next_start_of_letter (letter : isLetter character = true) :
    automaton.next .start character = some .word := by
  have differs (other : Char) (fails : isLetter other = false) : character ≠ other :=
    ne_of_passes letter fails
  rw [next_eq_firstExit, exits_start]
  simp [firstExit, CharClass.test, letter, isDigit_of_isLetter letter, differs '\n' rfl,
    differs ' ' rfl, differs '\t' rfl, differs '\r' rfl, differs '_' rfl]

theorem isBlank_of_passes
    (passes : CharClass.newline.test first = true ∨ CharClass.space.test first = true) :
    isBlank first = true := by
  simp only [CharClass.test] at passes
  grind [isBlank]

theorem lexeme_of_underscore (found : automaton.recognize .underscore rest = some kind) :
    Lexeme kind ('_' :: rest) := by
  rcases recognize_underscore.mp found with ⟨rfl, goesOn, one⟩ | ⟨rest, rfl, rfl, more, goesOn⟩
  · refine .identifier (.inr rfl) goesOn fun two => one ?_
    exact (List.cons_prefix_cons.mp two).2
  · exact .builtin more goesOn

theorem lexeme_of_integer (digit : Text.isDigit first = true)
    (found : automaton.recognize .integer rest = some kind) : Lexeme kind (first :: rest) := by
  rcases recognize_integer.mp found with
    ⟨rfl, decimal⟩ | ⟨whole, fraction, rfl, rfl, decimal, more, decimalFraction⟩
  · exact .integer (List.cons_ne_nil _ _) (List.forall_mem_cons.mpr ⟨digit, decimal⟩)
  · exact Lexeme.float (List.cons_ne_nil first whole) (List.forall_mem_cons.mpr ⟨digit, decimal⟩)
      more decimalFraction

theorem lexeme_of_slash (found : automaton.recognize .slash rest = some kind) :
    Lexeme kind ('/' :: rest) := by
  rcases recognize_slash.mp found with
    ⟨rfl, rfl⟩ | ⟨body, rfl, rfl, oneLine⟩ | ⟨_, rfl, rfl, body, rfl, unclosed⟩
  · have spells : Spells ['/'] .slash := by decide
    exact spells.lexeme rfl
  · exact .lineComment oneLine
  · exact .blockComment unclosed

/-- What is recognised is a lexeme. -/
theorem lexeme_of_recognize (found : automaton.recognize .start text = some kind) :
    Lexeme kind text := by
  cases text with
  | nil => cases found
  | cons first rest =>
    rw [Automaton.recognize_cons, Option.bind_eq_some_iff] at found
    obtain ⟨target, transition, found⟩ := found
    obtain ⟨category, stepped, passes⟩ := exists_step_of_next transition
    cases category with
    | newline =>
      cases stepped
      obtain ⟨rfl, blank⟩ := recognize_whitespace.mp found
      exact .whitespace (List.cons_ne_nil _ _)
        (List.forall_mem_cons.mpr ⟨isBlank_of_passes (.inl passes), blank⟩)
    | space =>
      cases stepped
      obtain ⟨rfl, blank⟩ := recognize_whitespace.mp found
      exact .whitespace (List.cons_ne_nil _ _)
        (List.forall_mem_cons.mpr ⟨isBlank_of_passes (.inr passes), blank⟩)
    | underscore =>
      cases stepped
      obtain rfl : first = '_' := beq_iff_eq.mp passes
      exact lexeme_of_underscore found
    | digit =>
      cases stepped
      exact lexeme_of_integer passes found
    | letter =>
      cases stepped
      obtain ⟨rfl, goesOn⟩ := recognize_word.mp found
      refine .identifier (.inl passes) goesOn fun two => ?_
      obtain rfl : '_' = first := (List.cons_prefix_cons.mp two).1
      cases passes
    | plus | star | openParen | closeParen | openCurly | closeCurly | openSquare | closeSquare
    | comma | semicolon | colon =>
      cases stepped
      obtain rfl := beq_iff_eq.mp passes
      exact lexeme_of_final found rfl (by decide)
    | minus | equals | bang | less | greater =>
      cases stepped
      obtain rfl := beq_iff_eq.mp passes
      exact lexeme_of_pair found rfl rfl rfl (by decide) (by decide)
    | slash =>
      cases stepped
      obtain rfl := beq_iff_eq.mp passes
      exact lexeme_of_slash found
    | hash =>
      cases stepped
      obtain rfl := beq_iff_eq.mp passes
      obtain ⟨rfl, six, hexadecimal⟩ := recognize_hash.mp found
      exact .colour six hexadecimal
    | hexDigit | point | notNewline | notStar => cases stepped

/-- Every lexeme is recognised. -/
theorem Lexeme.recognize (lexeme : Lexeme kind text) :
    automaton.recognize .start text = some kind := by
  cases lexeme with
  | whitespace nonempty blank =>
    obtain ⟨first, rest, rfl⟩ := List.exists_cons_of_ne_nil nonempty
    rw [List.forall_mem_cons] at blank
    rw [Automaton.recognize_cons, next_start_of_blank blank.1, Option.bind_some]
    exact recognize_whitespace.mpr ⟨rfl, blank.2⟩
  | @identifier first rest starts goesOn notBuiltin =>
    rw [Automaton.recognize_cons]
    rcases starts with letter | rfl
    · rw [next_start_of_letter letter, Option.bind_some]
      exact recognize_word.mpr ⟨rfl, goesOn⟩
    · refine recognize_underscore.mpr (.inl ⟨rfl, goesOn, fun one => notBuiltin ?_⟩)
      exact List.cons_prefix_cons.mpr ⟨rfl, one⟩
  | @builtin rest nonempty goesOn =>
    exact recognize_underscore.mpr (.inr ⟨rest, rfl, rfl, nonempty, goesOn⟩)
  | integer nonempty decimal =>
    obtain ⟨first, rest, rfl⟩ := List.exists_cons_of_ne_nil nonempty
    rw [List.forall_mem_cons] at decimal
    rw [Automaton.recognize_cons, next_start_of_digit decimal.1, Option.bind_some]
    exact recognize_integer.mpr (.inl ⟨rfl, decimal.2⟩)
  | @float whole fraction nonemptyWhole decimalWhole nonemptyFraction decimalFraction =>
    obtain ⟨first, rest, rfl⟩ := List.exists_cons_of_ne_nil nonemptyWhole
    rw [List.forall_mem_cons] at decimalWhole
    rw [List.cons_append, Automaton.recognize_cons, next_start_of_digit decimalWhole.1,
      Option.bind_some]
    exact recognize_integer.mpr (.inr ⟨rest, fraction, rfl, rfl, decimalWhole.2,
      nonemptyFraction, decimalFraction⟩)
  | colour six hexadecimal => exact recognize_hash.mpr ⟨rfl, six, hexadecimal⟩
  | @lineComment body oneLine =>
    exact recognize_slash.mpr (.inr (.inl ⟨body, rfl, rfl, oneLine⟩))
  | @blockComment body unclosed =>
    exact recognize_slash.mpr (.inr (.inr ⟨_, rfl, rfl, body, rfl, unclosed⟩))
  | symbol listed => exact recognize_symbol _ listed

theorem recognize_start_iff : automaton.recognize .start text = some kind ↔ Lexeme kind text :=
  ⟨lexeme_of_recognize, Lexeme.recognize⟩

/-- A text is a lexeme of one kind at most. -/
theorem Lexeme.kind_unique {other : TokenKind} (lexeme : Lexeme kind text)
    (alike : Lexeme other text) : other = kind := by
  have same := alike.recognize
  rw [lexeme.recognize] at same
  exact (Option.some.inj same).symm

theorem Lexeme.ne_nil (lexeme : Lexeme kind text) : text ≠ [] := by
  rintro rfl
  have accepted := lexeme.recognize
  cases accepted

/-- The recognised prefixes are those that are lexemes. -/
theorem mem_recognized_iff :
    length ∈ automaton.recognized .start text ↔
      length ≤ text.length ∧ ∃ kind, Lexeme kind (text.take length) := by
  refine and_congr_right fun _ => ?_
  rw [Option.isSome_iff_exists]
  exact exists_congr fun kind => recognize_start_iff

theorem lexeme_of_longestMatch (accepted : automaton.longestMatch text = .accepted kind length) :
    Lexeme kind (text.take length) :=
  recognize_start_iff.mp (Automaton.longestMatch_eq_accepted_iff.mp accepted).2

end Lexicon

open Lexicon (Lexeme)

/-- The longest match accepts the greatest prefix that is a lexeme, as the one kind of lexeme
that it is, and it rejects the texts of which no prefix is one. -/
theorem maximal_munch (text : List Char) :
    (∀ (kind : TokenKind) (length : Nat),
      Lexicon.automaton.longestMatch text = .accepted kind length ↔
        IsGreatest {size | size ≤ text.length ∧ ∃ other, Lexeme other (text.take size)} length ∧
          ∀ other, Lexeme other (text.take length) ↔ other = kind) ∧
    ((∃ length, Lexicon.automaton.longestMatch text = .rejected length) ↔
      ¬ ∃ size kind, 0 < size ∧ size ≤ text.length ∧ Lexeme kind (text.take size)) := by
  have lengths : Lexicon.automaton.recognized Lexicon.automaton.start text =
      {size | size ≤ text.length ∧ ∃ other, Lexeme other (text.take size)} :=
    Set.ext fun _ => Lexicon.mem_recognized_iff
  constructor
  · intro kind length
    rw [Automaton.longestMatch_eq_accepted_iff, lengths]
    refine and_congr_right fun greatest => ?_
    rw [show Lexicon.automaton.start = .start from rfl, Lexicon.recognize_start_iff]
    constructor
    · exact fun lexeme other => ⟨lexeme.kind_unique, fun same => same ▸ lexeme⟩
    · exact fun only => (only kind).mpr rfl
  · rw [Automaton.exists_longestMatch_eq_rejected_iff, lengths, Set.eq_empty_iff_forall_notMem]
    constructor
    · rintro barren ⟨size, kind, -, within, lexeme⟩
      exact barren size ⟨within, kind, lexeme⟩
    · rintro barren size ⟨within, kind, lexeme⟩
      refine barren ⟨size, kind, Nat.pos_of_ne_zero ?_, within, lexeme⟩
      rintro rfl
      exact lexeme.ne_nil List.take_zero

example : Lexicon.automaton.longestMatch "/***/ */".toList = .accepted (.mark .comment) 5 := by
  decide

end PadLang
