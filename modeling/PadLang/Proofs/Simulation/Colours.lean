/-
This file asks which words the code of a colour leaves on the stack.

A colour has 24 bits. Sums and differences of colours are taken modulo the number of colours, so
they stay in that range if their operands do. The negation of a colour is just subtracted from
zero: it leaves a negative word unless the colour is black. Nothing else can leave the range. An
expression may ask the outside for the colour of a point or for a random number while it is
evaluated. It is evaluated to its end wherever no divisor is zero and no index out of bounds.
-/

import PadLang.Proofs.Simulation.Expr

namespace PadLang

variable {place : ScopeTree.Resolved} {operator : BinaryOperator} {code : Code} {note : Note}
  {expr : Expr} {type : Ty}

namespace Machine

variable {instruction : Instruction} {first second : Code}

/-! ### Asking the outside -/

/-- What the outside answers to a program. Answers may depend on how often it was asked before. -/
structure Outside where
  /-- The colour of a point. -/
  read : Nat → Int → Int → Int
  /-- A random number, given the limit. -/
  draw : Nat → Int → Int

/-- The data of the machine, and how often the outside was asked. -/
structure Asking where
  asked : Nat
  data : Data

section Proceeding

variable (ops : WordOps) (pad : Pad) (outside : Outside)

/-- What an instruction does if the outside answers, unless it depends on the counter. -/
def ask (state : Asking) : Instruction → Option Asking
  | .op .read => do
    let (x, data) ← state.data.popWord?
    let (y, data) ← data.popWord?
    return { asked := state.asked + 1, data := data.push [outside.read state.asked x y] }
  | .op .irnd => do
    let (limit, data) ← state.data.popWord?
    return { asked := state.asked + 1, data := data.push [outside.draw state.asked limit] }
  | instruction => do
    return { state with data := ← act ops pad state.data instruction }

/-- The state after code without jumps. -/
def proceed (code : Code) (state : Asking) : Option Asking :=
  code.foldlM (ask ops pad outside) state

/-- An instruction divides by zero, or it takes an element that the array at its place does not
have. -/
def Trips (places : String → Option ScopeTree.Resolved) (data : Data) : Instruction → Prop
  | .op .div | .op .mod => data.stack[1]? = some 0
  | .pushIndexed slot => ∃ name place index, places name = some place ∧ place.slot = slot ∧
      data.stack.head? = some index ∧ ¬ (0 ≤ index ∧ index < place.type.size)
  | _ => False

/-- No instruction of some code trips when the machine comes to it. -/
def Safe (places : String → Option ScopeTree.Resolved) : Code → Asking → Prop
  | [], _ => True
  | instruction :: rest, state => ¬ Trips places state.data instruction ∧
      ∀ next, ask ops pad outside state instruction = some next → Safe places rest next

end Proceeding

variable {ops : WordOps} {pad : Pad} {outside : Outside}
  {places : String → Option ScopeTree.Resolved} {frames : List Frame}

/-- Where the outside is not asked, an instruction does what it always does. -/
theorem ask_eq_of_act {before after : Data} (asked : Nat)
    (acts : act ops pad before instruction = some after) :
    ask ops pad outside ⟨asked, before⟩ instruction = some ⟨asked, after⟩ := by
  unfold ask
  split
  · cases acts
  · cases acts
  · rw [acts]
    rfl

theorem proceed_append (first second : Code) (state : Asking) :
    proceed ops pad outside (first ++ second) state =
      (proceed ops pad outside first state).bind (proceed ops pad outside second) :=
  List.foldlM_append

theorem proceed_singleton (instruction : Instruction) (state : Asking) :
    proceed ops pad outside [instruction] state = ask ops pad outside state instruction := by
  rw [proceed, List.foldlM_cons]
  cases ask ops pad outside state instruction <;> rfl

variable {state : Asking}

theorem Safe.cons {rest : Code} {next : Asking}
    (acts : ask ops pad outside state instruction = some next)
    (steady : ¬ Trips places state.data instruction)
    (safe : Safe ops pad outside places rest next) :
    Safe ops pad outside places (instruction :: rest) state := by
  refine ⟨steady, fun other same => ?_⟩
  cases acts.symm.trans same
  exact safe

theorem Safe.split (safe : Safe ops pad outside places (first ++ second) state) :
    Safe ops pad outside places first state ∧
      ∀ next, proceed ops pad outside first state = some next →
        Safe ops pad outside places second next := by
  induction first generalizing state with
  | nil =>
    refine ⟨trivial, fun next same => ?_⟩
    cases same
    exact safe
  | cons instruction rest inductionHypothesis =>
    obtain ⟨steady, later⟩ := safe
    refine ⟨⟨steady, fun next acts => (inductionHypothesis (later next acts)).1⟩, ?_⟩
    intro next proceeds
    rw [proceed, List.foldlM_cons] at proceeds
    obtain ⟨between, acts, proceeds⟩ := Option.bind_eq_some_iff.mp proceeds
    exact (inductionHypothesis (later between acts)).2 next proceeds

/-! ### Code that leaves words of a kind -/

/-- Code that does not trip comes to its end. It leaves a word of each of these kinds, the first of
them on top, and all else as it was. -/
def Delivers (ops : WordOps) (pad : Pad) (outside : Outside)
    (places : String → Option ScopeTree.Resolved) (frames : List Frame) (code : Code)
    (kinds : List (Int → Prop)) : Prop :=
  ∀ asked stack output, Safe ops pad outside places code ⟨asked, ⟨stack, frames, output⟩⟩ →
    ∃ words next, List.Forall₂ (fun kind word => kind word) kinds words ∧
      proceed ops pad outside code ⟨asked, ⟨stack, frames, output⟩⟩ =
        some ⟨next, ⟨words ++ stack, frames, output⟩⟩

namespace Delivers

variable {code more : Code} {kinds above rest : List (Int → Prop)} {kind left right : Int → Prop}

theorem append (first : Delivers ops pad outside places frames code kinds)
    (second : Delivers ops pad outside places frames more above) :
    Delivers ops pad outside places frames (code ++ more) (above ++ kinds) := by
  intro asked stack output safe
  obtain ⟨safeFirst, later⟩ := safe.split
  obtain ⟨below, between, areBelow, proceeds⟩ := first asked stack output safeFirst
  obtain ⟨words, next, areWords, goesOn⟩ := second between _ output (later _ proceeds)
  refine ⟨words ++ below, next, List.rel_append areWords areBelow, ?_⟩
  rw [proceed_append, proceeds, List.append_assoc]
  exact goesOn

/-- An instruction makes one word of words that the code before it has left. -/
theorem andThen {taken : List (Int → Prop)} (instruction : Instruction)
    (delivers : Delivers ops pad outside places frames code (taken ++ rest))
    (acts : ∀ words, List.Forall₂ (fun kind word => kind word) taken words →
      ∀ asked stack output, ¬ Trips places ⟨words ++ stack, frames, output⟩ instruction →
        ∃ result next, kind result ∧
          ask ops pad outside ⟨asked, ⟨words ++ stack, frames, output⟩⟩ instruction =
            some ⟨next, ⟨result :: stack, frames, output⟩⟩) :
    Delivers ops pad outside places frames (code ++ [instruction]) (kind :: rest) := by
  intro asked stack output safe
  obtain ⟨safeFirst, later⟩ := safe.split
  obtain ⟨words, between, areWords, proceeds⟩ := delivers asked stack output safeFirst
  obtain ⟨front, back, areFront, areBack, rfl⟩ :
      ∃ front back, List.Forall₂ (fun kind word => kind word) taken front ∧
        List.Forall₂ (fun (kind : Int → Prop) word => kind word) rest back ∧
        words = front ++ back := by
    refine ⟨words.take taken.length, words.drop taken.length, ?_, ?_,
      (List.take_append_drop _ _).symm⟩
    · simpa using List.forall₂_take taken.length areWords
    · simpa using List.forall₂_drop taken.length areWords
  have reached := later _ proceeds
  rw [List.append_assoc] at proceeds reached
  obtain ⟨result, next, isKind, acted⟩ := acts front areFront between _ output reached.1
  refine ⟨result :: back, next, .cons isKind areBack, ?_⟩
  rw [proceed_append, proceeds, Option.bind_some, proceed_singleton, acted, List.cons_append]

/-- An instruction replaces the word on top. -/
theorem replace (instruction : Instruction)
    (delivers : Delivers ops pad outside places frames code (left :: rest))
    (acts : ∀ word, left word → ∀ asked stack output,
      ¬ Trips places ⟨word :: stack, frames, output⟩ instruction →
        ∃ result next, kind result ∧
          ask ops pad outside ⟨asked, ⟨word :: stack, frames, output⟩⟩ instruction =
            some ⟨next, ⟨result :: stack, frames, output⟩⟩) :
    Delivers ops pad outside places frames (code ++ [instruction]) (kind :: rest) := by
  have operand : Delivers ops pad outside places frames code ([left] ++ rest) := delivers
  refine operand.andThen instruction fun words areWords => ?_
  obtain _ | ⟨isWord, ⟨⟩⟩ := areWords
  exact acts _ isWord

/-- An instruction replaces the two words on top. -/
theorem replaceTwo (instruction : Instruction)
    (delivers : Delivers ops pad outside places frames code (left :: right :: rest))
    (acts : ∀ first second, left first → right second → ∀ asked stack output,
      ¬ Trips places ⟨first :: second :: stack, frames, output⟩ instruction →
        ∃ result next, kind result ∧
          ask ops pad outside ⟨asked, ⟨first :: second :: stack, frames, output⟩⟩ instruction =
            some ⟨next, ⟨result :: stack, frames, output⟩⟩) :
    Delivers ops pad outside places frames (code ++ [instruction]) (kind :: rest) := by
  have operands : Delivers ops pad outside places frames code ([left, right] ++ rest) := delivers
  refine operands.andThen instruction fun words areWords => ?_
  obtain _ | ⟨isFirst, _ | ⟨isSecond, ⟨⟩⟩⟩ := areWords
  exact acts _ _ isFirst isSecond

/-- An operation replaces its operands by its result. -/
theorem operation (opcode : Opcode)
    (delivers : Delivers ops pad outside places frames code (left :: right :: rest))
    (acts : ∀ first second, left first → right second → ∀ stack output,
      ¬ Trips places ⟨first :: second :: stack, frames, output⟩ (.op opcode) →
        ∃ word, kind word ∧ actOpcode ops pad ⟨first :: second :: stack, frames, output⟩ opcode =
          some ⟨word :: stack, frames, output⟩) :
    Delivers ops pad outside places frames (code ++ [.op opcode]) (kind :: rest) := by
  refine delivers.replaceTwo (.op opcode) fun first second isFirst isSecond asked stack output => ?_
  intro steady
  obtain ⟨word, isKind, acted⟩ := acts first second isFirst isSecond stack output steady
  exact ⟨word, asked, isKind, ask_eq_of_act asked acted⟩

theorem mono (delivers : Delivers ops pad outside places frames code [left])
    (implies : ∀ word, left word → kind word) :
    Delivers ops pad outside places frames code [kind] := by
  intro asked stack output safe
  obtain ⟨words, next, areWords, proceeds⟩ := delivers asked stack output safe
  obtain _ | ⟨isWord, ⟨⟩⟩ := areWords
  exact ⟨_, next, .cons (implies _ isWord) .nil, proceeds⟩

/-- An instruction that always pushes the same word. -/
theorem push {word : Int} (instruction : Instruction) (isKind : kind word)
    (acts : ∀ stack output, act ops pad ⟨stack, frames, output⟩ instruction =
      some ⟨word :: stack, frames, output⟩) :
    Delivers ops pad outside places frames [instruction] [kind] := by
  intro asked stack output _
  refine ⟨[word], asked, .cons isKind .nil, ?_⟩
  rw [proceed_singleton]
  exact ask_eq_of_act asked (acts stack output)

end Delivers

theorem exists_actOpcode_opcodeOf {first second : Int} {stack : List Int} {output : List Event}
    (steady : ¬ Trips places ⟨first :: second :: stack, frames, output⟩
      (.op (Code.opcodeOf operator))) :
    ∃ word, actOpcode ops pad ⟨first :: second :: stack, frames, output⟩
      (Code.opcodeOf operator) = some ⟨word :: stack, frames, output⟩ := by
  cases operator with
  | divide =>
    have nonzero : second ≠ 0 := fun isZero => steady (congrArg some isZero)
    exact ⟨_, actOpcode_div nonzero stack output⟩
  | _ => exact ⟨_, rfl⟩

/-- A word that an operation makes of two words of these kinds. Of two colours it is the sum or the
difference modulo the number of colours. -/
def Combined (operator : BinaryOperator) (type : Ty) (left right : Int → Prop) (word : Int) :
    Prop :=
  ∃ one other, left one ∧ right other ∧
    (type = .colour → operator = .add → word = (one + other).tmod colourCount) ∧
    (type = .colour → operator = .subtract →
      word = (one - other + colourCount).tmod colourCount)

theorem Delivers.combine {left right : Int → Prop}
    (delivers : Delivers ops pad outside places frames first [left])
    (deliversSecond : Delivers ops pad outside places frames second [right])
    (operator : BinaryOperator) (type : Ty) :
    Delivers ops pad outside places frames (Code.combine operator type first second)
      [Combined operator type left right] := by
  have both := deliversSecond.append delivers
  have modulus : Delivers ops pad outside places frames [Code.pushInt Code.colourModulus]
      [(· = colourCount)] := .push _ rfl fun _ _ => rfl
  have ofModulus {total : Int} (stack : List Int) (output : List Event) :
      actOpcode ops pad ⟨total :: colourCount :: stack, frames, output⟩ .mod =
        some ⟨total.tmod colourCount :: stack, frames, output⟩ :=
    actOpcode_mod (by decide) stack output
  fun_cases Code.combine operator type first second
  · have sum : Delivers ops pad outside places frames _
        [fun total => ∃ one other, left one ∧ right other ∧ total = one + other,
          (· = colourCount)] :=
      (modulus.append both).operation .add fun one other isOne isOther _ _ _ =>
        ⟨one + other, ⟨one, other, isOne, isOther, rfl⟩, rfl⟩
    have remainder : Delivers ops pad outside places frames _ [Combined .add .colour left right] :=
      sum.operation .mod fun total count isTotal isCount stack output _ => by
        obtain ⟨one, other, isOne, isOther, rfl⟩ := isTotal
        subst isCount
        exact ⟨_, ⟨one, other, isOne, isOther, fun _ _ => rfl, by rintro _ ⟨⟩⟩,
          ofModulus stack output⟩
    simpa using remainder
  · have difference : Delivers ops pad outside places frames _
        [fun total => ∃ one other, left one ∧ right other ∧ total = one - other,
          (· = colourCount), (· = colourCount)] :=
      ((modulus.append modulus).append both).operation .sub fun one other isOne isOther _ _ _ =>
        ⟨one - other, ⟨one, other, isOne, isOther, rfl⟩, rfl⟩
    have shifted : Delivers ops pad outside places frames _
        [fun total => ∃ one other, left one ∧ right other ∧ total = one - other + colourCount,
          (· = colourCount)] :=
      difference.operation .add fun total count isTotal isCount _ _ _ => by
        obtain ⟨one, other, isOne, isOther, rfl⟩ := isTotal
        subst isCount
        exact ⟨_, ⟨one, other, isOne, isOther, rfl⟩, rfl⟩
    have remainder : Delivers ops pad outside places frames _
        [Combined .subtract .colour left right] :=
      shifted.operation .mod fun total count isTotal isCount stack output _ => by
        obtain ⟨one, other, isOne, isOther, rfl⟩ := isTotal
        subst isCount
        exact ⟨_, ⟨one, other, isOne, isOther, by rintro _ ⟨⟩, fun _ _ => rfl⟩,
          ofModulus stack output⟩
    simpa using remainder
  · -- both operands are evaluated twice, and need not have the same words again
    have remainder : Delivers ops pad outside places frames _ [fun _ => True, right] :=
      (deliversSecond.append both).operation .mod fun one other _ _ stack output steady =>
        ⟨_, trivial, actOpcode_mod (fun isZero => steady (congrArg some isZero)) stack output⟩
    have multiple : Delivers ops pad outside places frames _ [fun _ => ∃ one, left one, right] :=
      (remainder.append delivers).operation .sub fun one _ isOne _ _ _ _ => ⟨_, ⟨one, isOne⟩, rfl⟩
    have quotient : Delivers ops pad outside places frames _ [Combined .divide .int left right] :=
      multiple.operation .div fun _ other isMultiple isOther stack output steady => by
        obtain ⟨one, isOne⟩ := isMultiple
        exact ⟨_, ⟨one, other, isOne, isOther, by rintro ⟨⟩, by rintro ⟨⟩⟩,
          actOpcode_div (fun isZero => steady (congrArg some isZero)) stack output⟩
    simpa using quotient
  · next notSum notDifference notQuotient =>
    refine both.operation _ fun one other isOne isOther stack output steady => ?_
    obtain ⟨word, acted⟩ := exists_actOpcode_opcodeOf steady
    refine ⟨word, ⟨one, other, isOne, isOther, ?_, ?_⟩, acted⟩
    · rintro rfl rfl
      exact absurd rfl (notSum rfl)
    · rintro rfl rfl
      exact absurd rfl (notDifference rfl)

theorem Delivers.unary {kind : Int → Prop}
    (delivers : Delivers ops pad outside places frames code [kind]) (operator : UnaryOperator) :
    Delivers ops pad outside places frames (code ++ operator.code)
      [fun result => ∃ word, kind word ∧ result = operator.result ops word] := by
  cases operator with
  | not => exact delivers.replace (.op .not) fun word isWord asked _ _ _ =>
      ⟨_, asked, ⟨word, isWord, rfl⟩, rfl⟩
  | negate =>
    have zero : Delivers ops pad outside places frames [Code.pushInt 0] [(· = 0)] :=
      .push _ rfl fun _ _ => rfl
    have negated : Delivers ops pad outside places frames (code ++ [Code.pushInt 0] ++ [.op .sub])
        [fun result => ∃ word, kind word ∧ result = UnaryOperator.result ops .negate word] := by
      refine (delivers.append zero).operation .sub fun first second isZero isSecond _ _ _ => ?_
      subst isZero
      exact ⟨_, ⟨second, isSecond, rfl⟩, rfl⟩
    rw [List.append_assoc] at negated
    exact negated

end Machine

open Machine

/-! ### Colours -/

/-- A word is less than the number of colours away from zero. It is a colour where this holds. -/
structure Shade (tame : Prop) (word : Int) : Prop where
  above : -colourCount < word
  below : word < colourCount
  colour : tame → 0 ≤ word

namespace Shade

variable {tame wild : Prop} {word other : Int}

theorem mono (shade : Shade tame word) (implies : wild → tame) : Shade wild word :=
  ⟨shade.above, shade.below, fun isWild => shade.colour (implies isWild)⟩

theorem of_colour (least : 0 ≤ word) (below : word < colourCount) : Shade tame word :=
  ⟨lt_of_lt_of_le (by decide) least, below, fun _ => least⟩

theorem of_literal (colour : Colour) : Shade tame colour.word := by
  have red := colour.red.toNat_lt
  have green := colour.green.toNat_lt
  have blue := colour.blue.toNat_lt
  refine of_colour ?_ ?_ <;> simp only [Colour.word, colourCount] <;> omega

theorem tmod {total : Int} (least : tame → 0 ≤ total) : Shade tame (total.tmod colourCount) where
  above := Int.lt_tmod_of_pos total (by decide)
  below := Int.tmod_lt_of_pos total (by decide)
  colour isTame := Int.tmod_nonneg _ (least isTame)

theorem add (first : Shade tame word) (second : Shade tame other) :
    Shade tame ((word + other).tmod colourCount) :=
  tmod fun isTame => add_nonneg (first.colour isTame) (second.colour isTame)

theorem sub (first : Shade tame word) (second : Shade tame other) :
    Shade tame ((word - other + colourCount).tmod colourCount) := by
  refine tmod fun isTame => ?_
  have least := first.colour isTame
  have most := second.below
  omega

end Shade

/-- A node that converts nothing, calls nothing and is no floating-point literal. -/
def Expr.isDirect (node : Expr) : Bool :=
  node.note.cast.isNone && match node with
    | .call _ _ _ | .literal _ (.float _) => false
    | _ => true

/-- A node that negates a colour. -/
def Expr.negatesColour : Expr → Bool
  | .unary _ .negate operand => decide (operand.type? = some .colour)
  | _ => false

/-- A type of colours or of arrays of them. -/
def Ty.isOfColours : Ty → Bool
  | .base scalar => decide (scalar = .colour)
  | .array _ element => element.isOfColours

/-- The frames keep a value at a place, and if it is made of colours, they are in their range. -/
def KeepsColours (frames : List Frame) (place : ScopeTree.Resolved) : Prop :=
  ∃ value, Keeps frames place value ∧
    (place.type.isOfColours = true → ∀ word ∈ value.cells, 0 ≤ word ∧ word < colourCount)

variable {ops : WordOps} {pad : Pad} {outside : Outside} {frames : List Frame}

theorem Noted.type_eq {found : Ty} (noted : Noted note found type)
    (unconverted : note.cast.isNone = true) : type = found := by
  have converted := noted.converted
  rw [Typing.converted, Option.isNone_iff_eq_none.mp unconverted] at converted
  exact (Except.ok.inj converted).symm

/-- The operations on colours that give colours again. -/
theorem Typing.operation_of_colours {operand : Ty} (takes : takesOperand operator operand = true)
    (isColour : operationType operator operand = .colour) :
    operand = .colour ∧ (operator = .add ∨ operator = .subtract) := by
  cases operator <;> first
    | cases isColour
      done
    | obtain rfl : operand = .colour := isColour
      first | exact ⟨rfl, .inl rfl⟩ | exact ⟨rfl, .inr rfl⟩ | cases takes

/-! ### Expressions -/

/-- What is said of the word of an expression: if it is a colour by its type, then it is one in
fact, unless a colour is negated somewhere. -/
def Expr.Shaded (expr : Expr) (type : Ty) (word : Int) : Prop :=
  type = .colour → Shade (∀ node ∈ expr.nodes, node.negatesColour = false) word

namespace Expr.Shaded

variable {expr part : Expr} {type : Ty} {word : Int}

theorem of_ne (differs : type ≠ .colour) : expr.Shaded type word :=
  fun isColour => absurd isColour differs

theorem mono (shaded : part.Shaded type word) (among : part.nodes ⊆ expr.nodes) :
    expr.Shaded type word :=
  fun isColour => (shaded isColour).mono fun tame node member => tame node (among member)

end Expr.Shaded

theorem KeepsColours.of_scalar (keeps : KeepsColours frames place)
    (scalar : place.type.isArray = false) (expr : Expr) :
    ∃ word, expr.Shaded place.type word ∧ ∀ stack output,
      act ops pad ⟨stack, frames, output⟩ (.pushSlot place.slot) =
        some ⟨word :: stack, frames, output⟩ := by
  obtain ⟨value, kept, inRange⟩ := keeps
  obtain ⟨word, isWord⟩ := List.length_eq_one_iff.mp
    (kept.fits.length.trans (Ty.size_eq_one (kept.type_eq ▸ scalar)))
  refine ⟨word, fun isColour => ?_, fun stack output => ?_⟩
  · obtain ⟨least, below⟩ := inRange (by rw [isColour]; rfl) word (by rw [isWord]; simp)
    exact .of_colour least below
  · have loads := kept.load stack output
    rw [isWord] at loads
    exact loads

theorem KeepsColours.of_index {element : Ty} (keeps : KeepsColours frames place)
    (isArray : place.type.element? = some element) {index : Int}
    (inBounds : 0 ≤ index ∧ index < place.type.size) (expr : Expr) :
    ∃ word, expr.Shaded element word ∧ ∀ stack output,
      act ops pad ⟨index :: stack, frames, output⟩ (.pushIndexed place.slot) =
        some ⟨word :: stack, frames, output⟩ := by
  obtain ⟨value, kept, inRange⟩ := keeps
  obtain ⟨number, rfl⟩ := Int.eq_ofNat_of_zero_le inBounds.1
  have inside : number < value.cells.length := by
    rw [kept.fits.length, ← kept.type_eq]
    exact Int.ofNat_lt.mp inBounds.2
  refine ⟨value.cells[number], fun isColour => ?_,
    kept.loadAt (List.getElem?_eq_getElem inside)⟩
  have ofColours : place.type.isOfColours = true := by
    cases isType : place.type with
    | base _ =>
      rw [isType] at isArray
      cases isArray
    | array _ _ =>
      rw [isType] at isArray
      cases isArray
      rw [isColour]
      rfl
  obtain ⟨least, below⟩ := inRange ofColours _ (List.getElem_mem inside)
  exact .of_colour least below

/-- The code of an expression that converts and calls nothing is carried out to its end, and
leaves a word that is a colour if it should be one and nothing negates a colour. -/
theorem Lowers.delivers {places : String → Option ScopeTree.Resolved} {functions : Functions}
    (lowers : Lowers places functions expr type code)
    (reads : ∀ asked x y, 0 ≤ outside.read asked x y ∧ outside.read asked x y < colourCount)
    (good : ∀ node ∈ expr.nodes, node.isDirect = true ∧
      ∀ name ∈ node.name?, ∀ place ∈ places name, KeepsColours frames place)
    (scalar : type.isArray = false) :
    Delivers ops pad outside places frames code [expr.Shaded type] := by
  -- without conversions, a node has the type that is found for it
  have unconverted {note : Note} {found type : Ty} (noted : Noted note found type)
      {node : Expr} (isNote : node.note = note) (direct : node.isDirect = true) : type = found :=
    noted.type_eq (isNote ▸ (Bool.and_eq_true_iff.mp direct).1)
  induction lowers with
  | @literal note value type noted =>
    rw [Expr.nodes, List.forall_mem_singleton] at good
    obtain rfl := unconverted noted rfl good.1
    cases value with
    | float _ =>
      rw [Expr.isDirect, Bool.and_false] at good
      cases good.1
    | colour value => exact .push _ (fun _ => .of_literal value) fun _ _ => rfl
    | int _ | bool _ => exact .push _ (.of_ne (by rintro ⟨⟩)) fun _ _ => rfl
  | @array note parts element type nonempty isScalar _ same noted each =>
    rw [Expr.nodes, List.forall_mem_cons] at good
    obtain rfl := unconverted noted rfl good.1.1
    cases scalar
  | @side note which type noted =>
    rw [Expr.nodes, List.forall_mem_singleton] at good
    obtain rfl := unconverted noted rfl good.1
    cases which <;> exact .push _ (.of_ne (by rintro ⟨⟩)) fun _ _ => rfl
  | @read note x y type codeX codeY _ _ noted first second =>
    rw [Expr.nodes, List.forall_mem_cons, List.forall_mem_append] at good
    have both := (second good.2.2 rfl).append (first good.2.1 rfl)
    refine both.replaceTwo (.op .read) fun x y _ _ asked stack output _ => ?_
    obtain ⟨least, below⟩ := reads asked x y
    exact ⟨_, asked + 1, fun _ => .of_colour least below, rfl⟩
  | @randomInt note limit type code _ noted inside =>
    rw [Expr.nodes, List.forall_mem_cons] at good
    obtain rfl := unconverted noted rfl good.1.1
    exact (inside good.2 rfl).replace (.op .irnd) fun limit _ asked stack output _ =>
      ⟨_, asked + 1, .of_ne (by rintro ⟨⟩), rfl⟩
  | @var note name place type placed noted =>
    rw [Expr.nodes, List.forall_mem_singleton] at good
    obtain rfl := unconverted noted rfl good.1
    obtain ⟨word, isShade, acts⟩ := (good.2 name rfl place placed).of_scalar scalar (.var note name)
    have isCode : Lexical.readVariable place = [.pushSlot place.slot] := by
      unfold Lexical.readVariable
      cases isType : place.type with
      | base _ => rfl
      | array _ _ =>
        rw [isType] at scalar
        cases scalar
    rw [isCode]
    exact .push _ isShade acts
  | @index note name offset place element type code placed isArray _ noted inside =>
    rw [Expr.nodes, List.forall_mem_cons] at good
    obtain rfl := unconverted noted rfl good.1.1
    have keeps := good.1.2 name.value rfl place placed
    refine (inside good.2 rfl).replace (.pushIndexed place.slot) ?_
    intro index _ asked stack output steady
    have inBounds : 0 ≤ index ∧ index < place.type.size := by
      by_contra outOfBounds
      exact steady ⟨name.value, place, index, placed, rfl, rfl, outOfBounds⟩
    obtain ⟨word, isShade, acts⟩ := keeps.of_index isArray inBounds (.index note name offset)
    exact ⟨word, asked, isShade, ask_eq_of_act asked (acts stack output)⟩
  | call =>
    rw [Expr.nodes, List.forall_mem_cons, Expr.isDirect, Bool.and_false] at good
    cases good.1.1
  | @group note inner found type code _ noted inside =>
    rw [Expr.nodes, List.forall_mem_cons] at good
    obtain rfl := unconverted noted rfl good.1.1
    exact (inside good.2 scalar).mono fun word isShade => isShade.mono (List.subset_cons_self _ _)
  | @binary note left operator right operand type codeLeft codeRight takes _ _ noted first second =>
    rw [Expr.nodes, List.forall_mem_cons, List.forall_mem_append] at good
    obtain rfl := unconverted noted rfl good.1.1
    have isScalar := Typing.isArray_eq_false_of_takesOperand takes
    refine ((first good.2.1 isScalar).combine (second good.2.2 isScalar) operator operand).mono ?_
    rintro word ⟨one, other, isOne, isOther, isSum, isDifference⟩ isColour
    obtain ⟨rfl, isOperator⟩ := Typing.operation_of_colours takes isColour
    have shadeOne : (Expr.binary note left operator right).Shaded .colour one :=
      isOne.mono fun node member => List.mem_cons_of_mem _ (List.mem_append_left _ member)
    have shadeOther : (Expr.binary note left operator right).Shaded .colour other :=
      isOther.mono fun node member => List.mem_cons_of_mem _ (List.mem_append_right _ member)
    obtain rfl | rfl := isOperator
    · rw [isSum rfl rfl]
      exact (shadeOne rfl).add (shadeOther rfl)
    · rw [isDifference rfl rfl]
      exact (shadeOne rfl).sub (shadeOther rfl)
  | @unary note operator operand found type code takes lowers noted inside =>
    rw [Expr.nodes, List.forall_mem_cons] at good
    obtain rfl := unconverted noted rfl good.1.1
    refine ((inside good.2 scalar).unary operator).mono ?_
    rintro result ⟨word, isWord, rfl⟩ isColour
    subst isColour
    cases operator with
    | not => cases takes
    | negate =>
      have shade := isWord rfl
      have above := shade.above
      have below := shade.below
      refine ⟨?_, ?_, fun tame => ?_⟩
      · rw [UnaryOperator.result]
        omega
      · rw [UnaryOperator.result]
        omega
      · have negates : decide (operand.type? = some .colour) = true := by
          rw [lowers.type?_eq]
          rfl
        cases negates.symm.trans (tame _ List.mem_cons_self)

/-- The checker takes the negation of a colour for a colour, and its code subtracts the colour from
zero. -/
theorem negation_lowers {emitting checking : ScopeTree} {scope : ScopeId} {typed : Expr}
    (unconverted : note.cast = none)
    (checked : Typing.expression checking scope expr = .ok (typed, .colour))
    (emitted : Code.expression emitting scope typed = .ok code) :
    ∃ negated, Typing.expression checking scope (.unary note .negate expr) =
        .ok (negated, .colour) ∧
      Code.expression emitting scope negated = .ok (code ++ UnaryOperator.negate.code) := by
  refine ⟨.unary { note with type := some .colour } .negate typed, ?_, ?_⟩
  · obtain ⟨position, cast, type⟩ := note
    cases unconverted
    rw [Typing.expression, checked]
    rfl
  · rw [Code.expression, emitted]
    rfl

/-- Code of an expression that is a colour for the checker, converts and calls nothing and has no
floating-point literal in it. Suppose that all colours in its variables are in their range, and
so are all that are read from the pad, that no index is out of bounds and no divisor zero. Then
the code comes to its end and leaves one word. It is a colour in its range unless a colour is
negated in the expression, and even then it is less than the number of colours away from zero.
The negation of the expression is a colour for the checker as well, and leaves the negative of the
word. -/
theorem colours_in_range_unless_negated {emitting checking : ScopeTree} {scope : ScopeId}
    {expr typed : Expr} {code : Code} {asked : Nat} {stack : List Int} {output : List Event}
    (checked : Typing.expression checking scope expr = .ok (typed, .colour))
    (emitted : Code.expression emitting scope typed = .ok code)
    (follows : Code.Follows emitting checking scope typed.names)
    (kept : ∀ name ∈ typed.names, ∀ place ∈ emitting.resolve? scope name,
      KeepsColours frames place)
    (direct : ∀ node ∈ typed.nodes, node.isDirect = true)
    (reads : ∀ asked x y, 0 ≤ outside.read asked x y ∧ outside.read asked x y < colourCount)
    (safe : Safe ops pad outside (emitting.resolve? scope) code ⟨asked, ⟨stack, frames, output⟩⟩) :
    ∃ word next, proceed ops pad outside code ⟨asked, ⟨stack, frames, output⟩⟩ =
        some ⟨next, ⟨word :: stack, frames, output⟩⟩ ∧
      -colourCount < word ∧ word < colourCount ∧
      ((∀ node ∈ typed.nodes, node.negatesColour = false) → 0 ≤ word) ∧
      ∀ note : Note, note.cast = none → ∃ negated negation,
        Typing.expression checking scope (.unary note .negate expr) = .ok (negated, .colour) ∧
        Code.expression emitting scope negated = .ok negation ∧
        proceed ops pad outside negation ⟨asked, ⟨stack, frames, output⟩⟩ =
          some ⟨next, ⟨-word :: stack, frames, output⟩⟩ := by
  have lowers := Code.expression_lowers follows checked emitted
  have delivers : Delivers ops pad outside (emitting.resolve? scope) frames code
      [typed.Shaded .colour] := lowers.delivers reads
    (fun node isNode => ⟨direct node isNode, Expr.forall_name? kept node isNode⟩) rfl
  obtain ⟨words, next, areWords, proceeds⟩ := delivers asked stack output safe
  obtain _ | ⟨isWord, ⟨⟩⟩ := areWords
  have shade := isWord rfl
  refine ⟨_, next, proceeds, shade.above, shade.below, shade.colour, fun note unconverted => ?_⟩
  obtain ⟨negated, isNegated, isNegation⟩ := negation_lowers unconverted checked emitted
  refine ⟨negated, _, isNegated, isNegation, ?_⟩
  rw [proceed_append, proceeds, ← zero_sub]
  rfl

/-- A colour from the pad and one from an array, as the checker leaves them:
`__read __random_int 9, 6 / 2 - p[3 / 2]`. -/
def mixedColours : Expr :=
  let note (type : Ty) : Note := { position := {}, type := some type }
  let number (value : Int) : Expr := .literal (note .int) (.int value)
  let quotient (left right : Int) : Expr :=
    .binary (note .int) (number left) .divide (number right)
  .binary (note .colour)
    (.read (note .colour) (.randomInt (note .int) (number 9)) (quotient 6 2)) .subtract
    (.index (note .colour) ⟨{}, "p"⟩ (quotient 3 2))

/-- The code of the mixed colours, if the array is the first variable of its frame. -/
def mixedColoursCode : Code :=
  let quotient (left right : Int) : Code :=
    [Code.pushInt right, Code.pushInt right, Code.pushInt left, .op .mod, Code.pushInt left,
      .op .sub, .op .div]
  [Code.pushInt Code.colourModulus, Code.pushInt Code.colourModulus] ++
    quotient 3 2 ++ [.pushIndexed ⟨0, 0⟩] ++
    quotient 6 2 ++ [Code.pushInt 9, .op .irnd, .op .read] ++ [.op .sub, .op .add, .op .mod]

/-- The scopes of a program with an array of colours, before or after code generation. -/
def paletteScopes (storage : Option Nat) : ScopeTree :=
  ⟨[{ kind := .global, symbols := [("p", .var { type := .array 2 .colour, storage })] }]⟩

theorem eq_of_paletteScopes_resolve? {name : String}
    (placed : (paletteScopes (some 0)).resolve? 0 name = some place) :
    name = "p" ∧ place = ⟨⟨0, 0⟩, .array 2 .colour⟩ := by
  by_cases isVariable : name = "p"
  · subst isVariable
    cases placed
    exact ⟨rfl, rfl⟩
  · have differs := beq_eq_false_iff_ne.mpr isVariable
    have visible : (paletteScopes (some 0)).visible 0 = [0] := rfl
    rw [ScopeTree.resolve?, visible] at placed
    simp [paletteScopes, ScopeTree.resolveIn?, ScopeTree.placeIn?, ScopeTree.variableIn?,
      ScopeTree.get?, Scope.findVariable?, Scope.find?, List.lookup_cons, differs] at placed

/-- A pad that is dark all over. -/
def darkness : Outside where
  read _ _ _ := 3
  draw _ limit := limit - 1

theorem darkness_inRange (asked : Nat) (x y : Int) :
    0 ≤ darkness.read asked x y ∧ darkness.read asked x y < colourCount :=
  ⟨(by decide : (0 : Int) ≤ 3), (by decide : (3 : Int) < colourCount)⟩

theorem mixedColoursCode_safe :
    Safe .numeric ⟨36, 36⟩ darkness ((paletteScopes (some 0)).resolve? 0) mixedColoursCode
      ⟨0, ⟨[], [[some 5, some 8]], []⟩⟩ := by
  have inBounds : ∀ stack frames output, ¬ Trips ((paletteScopes (some 0)).resolve? 0)
      ⟨1 :: stack, frames, output⟩ (.pushIndexed ⟨0, 0⟩) := by
    rintro stack frames output ⟨name, place, index, placed, _, ⟨⟩, outside⟩
    obtain ⟨_, rfl⟩ := eq_of_paletteScopes_resolve? placed
    exact outside (by decide)
  repeat' first | exact trivial | refine Safe.cons rfl ?_ ?_
  all_goals first
    | exact id
    | exact inBounds _ _ _
    | exact fun isZero => absurd (Option.some.inj isZero) (by decide)

theorem mixedColours_in_range :
    Typing.expression (paletteScopes none) 0 mixedColours.erase = .ok (mixedColours, .colour) ∧
    Code.expression (paletteScopes (some 0)) 0 mixedColours = .ok mixedColoursCode ∧
    (∀ node ∈ mixedColours.nodes, node.negatesColour = false) ∧
    ∃ word next, proceed .numeric ⟨36, 36⟩ darkness mixedColoursCode
        ⟨0, ⟨[], [[some 5, some 8]], []⟩⟩ = some ⟨next, ⟨[word], [[some 5, some 8]], []⟩⟩ ∧
      0 ≤ word ∧ word < colourCount := by
  have checked : Typing.expression (paletteScopes none) 0 mixedColours.erase =
      .ok (mixedColours, .colour) := rfl
  have emitted : Code.expression (paletteScopes (some 0)) 0 mixedColours = .ok mixedColoursCode :=
    rfl
  have tame : ∀ node ∈ mixedColours.nodes, node.negatesColour = false := by decide
  have kept : ∀ name ∈ mixedColours.names, ∀ place ∈ (paletteScopes (some 0)).resolve? 0 name,
      KeepsColours [[some 5, some 8]] place := by
    intro name _ place placed
    obtain ⟨_, rfl⟩ := eq_of_paletteScopes_resolve? placed
    exact ⟨⟨.array 2 .colour, [5, 8]⟩, ⟨rfl, ⟨rfl, rfl⟩, [], [], rfl, rfl⟩, fun _ => by decide⟩
  have follows :
      Code.Follows (paletteScopes (some 0)) (paletteScopes none) 0 mixedColours.names := by
    refine ⟨by decide, fun name => ?_⟩
    rw [paletteScopes, paletteScopes, ScopeTree.lookupFunction?_lone,
      ScopeTree.lookupFunction?_lone, Option.map_none]
  obtain ⟨word, next, proceeds, _, below, least, _⟩ := colours_in_range_unless_negated checked
    emitted follows kept (by decide) darkness_inRange mixedColoursCode_safe
  exact ⟨checked, emitted, tame, word, next, proceeds, least tame, below⟩

/-- The negation of a colour is taken for a colour, and its code leaves a word that is none. -/
theorem negated_colour_out_of_range :
    ∃ typed code,
      (∀ tree scope, Typing.expression tree scope
        (.unary { position := {} } .negate (.literal { position := {} } (.colour ⟨0, 0, 1⟩))) =
          .ok (typed, .colour)) ∧
      (∀ tree scope, Code.expression tree scope typed = .ok code) ∧
      (∀ node ∈ typed.nodes, node.isDirect = true) ∧ typed.names = [] ∧
      ∀ ops pad outside places asked stack frames output,
        Safe ops pad outside places code ⟨asked, ⟨stack, frames, output⟩⟩ ∧
        proceed ops pad outside code ⟨asked, ⟨stack, frames, output⟩⟩ =
          some ⟨asked, ⟨-1 :: stack, frames, output⟩⟩ := by
  refine ⟨_, _, fun _ _ => rfl, fun _ _ => rfl, by decide, rfl, ?_⟩
  intro ops pad outside places asked stack frames output
  exact ⟨.cons rfl id (.cons rfl id (.cons rfl id trivial)), rfl⟩

end PadLang
