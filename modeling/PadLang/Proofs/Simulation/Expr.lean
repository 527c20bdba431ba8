/-
This file shows that the code of an expression leaves the words of its value on the stack.

The value of an expression that is well typed has the type that analysis noted on it, so the
operation that the code was chosen for is the operation that the meaning asks for. Code for an
expression leaves the frames as they are; reading an array opens a frame on top of them and
closes it again.
-/

import PadLang.Proofs.Code.Lowering
import PadLang.Proofs.Simulation.Storage

namespace PadLang

variable {operator : BinaryOperator} {left right word : Int} {type : Ty} {context : Context}
  {env : Env} {place : ScopeTree.Resolved} {functions : Functions} {values : List Value}
  {items : List Expr} {words : List Int} {value : Value} {first second : Code}

open Machine

variable {ops : WordOps} {pad : Pad} {frames : List Frame}

/-- Code puts words on the stack and leaves all else as it is. -/
def Pushes (ops : WordOps) (pad : Pad) (frames : List Frame) (code : Code) (words : List Int) :
    Prop :=
  ∀ stack output, Performs ops pad code ⟨stack, frames, output⟩ ⟨words ++ stack, frames, output⟩

namespace Pushes

theorem append {below above : List Int} (pushesFirst : Pushes ops pad frames first below)
    (pushesSecond : Pushes ops pad frames second above) :
    Pushes ops pad frames (first ++ second) (above ++ below) := by
  intro stack output
  rw [List.append_assoc]
  exact (pushesFirst stack output).append (pushesSecond (below ++ stack) output)

/-- Code that ends in an instruction which works on the words left by the code before it. -/
theorem andThen {code : Code} (pushes : Pushes ops pad frames code words) (opcode : Opcode)
    (results : List Int)
    (acts : ∀ stack output, actOpcode ops pad ⟨words ++ stack, frames, output⟩ opcode =
      some ⟨results ++ stack, frames, output⟩) :
    Pushes ops pad frames (code ++ [.op opcode]) results :=
  fun stack output => (pushes stack output).append (.instruction (acts stack output))

theorem int (value : Int) : Pushes ops pad frames [Code.pushInt value] [value] :=
  fun _ _ => .instruction rfl

end Pushes

/-! ### Operations -/

theorem actOpcode_opcodeOf (applied : operator.onWords? ops left right = some word)
    (stack : List Int) (output : List Event) :
    actOpcode ops pad ⟨left :: right :: stack, frames, output⟩ (Code.opcodeOf operator) =
      some ⟨word :: stack, frames, output⟩ := by
  cases operator <;> exact binary?_eq applied

theorem actOpcode_mod (nonzero : right ≠ 0) (stack : List Int) (output : List Event) :
    actOpcode ops pad ⟨left :: right :: stack, frames, output⟩ .mod =
      some ⟨left.tmod right :: stack, frames, output⟩ := by
  rw [actOpcode]
  exact binary?_eq (if_neg nonzero)

theorem actOpcode_div (nonzero : right ≠ 0) (stack : List Int) (output : List Event) :
    actOpcode ops pad ⟨left :: right :: stack, frames, output⟩ .div =
      some ⟨ops.divide left right :: stack, frames, output⟩ := by
  rw [actOpcode]
  exact binary?_eq (if_neg nonzero)

/-- A division that leaves no remainder gives the truncated quotient. -/
theorem WordOps.divide_sub_tmod (ops : WordOps) (left : Int) (nonzero : right ≠ 0) :
    ops.divide (left - left.tmod right) right = left.tdiv right := by
  have exact_ : left - left.tmod right = left.tdiv right * right := by
    have whole := Int.tdiv_mul_add_tmod left right
    omega
  rw [exact_, ops.divide_mul _ _ nonzero]

theorem combine_pushes (pushesFirst : Pushes ops pad frames first [left])
    (pushesSecond : Pushes ops pad frames second [right])
    (applied : operator.result? ops type left right = some word) :
    Pushes ops pad frames (Code.combine operator type first second) [word] := by
  have both := pushesSecond.append pushesFirst
  have modulus : Pushes ops pad frames [Code.pushInt Code.colourModulus] [Code.colourModulus] :=
    .int _
  fun_cases Code.combine operator type first second
  · cases applied
    have sum := (modulus.append both).andThen .add [left + right, Code.colourModulus]
      fun _ _ => rfl
    have remainder := sum.andThen .mod [(left + right).tmod colourCount] fun _ _ => rfl
    simpa using remainder
  · cases applied
    have difference := ((modulus.append modulus).append both).andThen .sub
      [left - right, Code.colourModulus, Code.colourModulus] fun _ _ => rfl
    have shifted := difference.andThen .add
      [left - right + Code.colourModulus, Code.colourModulus] fun _ _ => rfl
    have remainder := shifted.andThen .mod [(left - right + colourCount).tmod colourCount]
      fun _ _ => rfl
    simpa using remainder
  · rw [BinaryOperator.result?] at applied
    split at applied
    · cases applied
    · next nonzero =>
      cases applied
      have remainder := (pushesSecond.append both).andThen .mod [left.tmod right, right]
        fun _ _ => actOpcode_mod nonzero _ _
      have multiple := (remainder.append pushesFirst).andThen .sub [left - left.tmod right, right]
        fun _ _ => rfl
      have quotient := multiple.andThen .div [ops.divide (left - left.tmod right) right]
        fun _ _ => actOpcode_div nonzero _ _
      rw [ops.divide_sub_tmod left nonzero] at quotient
      simpa using quotient
  · next notSum notDifference notQuotient =>
    rw [BinaryOperator.result?] at applied
    · exact both.andThen _ _ fun stack output => actOpcode_opcodeOf applied stack output
    · exact notSum
    · exact notDifference
    · exact notQuotient

theorem unary_pushes (operator : UnaryOperator) (pushes : Pushes ops pad frames first [word]) :
    Pushes ops pad frames (first ++ operator.code) [operator.result ops word] := by
  cases operator with
  | not => exact pushes.andThen .not _ fun _ _ => rfl
  | negate =>
    have zero : Pushes ops pad frames [Code.pushInt 0] [0] := .int 0
    have negated := (pushes.append zero).andThen .sub [0 - word] fun _ _ => rfl
    rw [List.append_assoc] at negated
    exact negated

/-! ### Variables -/

/-- Reading a variable puts its words on the stack. -/
theorem readVariable_pushes (keeps : Keeps frames place value) :
    Pushes ops pad frames (Lexical.readVariable place) value.cells := by
  intro stack output
  unfold Lexical.readVariable
  rw [keeps.type_eq]
  cases type : value.type with
  | base scalar =>
    obtain ⟨word, cells⟩ := keeps.fits.exists_word type
    have loads := keeps.load stack output
    rw [cells] at loads ⊢
    exact .instruction loads
  | array size element =>
    rw [← keeps.fits.length_eq type]
    have scratch : (List.replicate value.cells.length none :: frames)[0]? =
        some ([] ++ List.replicate value.cells.length none ++ []) := by
      rw [List.append_nil]
      rfl
    have loads := (keeps.under (List.replicate value.cells.length none)).load stack output
    have stores : Data.store? 0 0 value.cells ⟨stack, _ :: frames, output⟩ = _ :=
      store?_eq scratch List.length_replicate
    have copied : (([] ++ value.cells.map some ++ []) :: frames)[0]? =
        some ([] ++ value.cells.map some ++ []) := rfl
    have reloads : Data.load? 0 0 value.cells.length ⟨stack, _ :: frames, output⟩ = _ :=
      load?_eq copied
    exact (Performs.openFrame value.cells.length).append
      ((Performs.loadBlock loads).append ((Performs.storeBlock stores).append
        ((Performs.loadBlock reloads).append (.instruction rfl))))

theorem pushIndexed_pushes {index : Int} {number : Nat} (keeps : Keeps frames place value)
    (pushes : Pushes ops pad frames first [index]) (isNumber : index.toNat? = some number)
    (isAt : value.cells[number]? = some word) :
    Pushes ops pad frames (first ++ [.pushIndexed place.slot]) [word] :=
  fun stack output => (pushes stack output).append
    (.loadIndexed isNumber (keeps.loadAt isAt stack output))

/-! ### Expressions -/

/-- Code puts the words of a value on the stack, and the value is of a type. -/
structure Yields (ops : WordOps) (pad : Pad) (frames : List Frame) (code : Code) (type : Ty)
    (value : Value) : Prop where
  type_eq : value.type = type
  fits : value.Fits
  pushes : Pushes ops pad frames code value.cells

namespace Yields

variable {code : Code} {note : Note} {target : Ty} {value : Value}

theorem scalar (isScalar : type.isArray = false) (pushes : Pushes ops pad frames code [word]) :
    Yields ops pad frames code type { type, cells := [word] } := by
  refine ⟨rfl, ⟨(Ty.size_eq_one isScalar).symm, ?_⟩, pushes⟩
  cases type with
  | base _ => rfl
  | array _ _ => cases isScalar

theorem array {size : Nat} (isScalar : type.isArray = false) (length : words.length = size)
    (pushes : Pushes ops pad frames code words) :
    Yields ops pad frames code (.array size type) { type := .array size type, cells := words } := by
  refine ⟨rfl, ⟨?_, ?_⟩, pushes⟩
  · rw [Ty.size, Ty.size_eq_one isScalar, Nat.mul_one]
    exact length
  · rw [Ty.isFlat, isScalar]
    rfl

theorem converted (yields : Yields ops pad frames code type value)
    (noted : Noted note type target) :
    Yields ops pad frames code target (value.converted note) := by
  rw [← yields.type_eq] at noted
  obtain ⟨isTarget, fits⟩ := yields.fits.converted noted
  refine ⟨isTarget, fits, ?_⟩
  rw [Value.cells_converted]
  exact yields.pushes

/-- The word of a scalar is put on the stack. -/
theorem pushesWord (yields : Yields ops pad frames code type value)
    (isWord : value.word? = some word) : Pushes ops pad frames code [word] := by
  have pushes := yields.pushes
  rw [Value.cells_eq_of_word? isWord] at pushes
  exact pushes

end Yields

theorem literal_pushes {value : Literal} (isWord : value.word? = some word) :
    Pushes ops pad frames [.push (Code.literalOperand value)] [word] := by
  cases value with
  | float _ => cases isWord
  | _ =>
    cases isWord
    exact fun _ _ => .instruction rfl

/-- Scalars that are evaluated from the last to the first leave the first on top. -/
theorem backwards_pushes (each : ∀ item ∈ items, ∀ value, item.eval? ops pad env = some value →
      Pushes ops pad frames (Lexical.expression functions context item) value.cells)
    (evaluated : evalAll? ops pad env items = some values)
    (areWords : values.mapM Value.word? = some words) :
    Pushes ops pad frames (Lexical.backwards functions context items) words ∧
      words.length = items.length := by
  induction items generalizing values words with
  | nil =>
    cases evaluated
    cases areWords
    exact ⟨fun _ _ => .nil _, rfl⟩
  | cons item rest inductionHypothesis =>
    obtain ⟨here, others⟩ := List.forall_mem_cons.mp each
    obtain ⟨value, evaluatedItem, evaluated⟩ := Option.bind_eq_some_iff.mp evaluated
    obtain ⟨restValues, evaluatedRest, ⟨⟩⟩ := Option.bind_eq_some_iff.mp evaluated
    rw [List.mapM_cons] at areWords
    obtain ⟨word, isWord, areWords⟩ := Option.bind_eq_some_iff.mp areWords
    obtain ⟨restWords, areRestWords, ⟨⟩⟩ := Option.bind_eq_some_iff.mp areWords
    obtain ⟨pushesRest, length⟩ := inductionHypothesis others evaluatedRest areRestWords
    have pushesItem := here value evaluatedItem
    rw [Value.cells_eq_of_word? isWord] at pushesItem
    exact ⟨pushesRest.append pushesItem, by rw [List.length_cons, List.length_cons, length]⟩

/-- The variable that a name denotes has the type that its place has. -/
theorem Context.type_eq_of_find? {name : String} {found : Denoted}
    (denotes : context.find? name = some found) (placed : context.place? name = some place) :
    place.type = found.type := by
  obtain ⟨other, isPlaced, sameType⟩ := Code.exists_place denotes
  cases isPlaced.symm.trans placed
  exact sameType

theorem exists_eval?_of_head? {first : Value} (evaluated : evalAll? ops pad env items = some values)
    (isFirst : values.head? = some first) :
    ∃ item ∈ items, item.eval? ops pad env = some first := by
  cases items with
  | nil =>
    cases evaluated
    cases isFirst
  | cons item rest =>
    obtain ⟨value, evaluatedItem, others⟩ := Option.bind_eq_some_iff.mp evaluated
    obtain ⟨restValues, _, ⟨⟩⟩ := Option.bind_eq_some_iff.mp others
    cases isFirst
    exact ⟨item, List.mem_cons_self, evaluatedItem⟩

theorem Typing.isArray_operationType (isScalar : type.isArray = false) :
    (operationType operator type).isArray = false := by
  cases operator <;> first | rfl | exact isScalar

/-- The code of an expression puts its value on the stack, which is of the type of the
expression. -/
theorem expression_yields {expr : Expr} (mirrored : Mirrors context env frames)
    (typed : HasType functions context expr type)
    (evaluated : expr.eval? ops pad env = some value) :
    Yields ops pad frames (Lexical.expression functions context expr) type value := by
  induction typed generalizing value with
  | literal noted =>
    obtain ⟨word, isWord, ⟨⟩⟩ := Option.bind_eq_some_iff.mp evaluated
    exact (Yields.scalar rfl (literal_pushes isWord)).converted noted
  | @array note items element type nonempty isScalar _ noted each =>
    obtain ⟨values, evaluatedItems, rest⟩ := Option.bind_eq_some_iff.mp evaluated
    obtain ⟨first, isFirst, rest⟩ := Option.bind_eq_some_iff.mp rest
    obtain ⟨words, areWords, ⟨⟩⟩ := Option.bind_eq_some_iff.mp rest
    obtain ⟨pushes, length⟩ := backwards_pushes
      (fun item member value evaluatedItem => (each item member evaluatedItem).pushes)
      evaluatedItems areWords
    obtain ⟨item, member, evaluatedItem⟩ := exists_eval?_of_head? evaluatedItems isFirst
    rw [(each item member evaluatedItem).type_eq]
    exact (Yields.array isScalar length pushes).converted noted
  | @side note which type noted =>
    cases evaluated
    cases which <;> exact (Yields.scalar rfl fun _ _ => .instruction rfl).converted noted
  | @var note name found type denotes noted =>
    obtain ⟨stored, isStored, ⟨⟩⟩ := Option.bind_eq_some_iff.mp evaluated
    obtain ⟨place, placed, keeps⟩ := mirrored.exists_place isStored
    have yields : Yields ops pad frames (Lexical.atPlace context name Lexical.readVariable)
        found.type stored := by
      rw [Lexical.atPlace, placed]
      exact ⟨keeps.type_eq.symm.trans (Context.type_eq_of_find? denotes placed), keeps.fits,
        readVariable_pushes keeps⟩
    exact yields.converted noted
  | @index note name offset found element type denotes isArray _ noted inside =>
    obtain ⟨stored, isStored, rest⟩ := Option.bind_eq_some_iff.mp evaluated
    obtain ⟨elementType, isElement, rest⟩ := Option.bind_eq_some_iff.mp rest
    obtain ⟨offsetValue, evaluatedOffset, rest⟩ := Option.bind_eq_some_iff.mp rest
    obtain ⟨offsetWord, isOffsetWord, rest⟩ := Option.bind_eq_some_iff.mp rest
    obtain ⟨number, isNumber, rest⟩ := Option.bind_eq_some_iff.mp rest
    obtain ⟨word, isWord, ⟨⟩⟩ := Option.bind_eq_some_iff.mp rest
    obtain ⟨place, placed, keeps⟩ := mirrored.exists_place isStored
    have isScalar := Ty.isArray_eq_false_of_isFlat keeps.fits.flat isElement
    rw [← keeps.type_eq, Context.type_eq_of_find? denotes placed, isArray] at isElement
    cases isElement
    have pushesOffset := (inside evaluatedOffset).pushesWord isOffsetWord
    refine (Yields.scalar isScalar ?_).converted noted
    rw [Lexical.expression, Lexical.atPlace, placed]
    exact pushIndexed_pushes keeps pushesOffset isNumber isWord
  | group _ noted inside =>
    obtain ⟨inner, evaluatedInner, ⟨⟩⟩ := Option.bind_eq_some_iff.mp evaluated
    exact (inside evaluatedInner).converted noted
  | @binary note left operator right operand type takes typedFirst _ noted first second =>
    obtain ⟨leftValue, evaluatedLeft, rest⟩ := Option.bind_eq_some_iff.mp evaluated
    obtain ⟨rightValue, evaluatedRight, rest⟩ := Option.bind_eq_some_iff.mp rest
    obtain ⟨leftWord, isLeftWord, rest⟩ := Option.bind_eq_some_iff.mp rest
    obtain ⟨rightWord, isRightWord, rest⟩ := Option.bind_eq_some_iff.mp rest
    obtain ⟨word, applied, ⟨⟩⟩ := Option.bind_eq_some_iff.mp rest
    have yieldsLeft := first evaluatedLeft
    have isScalar := Value.isArray_eq_false_of_word? isLeftWord
    rw [yieldsLeft.type_eq] at applied isScalar ⊢
    refine (Yields.scalar (Typing.isArray_operationType isScalar) ?_).converted noted
    rw [Lexical.expression, typedFirst.type?_eq]
    exact combine_pushes (yieldsLeft.pushesWord isLeftWord)
      ((second evaluatedRight).pushesWord isRightWord) applied
  | @unary note operator operand found type takes _ noted inside =>
    obtain ⟨operandValue, evaluatedOperand, rest⟩ := Option.bind_eq_some_iff.mp evaluated
    obtain ⟨word, isWord, ⟨⟩⟩ := Option.bind_eq_some_iff.mp rest
    have yields := inside evaluatedOperand
    have isScalar := Value.isArray_eq_false_of_word? isWord
    have pushes := unary_pushes operator (yields.pushesWord isWord)
    rw [yields.type_eq] at isScalar ⊢
    refine (Yields.scalar isScalar ?_).converted noted
    cases operator <;> exact pushes
  | read | randomInt | call => cases evaluated

/-- A program has no functions if a variable is its only symbol. -/
theorem ScopeTree.lookupFunction?_lone (known name : String) (info : Variable) :
    lookupFunction? ⟨[{ kind := .global, symbols := [(known, .var info)] }]⟩ name = none := by
  by_cases isKnown : name = known
  · simp [lookupFunction?, functionIn?, get?, global, Scope.findFunction?, Scope.find?,
      isKnown, Symbol.asFunction?]
  · simp [lookupFunction?, functionIn?, get?, global, Scope.findFunction?, Scope.find?,
      List.lookup_cons, beq_eq_false_iff_ne.mpr isKnown]

end PadLang
