/-
This file shows that expressions without effects are compiled correctly.

An expression is pure if it calls no function, asks nothing of the pad, draws no number and has no
floating-point literal in it. If the frames keep the values of its variables at the places that
the generator resolved them to, no divisor is zero and no index is out of bounds, then it has a
value, the value is of the type that the checker found, and its code pushes the words of the value
and changes nothing else.
-/

import PadLang.Proofs.Simulation.Expr

namespace PadLang

open Machine

variable {code : Code} {word : Int} {env : Env} {type : Ty}

/-! ### Pure and defined nodes -/

/-- A node whose value depends on nothing but its operands and the variables. -/
def Expr.isPure : Expr → Bool
  | .literal _ (.float _) | .side _ _ | .read _ _ _ | .randomInt _ _ | .call _ _ _ => false
  | _ => true

/-- The word that an expression has as its value. -/
def Expr.evalWord? (ops : WordOps) (pad : Pad) (env : Env) (expr : Expr) : Option Int :=
  (expr.eval? ops pad env).bind Value.word?

/-- An index is within the bounds of its array, and a divisor is not zero. -/
def Expr.IsDefined (ops : WordOps) (pad : Pad) (env : Env) : Expr → Prop
  | .index _ name offset => ∀ array index, env.find? name.value = some array →
      offset.evalWord? ops pad env = some index → 0 ≤ index ∧ index < array.cells.length
  | .binary _ _ .divide right => right.evalWord? ops pad env ≠ some 0
  | _ => True

variable {ops : WordOps} {pad : Pad} {frames : List Frame}

/-- Every operation but a division by zero has a result. -/
theorem BinaryOperator.exists_result? (ops : WordOps) (type : Ty) (operator : BinaryOperator)
    (left : Int) {right : Int} (nonzero : operator = .divide → right ≠ 0) :
    ∃ word, operator.result? ops type left right = some word := by
  have plain : ∃ word, operator.onWords? ops left right = some word := by
    cases operator with
    | divide => exact ⟨_, if_neg (nonzero rfl)⟩
    | _ => exact ⟨_, rfl⟩
  unfold BinaryOperator.result?
  split
  · exact ⟨_, rfl⟩
  · exact ⟨_, rfl⟩
  · exact ⟨_, if_neg (nonzero rfl)⟩
  · exact plain

theorem Yields.exists_word {value : Value} (yields : Yields ops pad frames code type value)
    (isScalar : type.isArray = false) : ∃ word, value.word? = some word := by
  obtain ⟨type, cells⟩ := value
  obtain ⟨rfl, fits, _⟩ := yields
  cases type with
  | base scalar =>
    obtain ⟨word, rfl⟩ := fits.exists_word rfl
    exact ⟨word, rfl⟩
  | array _ _ => cases isScalar

/-! ### Parts of expressions -/

/-- Scalars leave the word of the first on top. -/
theorem stacked_pushes {element : Ty} {parts : List Lowered} (isScalar : element.isArray = false)
    (each : ∀ part ∈ parts, ∃ value, part.expr.eval? ops pad env = some value ∧
      Yields ops pad frames part.code element value) :
    ∃ values words, evalAll? ops pad env (parts.map Lowered.expr) = some values ∧
      values.mapM Value.word? = some words ∧ words.length = parts.length ∧
      (∀ value ∈ values, value.type = element) ∧ values.length = parts.length ∧
      Pushes ops pad frames (stacked parts) words := by
  induction parts with
  | nil => exact ⟨[], [], rfl, rfl, rfl, List.forall_mem_nil _, rfl, fun _ _ => .nil _⟩
  | cons first rest inductionHypothesis =>
    rw [List.forall_mem_cons] at each
    obtain ⟨value, evaluated, yields⟩ := each.1
    obtain ⟨word, isWord⟩ := yields.exists_word isScalar
    obtain ⟨values, words, evaluatedRest, areWords, length, types, sameLength, pushes⟩ :=
      inductionHypothesis each.2
    refine ⟨value :: values, word :: words, ?_, ?_, ?_,
      List.forall_mem_cons.mpr ⟨yields.type_eq, types⟩, ?_,
      pushes.append (yields.pushesWord isWord)⟩
    · rw [List.map_cons, evalAll?, evaluated, evaluatedRest]
      rfl
    · rw [List.mapM_cons, isWord, areWords]
      rfl
    · rw [List.length_cons, List.length_cons, length]
    · rw [List.length_cons, List.length_cons, sameLength]

/-! ### Expressions -/

/-- A pure expression that is defined has a value, and its code pushes it. -/
theorem Lowers.exists_yields {places : String → Option ScopeTree.Resolved} {functions : Functions}
    {expr : Expr} (lowers : Lowers places functions expr type code)
    (good : ∀ node ∈ expr.nodes, node.isPure = true ∧ node.IsDefined ops pad env ∧
      ∀ name ∈ node.name?, ∀ place ∈ places name,
        ∃ value, env.find? name = some value ∧ Keeps frames place value) :
    ∃ value, expr.eval? ops pad env = some value ∧ Yields ops pad frames code type value := by
  induction lowers with
  | @literal note value type noted =>
    rw [Expr.nodes, List.forall_mem_singleton] at good
    obtain ⟨word, isWord⟩ : ∃ word, value.word? = some word := by
      cases value with
      | float _ => cases good.1
      | _ => exact ⟨_, rfl⟩
    refine ⟨_, ?_, (Yields.scalar rfl (literal_pushes isWord)).converted noted⟩
    rw [Expr.eval?, isWord]
    rfl
  | @array note parts element type nonempty isScalar _ same noted each =>
    rw [Expr.nodes, List.forall_mem_cons, forall_mem_nodesOf, List.forall_mem_map] at good
    obtain ⟨values, words, evaluated, areWords, length, types, sameLength, pushes⟩ :=
      stacked_pushes isScalar fun part member => by
        rw [← same part member]
        exact each part member (good.2 part member)
    obtain ⟨first, rest, rfl⟩ : ∃ first rest, values = first :: rest := by
      refine List.exists_cons_of_ne_nil fun none_left => nonempty ?_
      rw [none_left] at sameLength
      exact List.length_eq_zero_iff.mp sameLength.symm
    refine ⟨_, ?_, (Yields.array isScalar length pushes).converted noted⟩
    rw [Expr.eval?, evaluated, ← types first List.mem_cons_self, List.length_map]
    simp only [Option.bind_eq_bind, Option.bind_some, List.head?_cons, areWords]
    rfl
  | @var note name place type placed noted =>
    rw [Expr.nodes, List.forall_mem_singleton] at good
    obtain ⟨value, isStored, keeps⟩ := good.2.2 name rfl place placed
    have yields : Yields ops pad frames (Lexical.readVariable place) place.type value :=
      ⟨keeps.type_eq.symm, keeps.fits, readVariable_pushes keeps⟩
    refine ⟨_, ?_, yields.converted noted⟩
    rw [Expr.eval?, isStored]
    rfl
  | @index note name offset place element type code placed isArray _ noted inside =>
    rw [Expr.nodes, List.forall_mem_cons] at good
    obtain ⟨⟨_, inBounds, kept⟩, others⟩ := good
    obtain ⟨array, isStored, keeps⟩ := kept name.value rfl place placed
    obtain ⟨value, evaluated, yields⟩ := inside others
    obtain ⟨index, isIndex⟩ := yields.exists_word rfl
    obtain ⟨least, most⟩ := inBounds array index isStored
      (by rw [Expr.evalWord?, evaluated, Option.bind_some, isIndex])
    obtain ⟨number, rfl⟩ := Int.eq_ofNat_of_zero_le least
    have isWord := List.getElem?_eq_getElem (Int.ofNat_lt.mp most)
    have isElement : array.type.element? = some element := keeps.type_eq ▸ isArray
    have isScalar := Ty.isArray_eq_false_of_isFlat keeps.fits.flat isElement
    have pushes := pushIndexed_pushes keeps (yields.pushesWord isIndex) rfl isWord
    refine ⟨_, ?_, (Yields.scalar isScalar pushes).converted noted⟩
    rw [Expr.eval?, isStored, evaluated]
    simp only [Option.bind_eq_bind, Option.bind_some, isElement, isIndex, isWord, Int.toNat?]
    rfl
  | group _ noted inside =>
    rw [Expr.nodes, List.forall_mem_cons] at good
    obtain ⟨value, evaluated, yields⟩ := inside good.2
    refine ⟨_, ?_, yields.converted noted⟩
    rw [Expr.eval?, evaluated]
    rfl
  | @binary note left operator right operand type codeLeft codeRight takes _ _ noted first second =>
    rw [Expr.nodes, List.forall_mem_cons, List.forall_mem_append] at good
    obtain ⟨⟨_, defined, _⟩, goodLeft, goodRight⟩ := good
    have isScalar := Typing.isArray_eq_false_of_takesOperand takes
    obtain ⟨leftValue, evaluatedLeft, yieldsLeft⟩ := first goodLeft
    obtain ⟨rightValue, evaluatedRight, yieldsRight⟩ := second goodRight
    obtain ⟨leftWord, isLeftWord⟩ := yieldsLeft.exists_word isScalar
    obtain ⟨rightWord, isRightWord⟩ := yieldsRight.exists_word isScalar
    have nonzero : operator = .divide → rightWord ≠ 0 := by
      rintro rfl rfl
      refine defined ?_
      rw [Expr.evalWord?, evaluatedRight, Option.bind_some, isRightWord]
    obtain ⟨word, applied⟩ := operator.exists_result? ops operand leftWord nonzero
    have pushes := combine_pushes (yieldsLeft.pushesWord isLeftWord)
      (yieldsRight.pushesWord isRightWord) applied
    refine ⟨_, ?_, (Yields.scalar (Typing.isArray_operationType isScalar) pushes).converted noted⟩
    rw [Expr.eval?, evaluatedLeft, evaluatedRight]
    simp only [Option.bind_eq_bind, Option.bind_some, isLeftWord, isRightWord, yieldsLeft.type_eq,
      applied]
    rfl
  | @unary note operator operand found type code takes _ noted inside =>
    rw [Expr.nodes, List.forall_mem_cons] at good
    have isScalar := Typing.isArray_eq_false_of_takesUnaryOperand takes
    obtain ⟨value, evaluated, yields⟩ := inside good.2
    obtain ⟨word, isWord⟩ := yields.exists_word isScalar
    have pushes := unary_pushes operator (yields.pushesWord isWord)
    refine ⟨_, ?_, (Yields.scalar isScalar pushes).converted noted⟩
    rw [Expr.eval?, evaluated]
    simp only [Option.bind_eq_bind, Option.bind_some, isWord, yields.type_eq]
    rfl
  | side | read | randomInt | call =>
    rw [Expr.nodes, List.forall_mem_cons] at good
    cases good.1.1

/-- A pure expression that the checker gave a type has a value of that type wherever no divisor is
zero and no index is out of bounds. If the frames keep the values of its variables at the places
that the generator resolves them to, then its code pushes the words of the value, those of an
array with the first on top, and leaves the rest of the stack and all frames as they are. -/
theorem pure_expression_pushes_value {emitting checking : ScopeTree} {scope : ScopeId}
    {expr typed : Expr} {type : Ty} {code : Code} {env : Env}
    (checked : Typing.expression checking scope expr = .ok (typed, type))
    (emitted : Code.expression emitting scope typed = .ok code)
    (follows : Code.Follows emitting checking scope typed.names)
    (kept : ∀ name ∈ typed.names, ∀ place ∈ emitting.resolve? scope name,
      ∃ value, env.find? name = some value ∧ Keeps frames place value)
    (pure : ∀ node ∈ typed.nodes, node.isPure = true)
    (defined : ∀ node ∈ typed.nodes, node.IsDefined ops pad env) :
    ∃ value, typed.eval? ops pad env = some value ∧ value.type = type ∧
      value.cells.length = type.size ∧
      ∀ stack output, Performs ops pad code ⟨stack, frames, output⟩
        ⟨value.cells ++ stack, frames, output⟩ := by
  have lowers := Code.expression_lowers follows checked emitted
  obtain ⟨value, evaluated, yields⟩ := lowers.exists_yields fun node isNode =>
    ⟨pure node isNode, defined node isNode, Expr.forall_name? kept node isNode⟩
  exact ⟨value, evaluated, yields.type_eq, yields.type_eq ▸ yields.fits.length, yields.pushes⟩

/-- An element of an array, divided and then treated as a colour, as the checker leaves it:
`(a[1] / -2) as colour - #000005`. -/
def shadedElement : Expr :=
  let note (type : Ty) : Note := { position := {}, type := some type }
  let shade : Note := { position := {}, cast := some ⟨{}, .colour⟩, type := some .colour }
  .binary (note .colour)
    (.group shade (.binary (note .int)
      (.index (note .int) ⟨{}, "a"⟩ (.literal (note .int) (.int 1))) .divide
      (.unary (note .int) .negate (.literal (note .int) (.int 2)))))
    .subtract (.literal (note .colour) (.colour ⟨0, 0, 5⟩))

/-- The scopes of a program with one array, before or after code generation. -/
def arrayScopes (storage : Option Nat) : ScopeTree :=
  ⟨[{ kind := .global, symbols := [("a", .var { type := .array 2 .int, storage })] }]⟩

theorem pure_expression_pushes_shadedElement :
    Typing.expression (arrayScopes none) 0 shadedElement.erase = .ok (shadedElement, .colour) ∧
    ∃ code, Code.expression (arrayScopes (some 0)) 0 shadedElement = .ok code ∧
      ∃ value, shadedElement.eval? .numeric ⟨36, 36⟩ [[("a", ⟨.array 2 .int, [5, -7]⟩)]] =
          some value ∧ value.type = .colour ∧ value.cells.length = Ty.colour.size ∧
        ∀ stack output, Performs .numeric ⟨36, 36⟩ code ⟨stack, [[some 5, some (-7)]], output⟩
          ⟨value.cells ++ stack, [[some 5, some (-7)]], output⟩ := by
  have checked : Typing.expression (arrayScopes none) 0 shadedElement.erase =
      .ok (shadedElement, .colour) := rfl
  have emitted : Code.expression (arrayScopes (some 0)) 0 shadedElement = .ok _ := rfl
  refine ⟨checked, _, emitted,
    pure_expression_pushes_value checked emitted ⟨by decide, fun name => ?_⟩ ?_ (by decide) ?_⟩
  · rw [arrayScopes, arrayScopes, ScopeTree.lookupFunction?_lone, ScopeTree.lookupFunction?_lone]
    rfl
  · have only : ∀ name ∈ shadedElement.names, name = "a" ∧
        (arrayScopes (some 0)).resolve? 0 name = some ⟨⟨0, 0⟩, .array 2 .int⟩ := by decide
    intro name member place placed
    obtain ⟨rfl, isPlace⟩ := only name member
    cases isPlace.symm.trans placed
    exact ⟨_, rfl, rfl, ⟨rfl, rfl⟩, [], [], rfl, rfl⟩
  · simp only [shadedElement, Expr.nodes, Expr.IsDefined, List.cons_append, List.nil_append,
      List.forall_mem_cons, true_and]
    refine ⟨by decide, fun array index isArray isIndex => ?_, List.forall_mem_nil _⟩
    cases isArray
    cases isIndex
    decide

end PadLang
