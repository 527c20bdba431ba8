/-
This file follows the operand stack through the code of expressions.

Instructions that move whole arrays, and calls, take numbers from the stack that say how many
more words they take. Such a number was always pushed as it stands, and so was the entry of a
function that is called. It is enough to know these words; of all others only their number
matters. The sketch of a machine is what is left: the words on its stack as far as they are
known, and how many frames are open.

The code of a checked expression never reaches below the words and frames that it found. It
leaves as many words as its type has cells, and no frame.
-/

import PadLang.Proofs.Simulation.Expr

namespace PadLang

variable {functions : Functions} {function : String} {signature : Signature} {type target : Ty}
  {parts : List Lowered} {note : Note} {cells : Nat}

/-! ### Sketches -/

/-- What is known about a word on the stack. -/
inductive Held where
  | number (value : Int)
  | entry (function : String)
  | unknown
deriving DecidableEq, Repr

/-- The words on the stack, and how many frames are open. -/
structure Sketch where
  words : List Held
  opened : Nat
deriving DecidableEq, Repr

namespace Sketch

/-- Puts words on the stack. -/
def put (words : List Held) (sketch : Sketch) : Sketch :=
  { sketch with words := words ++ sketch.words }

/-- Takes so many words from the stack. -/
def take? : Nat → Sketch → Option Sketch
  | 0, sketch => some sketch
  | _ + 1, ⟨[], _⟩ => none
  | count + 1, ⟨_ :: words, opened⟩ => take? count ⟨words, opened⟩

/-- Takes a number from the stack. -/
def takeNumber? : Sketch → Option (Nat × Sketch)
  | ⟨.number value :: words, opened⟩ => do
    let count ← value.toNat?
    return (count, ⟨words, opened⟩)
  | _ => none

end Sketch

/-- How many words an opcode takes from the stack and how many it puts there, where the words do
not decide about it and control goes on behind it. -/
def Opcode.arity? : Opcode → Option (Nat × Nat)
  | .add | .sub | .mul | .div | .mod | .and | .or => some (2, 1)
  | .eq | .neq | .lt | .le | .gt | .ge => some (2, 1)
  | .not | .irnd => some (1, 1)
  | .st => some (3, 0)
  | .width | .height => some (0, 1)
  | .read => some (2, 1)
  | .print | .delay | .clear => some (1, 0)
  | .write => some (3, 0)
  | .writebox => some (5, 0)
  | .sta | .printa | .oframe | .cframe | .call | .ret | .cjmp | .jmp | .halt => none

namespace Sketch

/-- The sketch after an instruction, unless it takes words that are not there, closes a frame
that is not open, or control does not go on behind it. A call takes the entry of the function,
the number of words that it passes on and these words, and leaves the words of the result. -/
def act? (functions : Functions) (sketch : Sketch) : Instruction → Option Sketch
  | .label _ => some sketch
  | .push (.int value) => some (sketch.put [.number value])
  | .push (.label function) => some (sketch.put [.entry function])
  | .push _ | .pushSlot _ => some (sketch.put [.unknown])
  | .pushBlock _ => do
    let (count, rest) ← sketch.takeNumber?
    return rest.put (List.replicate count .unknown)
  | .pushIndexed _ => do
    let rest ← sketch.take? 1
    return rest.put [.unknown]
  | .op .oframe => do
    let rest ← sketch.take? 1
    return { rest with opened := rest.opened + 1 }
  | .op .cframe =>
    match sketch.opened with
    | 0 => none
    | opened + 1 => some { sketch with opened }
  | .op .sta => do
    let (count, rest) ← (← sketch.take? 2).takeNumber?
    rest.take? count
  | .op .printa => do
    let (count, rest) ← sketch.takeNumber?
    rest.take? count
  | .op .call =>
    match sketch with
    | ⟨.entry function :: words, opened⟩ => do
      let signature ← functions function
      let results ← signature.returns.slots.toOption
      let (count, rest) ← takeNumber? ⟨words, opened⟩
      return (← rest.take? count).put (List.replicate results .unknown)
    | _ => none
  | .op opcode => do
    let (taken, given) ← opcode.arity?
    return (← sketch.take? taken).put (List.replicate given .unknown)

/-- The sketch after code. -/
def run? (functions : Functions) (code : Code) (sketch : Sketch) : Option Sketch :=
  code.foldlM (act? functions) sketch

/-- A sketch with more words and more frames on top of it. -/
def topped (sketch : Sketch) (words : List Held) (opened : Nat) : Sketch :=
  ⟨words ++ sketch.words, sketch.opened + opened⟩

theorem topped_topped (sketch : Sketch) (below above : List Held) (outer inner : Nat) :
    (sketch.topped below outer).topped above inner =
      sketch.topped (above ++ below) (outer + inner) := by
  rw [topped, topped, topped, List.append_assoc, Nat.add_assoc]

theorem take?_topped (sketch : Sketch) (taken rest : List Held) (opened : Nat) :
    (sketch.topped (taken ++ rest) opened).take? taken.length =
      some (sketch.topped rest opened) := by
  induction taken with
  | nil => rfl
  | cons word others inductionHypothesis => exact inductionHypothesis

theorem act?_call (sketch : Sketch) {words : List Held} (opened : Nat)
    (names : functions function = some signature) (sized : signature.returns.Sized) :
    (sketch.topped (.entry function :: .number words.length :: words) opened).act? functions
        (.op .call) =
      some (sketch.topped (List.replicate signature.returns.size .unknown) opened) := by
  have passed := sketch.take?_topped words [] opened
  rw [List.append_nil] at passed
  have unfolded : (sketch.topped (.entry function :: .number words.length :: words) opened).act?
      functions (.op .call) = (functions function).bind fun found =>
        found.returns.slots.toOption.bind fun results =>
          ((sketch.topped words opened).take? words.length).bind fun rest =>
            some (rest.put (List.replicate results .unknown)) := rfl
  rw [unfolded, names, passed, Option.bind_some, sized]
  rfl

end Sketch

/-! ### Code on top of a sketch -/

/-- Code leaves these words and so many open frames on top of whatever it found. No part that it
begins with reaches below that. -/
structure Climbs (functions : Functions) (code : Code) (words : List Held) (opened : Nat) :
    Prop where
  whole : ∀ sketch : Sketch, sketch.run? functions code = some (sketch.topped words opened)
  parts : ∀ part, part <+: code → ∃ words opened, ∀ sketch : Sketch,
    sketch.run? functions part = some (sketch.topped words opened)

namespace Climbs

variable {code more : Code} {words above : List Held} {opened inner : Nat}

theorem nil : Climbs functions [] [] 0 := by
  have nothing : ∀ sketch : Sketch, sketch.run? functions [] = some (sketch.topped [] 0) := by
    intro sketch
    rfl
  refine ⟨nothing, fun part isPart => ?_⟩
  rw [List.prefix_nil.mp isPart]
  exact ⟨[], 0, nothing⟩

theorem append (first : Climbs functions code words opened)
    (second : Climbs functions more above inner) :
    Climbs functions (code ++ more) (above ++ words) (opened + inner) := by
  have joined {part : Code} {above : List Held} {inner : Nat}
      (runs : ∀ sketch : Sketch, sketch.run? functions part = some (sketch.topped above inner))
      (sketch : Sketch) :
      sketch.run? functions (code ++ part) =
        some (sketch.topped (above ++ words) (opened + inner)) := by
    rw [Sketch.run?, List.foldlM_append, ← Sketch.topped_topped]
    exact (congrArg (· >>= fun next => Sketch.run? functions part next)
      (first.whole sketch)).trans (runs _)
  refine ⟨joined second.whole, fun part isPart => ?_⟩
  rcases Nat.le_total part.length code.length with shorter | longer
  · exact first.parts part
      (List.prefix_of_prefix_length_le isPart (List.prefix_append _ _) shorter)
  · obtain ⟨rest, rfl⟩ := List.prefix_of_prefix_length_le (List.prefix_append code more) isPart
      longer
    obtain ⟨above, inner, runs⟩ := second.parts rest ((List.prefix_append_right_inj code).mp isPart)
    exact ⟨_, _, joined runs⟩

/-- Code that ends in an instruction which works on the words left by the code before it. -/
theorem andThen (climbs : Climbs functions code words opened) (instruction : Instruction)
    (acts : ∀ sketch : Sketch, (sketch.topped words opened).act? functions instruction =
      some (sketch.topped above inner)) :
    Climbs functions (code ++ [instruction]) above inner := by
  have whole (sketch : Sketch) : sketch.run? functions (code ++ [instruction]) =
      some (sketch.topped above inner) := by
    rw [Sketch.run?, List.foldlM_append]
    refine (congrArg (· >>= fun next => Sketch.run? functions [instruction] next)
      (climbs.whole sketch)).trans ?_
    exact (congrArg (· >>= pure) (acts sketch)).trans rfl
  refine ⟨whole, fun part isPart => ?_⟩
  rcases List.prefix_concat_iff.mp isPart with rfl | earlier
  · exact ⟨_, _, whole⟩
  · exact climbs.parts part earlier

theorem int (value : Int) : Climbs functions [Code.pushInt value] [.number value] 0 :=
  nil.andThen _ fun _ => rfl

variable {rest : List Held} {right left : Held}

/-- An operation replaces its operands by its result. -/
theorem operation (opcode : Opcode) (climbs : Climbs functions code (left :: right :: rest) opened)
    (binary : opcode.arity? = some (2, 1)) :
    Climbs functions (code ++ [.op opcode]) (.unknown :: rest) opened := by
  refine climbs.andThen _ fun sketch => ?_
  cases opcode <;> first | rfl | cases binary

theorem combine (operator : BinaryOperator) (type : Ty) {first second : Code}
    (climbsFirst : Climbs functions first [left] 0)
    (climbsSecond : Climbs functions second [right] 0) :
    Climbs functions (Code.combine operator type first second) [.unknown] 0 := by
  have both := climbsSecond.append climbsFirst
  have modulus : Climbs functions [Code.pushInt Code.colourModulus] _ 0 := int _
  fun_cases Code.combine operator type first second
  · have sum := ((modulus.append both).operation .add rfl).operation .mod rfl
    simpa using sum
  · have difference := ((modulus.append modulus).append both).operation .sub rfl
    have shifted := (difference.operation .add rfl).operation .mod rfl
    simpa using shifted
  · have remainder := (climbsSecond.append both).operation .mod rfl
    have quotient := ((remainder.append climbsFirst).operation .sub rfl).operation .div rfl
    simpa using quotient
  · exact both.operation _ (by cases operator <;> rfl)

/-- Code that pushes a number and then a run of cells leaves so many words. -/
theorem block (count : Nat) (slot : Slot) :
    Climbs functions [Code.pushInt count, .pushBlock slot] (List.replicate count .unknown) 0 := by
  exact (int (count : Int)).andThen _ fun _ => rfl

/-- Storing a run of words takes them all from the stack. -/
theorem storeBlock (climbs : Climbs functions code (words ++ rest) opened) (slot : Slot) :
    Climbs functions
      (code ++ [Code.pushInt words.length, Code.pushInt slot.index, Code.pushInt slot.level,
        .op .sta])
      rest opened := by
  have operands := ((climbs.append (int (words.length : Int))).append
    (int (slot.index : Int))).append (int (slot.level : Int))
  have stored := operands.andThen (.op .sta) fun sketch => sketch.take?_topped words rest _
  simpa using stored

/-- A call takes the words that are passed on and leaves those of the result. -/
theorem call (climbs : Climbs functions code words 0) (names : functions function = some signature)
    (sized : signature.returns.Sized) :
    Climbs functions
      (code ++ [Code.pushInt words.length, .push (.label function), .op .call])
      (List.replicate signature.returns.size .unknown) 0 := by
  have operands : Climbs functions
      (code ++ [Code.pushInt words.length] ++ [.push (.label function)])
      (.entry function :: .number words.length :: words) 0 :=
    (climbs.append (int (words.length : Int))).andThen _ fun _ => rfl
  have called := operands.andThen (.op .call) fun sketch => sketch.act?_call 0 names sized
  simpa using called

end Climbs

/-! ### Words of a type -/

/-- Code leaves as many words as a type has cells, and no frame. -/
def Raises (functions : Functions) (code : Code) (type : Ty) : Prop :=
  ∃ words, Climbs functions code words 0 ∧ type.slots = .ok words.length

theorem Ty.slots_eq_of_castableTo (castable : type.castableTo target = true) :
    target.slots = type.slots := by
  fun_induction castableTo type target with
  | case1 => rfl
  | case2 size element targetSize targetElement inductionHypothesis =>
    rw [Bool.and_eq_true, beq_iff_eq] at castable
    rw [Ty.slots, Ty.slots, castable.1, inductionHypothesis castable.2]
  | case3 => cases castable

/-- Arguments that fit in a frame take the cells of all their types. -/
theorem frameTotal?_eq_ok {total : Nat} {types : List Ty}
    (counted : frameTotal? total types = .ok (some cells)) :
    (∀ type ∈ types, type.Sized) ∧ cells = total + (types.map Ty.size).sum := by
  induction types generalizing total with
  | nil =>
    cases counted
    exact ⟨List.forall_mem_nil _, rfl⟩
  | cons type rest inductionHypothesis =>
    rw [frameTotal?] at counted
    obtain ⟨count, isCount, counted⟩ := bind_eq_ok_iff.mp counted
    obtain rfl := Ty.size_eq_of_slots isCount
    unfold frameSum? at counted
    split at counted
    · cases counted
    · next isSum =>
      split at isSum
      · cases isSum
        obtain ⟨sized, isTotal⟩ := inductionHypothesis counted
        refine ⟨List.forall_mem_cons.mpr ⟨isCount, sized⟩, ?_⟩
        rw [isTotal, List.map_cons, List.sum_cons, Nat.add_assoc]
      · cases isSum

namespace Raises

variable {code : Code}

theorem scalar {word : Held} (isScalar : type.isArray = false)
    (climbs : Climbs functions code [word] 0) : Raises functions code type := by
  cases type with
  | base _ => exact ⟨[word], climbs, rfl⟩
  | array _ _ => cases isScalar

theorem exists_word (raises : Raises functions code type) (isScalar : type.isArray = false) :
    ∃ word, Climbs functions code [word] 0 := by
  obtain ⟨words, climbs, counted⟩ := raises
  cases type with
  | base _ =>
    obtain ⟨word, rfl⟩ := List.length_eq_one_iff.mp (Except.ok.inj counted).symm
    exact ⟨word, climbs⟩
  | array _ _ => cases isScalar

end Raises

theorem readVariable_raises {place : ScopeTree.Resolved} (written : place.type.Written) :
    Raises functions (Lexical.readVariable place) place.type := by
  obtain ⟨slot, type⟩ := place
  cases type with
  | base _ => exact .scalar rfl (Climbs.nil.andThen _ fun _ => rfl)
  | array size element =>
    have isScalar := written.flat element rfl
    have length : (List.replicate size Held.unknown).length = size := List.length_replicate
    have entered : Climbs functions [Code.pushInt size, .op .oframe] [] 1 :=
      (Climbs.int size).andThen _ fun _ => rfl
    have copied := entered.append (Climbs.block size { slot with level := slot.level + 1 })
    have stored := copied.storeBlock { index := 0, level := 0 }
    have left : Climbs functions _ (List.replicate size .unknown) 0 :=
      (stored.append (Climbs.block size { index := 0, level := 0 })).andThen (.op .cframe)
        fun _ => by rw [List.append_nil]; rfl
    rw [length] at left
    refine ⟨_, left, ?_⟩
    rw [length, show (Ty.array size element).slots = _ from written.sized, Ty.size,
      Ty.size_eq_one isScalar, Nat.mul_one]

/-- The words of expressions are as many as their types have cells in all. -/
theorem stacked_climbs (each : ∀ part ∈ parts, Raises functions part.code part.type) :
    ∃ words, Climbs functions (stacked parts) words 0 ∧
      words.length = ((parts.map Lowered.type).map Ty.size).sum := by
  induction parts with
  | nil => exact ⟨[], .nil, rfl⟩
  | cons first rest inductionHypothesis =>
    rw [List.forall_mem_cons] at each
    obtain ⟨below, climbsBelow, lengthBelow⟩ := inductionHypothesis each.2
    obtain ⟨above, climbsAbove, counted⟩ := each.1
    refine ⟨above ++ below, climbsBelow.append climbsAbove, ?_⟩
    rw [List.length_append, List.map_cons, List.map_cons, List.sum_cons, lengthBelow,
      Ty.size_eq_of_slots counted]

/-! ### Expressions -/

theorem Noted.slots_eq {found : Ty} (noted : Noted note found type) : type.slots = found.slots := by
  have isType := noted.converted
  unfold Typing.converted at isType
  split at isType
  · cases isType
    rfl
  · split at isType
    · next castable =>
      cases isType
      exact Ty.slots_eq_of_castableTo castable
    · cases isType

namespace Raises

variable {code more : Code}

theorem of_slots {other : Ty} (raises : Raises functions code type)
    (same : other.slots = type.slots) : Raises functions code other := by
  obtain ⟨words, climbs, counted⟩ := raises
  exact ⟨words, climbs, same.trans counted⟩

theorem converted (raises : Raises functions code type) (noted : Noted note type target) :
    Raises functions code target :=
  raises.of_slots noted.slots_eq

theorem literal (value : Literal) :
    Raises functions [.push (Code.literalOperand value)] (.base value.base) := by
  have pushed : ∃ word, Climbs functions [.push (Code.literalOperand value)] [word] 0 := by
    cases value <;> exact ⟨_, Climbs.nil.andThen _ fun _ => rfl⟩
  obtain ⟨word, climbs⟩ := pushed
  exact .scalar rfl climbs

/-- The elements of an array leave a word each. -/
theorem array {parts : List Lowered} {element : Ty} (isScalar : element.isArray = false)
    (same : ∀ part ∈ parts, part.type = element)
    (each : ∀ part ∈ parts, Raises functions part.code part.type)
    (fits : parts.length < Counter.bound) :
    Raises functions (stacked parts) (.array parts.length element) := by
  obtain ⟨words, climbs, length⟩ := stacked_climbs each
  have sizes : (parts.map Lowered.type).map Ty.size = List.replicate parts.length 1 := by
    rw [List.map_map, List.map_eq_replicate_iff]
    exact fun part member => Ty.size_eq_one (same part member ▸ isScalar)
  rw [sizes, List.sum_replicate_nat, Nat.mul_one] at length
  refine ⟨words, climbs, ?_⟩
  cases element with
  | base _ =>
    show Counter.multiply parts.length 1 = _
    rw [Counter.multiply, Nat.mul_one, if_pos fits, length]
  | array _ _ => cases isScalar

theorem side (which : Side) : Raises functions [.op which.opcode] .int := by
  cases which <;> exact .scalar rfl (Climbs.nil.andThen _ fun _ => rfl)

theorem read (first : Raises functions code .int) (second : Raises functions more .int) :
    Raises functions (more ++ code ++ [.op .read]) .colour := by
  obtain ⟨x, climbsX⟩ := first.exists_word rfl
  obtain ⟨y, climbsY⟩ := second.exists_word rfl
  exact .scalar rfl ((climbsY.append climbsX).operation .read rfl)

theorem randomInt (limit : Raises functions code .int) :
    Raises functions (code ++ [.op .irnd]) .int := by
  obtain ⟨word, climbs⟩ := limit.exists_word rfl
  exact .scalar rfl (climbs.andThen (.op .irnd) fun _ => rfl)

theorem index {element : Ty} (offset : Raises functions code .int)
    (isScalar : element.isArray = false) (slot : Slot) :
    Raises functions (code ++ [.pushIndexed slot]) element := by
  obtain ⟨word, climbs⟩ := offset.exists_word rfl
  exact .scalar isScalar (climbs.andThen (.pushIndexed slot) fun _ => rfl)

theorem call (each : ∀ part ∈ parts, Raises functions part.code part.type)
    (names : functions function = some signature)
    (parameters : signature.parameters = parts.map Lowered.type)
    (counted : signature.argumentSlots? = .ok (some cells)) (sized : signature.returns.Sized) :
    Raises functions
      (stacked parts ++ [Code.pushInt cells, .push (.label function), .op .call])
      signature.returns := by
  obtain ⟨words, climbs, length⟩ := stacked_climbs each
  rw [← parameters, ← Nat.zero_add (List.sum _), ← (frameTotal?_eq_ok counted).2] at length
  refine ⟨List.replicate signature.returns.size .unknown, ?_, ?_⟩
  · rw [← length]
    exact climbs.call names sized
  · rw [List.length_replicate]
    exact sized

theorem combine {operator : BinaryOperator} (takes : Typing.takesOperand operator type = true)
    (first : Raises functions code type) (second : Raises functions more type) :
    Raises functions (Code.combine operator type code more)
      (Typing.operationType operator type) := by
  have isScalar := Typing.isArray_eq_false_of_takesOperand takes
  obtain ⟨x, climbsFirst⟩ := first.exists_word isScalar
  obtain ⟨y, climbsSecond⟩ := second.exists_word isScalar
  exact .scalar (Typing.isArray_operationType isScalar)
    (climbsFirst.combine operator type climbsSecond)

theorem unary {operator : UnaryOperator} (takes : Typing.takesUnaryOperand operator type = true)
    (inside : Raises functions code type) : Raises functions (code ++ operator.code) type := by
  have isScalar := Typing.isArray_eq_false_of_takesUnaryOperand takes
  obtain ⟨word, climbs⟩ := inside.exists_word isScalar
  refine Raises.scalar isScalar (?_ : Climbs functions _ [.unknown] 0)
  cases operator with
  | not => exact climbs.andThen (.op .not) fun _ => rfl
  | negate =>
    have negated := (climbs.append (.int 0)).operation .sub rfl
    rw [List.append_assoc] at negated
    exact negated

end Raises

/-- Not an array literal with more elements than a counter can hold. -/
def Expr.isShort : Expr → Bool
  | .array _ items => decide (items.length < Counter.bound)
  | _ => true

/-- The code of an expression leaves as many words as its type has cells. -/
theorem Lowers.raises {places : String → Option ScopeTree.Resolved} {expr : Expr} {code : Code}
    (returns : ∀ name signature, functions name = some signature → signature.returns.Sized)
    (lowers : Lowers places functions expr type code)
    (good : ∀ node ∈ expr.nodes, node.isShort = true ∧
      ∀ name ∈ node.name?, ∀ place ∈ places name, place.type.Written) :
    Raises functions code type := by
  induction lowers with
  | literal noted => exact (Raises.literal _).converted noted
  | array _ isScalar _ same noted each =>
    rw [Expr.nodes, List.forall_mem_cons, forall_mem_nodesOf, List.forall_mem_map] at good
    refine Raises.converted (.array isScalar same (fun part member => ?_) ?_) noted
    · exact each part member (good.2 part member)
    · simpa [Expr.isShort] using good.1.1
  | side noted => exact (Raises.side _).converted noted
  | read _ _ noted first second =>
    rw [Expr.nodes, List.forall_mem_cons, List.forall_mem_append] at good
    exact ((first good.2.1).read (second good.2.2)).converted noted
  | randomInt _ noted inside =>
    rw [Expr.nodes, List.forall_mem_cons] at good
    exact (inside good.2).randomInt.converted noted
  | var placed noted =>
    rw [Expr.nodes, List.forall_mem_singleton] at good
    exact (readVariable_raises (good.2 _ rfl _ placed)).converted noted
  | index placed isArray _ noted inside =>
    rw [Expr.nodes, List.forall_mem_cons] at good
    have isScalar := (good.1.2 _ rfl _ placed).flat _ isArray
    exact ((inside good.2).index isScalar _).converted noted
  | call names parameters counted _ noted each =>
    rw [Expr.nodes, List.forall_mem_cons, forall_mem_nodesOf, List.forall_mem_map] at good
    exact Raises.converted (.call (fun part member => each part member (good.2 part member)) names
      parameters counted (returns _ _ names)) noted
  | group _ noted inside =>
    rw [Expr.nodes, List.forall_mem_cons] at good
    exact (inside good.2).converted noted
  | binary takes _ _ noted first second =>
    rw [Expr.nodes, List.forall_mem_cons, List.forall_mem_append] at good
    exact (Raises.combine takes (first good.2.1) (second good.2.2)).converted noted
  | unary takes _ noted inside =>
    rw [Expr.nodes, List.forall_mem_cons] at good
    exact ((inside good.2).unary takes).converted noted

/-- The code of an expression that the checker gave a type leaves as many words on the stack as
the type has cells and closes every frame that it opens. No part that the code begins with takes a
word or closes a frame that was there before. -/
theorem expression_raises_stack {emitting checking : ScopeTree} {scope : ScopeId}
    {expr typed : Expr} {type : Ty} {code : Code}
    (checked : Typing.expression checking scope expr = .ok (typed, type))
    (emitted : Code.expression emitting scope typed = .ok code)
    (follows : Code.Follows emitting checking scope typed.names)
    (written : ∀ name ∈ typed.names, ∀ place ∈ emitting.resolve? scope name, place.type.Written)
    (returns : ∀ name, ∀ signature ∈ checking.lookupFunction? name, signature.returns.Sized)
    (short : ∀ node ∈ typed.nodes, node.isShort = true) :
    (∃ words, type.slots = .ok words.length ∧ ∀ sketch : Sketch,
      sketch.run? checking.lookupFunction? code =
        some { sketch with words := words ++ sketch.words }) ∧
    ∀ part, part <+: code → ∃ words opened, ∀ sketch : Sketch,
      sketch.run? checking.lookupFunction? part =
        some { words := words ++ sketch.words, opened := sketch.opened + opened } := by
  have lowers := Code.expression_lowers follows checked emitted
  obtain ⟨words, climbs, counted⟩ := lowers.raises returns fun node isNode =>
    ⟨short node isNode, Expr.forall_name? written node isNode⟩
  exact ⟨⟨words, counted, climbs.whole⟩, climbs.parts⟩

/-- Half of a pair is passed to a function, as the checker leaves it: `f(a) / a[__random_int 2]`. -/
def sharing : Expr :=
  let note (type : Ty) : Note := { position := {}, type := some type }
  .binary (note .int)
    (.call (note .int) ⟨{}, "f"⟩ [.var (note (.array 2 .int)) "a"]) .divide
    (.index (note .int) ⟨{}, "a"⟩ (.randomInt (note .int) (.literal (note .int) (.int 2))))

/-- The scopes of a program with a function and a pair, before or after code generation. -/
def sharingScopes (label : Option String) (storage : Option Nat) : ScopeTree :=
  ⟨[{ kind := .global
      symbols := [("f", .function { parameters := [.array 2 .int], returns := .int, label }),
        ("a", .var { type := .array 2 .int, storage })] }]⟩

theorem sharingScopes_lookupFunction? (label : Option String) (storage : Option Nat)
    (name : String) :
    (sharingScopes label storage).lookupFunction? name =
      if name = "f" then some { parameters := [.array 2 .int], returns := .int, label }
      else none := by
  by_cases isFunction : name = "f"
  · subst isFunction
    rfl
  · by_cases isVariable : name = "a"
    · subst isVariable
      rfl
    · have differs := And.intro (beq_eq_false_iff_ne.mpr isFunction)
        (beq_eq_false_iff_ne.mpr isVariable)
      simp [sharingScopes, ScopeTree.lookupFunction?, ScopeTree.functionIn?, ScopeTree.get?,
        ScopeTree.global, Scope.findFunction?, Scope.find?, List.lookup_cons, isFunction, differs]

theorem expression_raises_stack_sharing :
    Typing.expression (sharingScopes none none) 0 sharing.erase = .ok (sharing, .int) ∧
    ∃ code, Code.expression (sharingScopes (some "f") (some 0)) 0 sharing = .ok code ∧
      (∃ words, Ty.int.slots = .ok words.length ∧ ∀ sketch : Sketch,
        sketch.run? (sharingScopes none none).lookupFunction? code =
          some { sketch with words := words ++ sketch.words }) ∧
      ∀ part, part <+: code → ∃ words opened, ∀ sketch : Sketch,
        sketch.run? (sharingScopes none none).lookupFunction? part =
          some { words := words ++ sketch.words, opened := sketch.opened + opened } := by
  have checked : Typing.expression (sharingScopes none none) 0 sharing.erase =
      .ok (sharing, .int) := rfl
  have emitted : Code.expression (sharingScopes (some "f") (some 0)) 0 sharing = .ok _ := rfl
  refine ⟨checked, _, emitted,
    expression_raises_stack checked emitted ⟨by decide, fun name => ?_⟩ ?_ ?_ (by decide)⟩
  · rw [sharingScopes_lookupFunction?, sharingScopes_lookupFunction?]
    by_cases isFunction : name = "f" <;> simp [isFunction]
  · have only : ∀ name ∈ sharing.names, (sharingScopes (some "f") (some 0)).resolve? 0 name =
        some ⟨⟨0, 0⟩, .array 2 .int⟩ := by decide
    intro name member place placed
    rw [only name member] at placed
    cases placed
    refine ⟨rfl, fun element isElement => ?_⟩
    cases isElement
    rfl
  · intro name signature found
    rw [sharingScopes_lookupFunction?] at found
    split at found <;> cases found
    rfl

end PadLang
