/-
This file relates the scopes of a running program to the frames of the machine.

A frame mirrors a scope if it begins with the words of the variables of the scope, in the order of
their declaration. The names and types of these variables are the layer of the context that code
is generated in, so the place that a name has in the context leads to the words of the variable
that the name denotes. Storing words there, and storing the words of a new variable behind all
others, keeps scopes and frames in step.
-/

import PadLang.Proofs.Context
import PadLang.Proofs.Effects
import PadLang.Proofs.Meaning

namespace PadLang

variable {type target element : Ty} {value : Value} {word : Int} {bindings : Bindings}
  {name : String} {frames : List Frame} {layer : Layer} {offset : Nat}

open Machine

/-! ### Values of a type -/

namespace Ty

/-- A scalar type, or an array of scalars. -/
def isFlat : Ty → Bool
  | .base _ => true
  | .array _ element => !element.isArray

theorem size_eq_one (scalar : type.isArray = false) : type.size = 1 := by
  cases type with
  | base _ => rfl
  | array _ _ => cases scalar

theorem isArray_eq_false_of_isFlat (flat : type.isFlat = true)
    (isElement : type.element? = some element) : element.isArray = false := by
  cases type with
  | base _ => cases isElement
  | array _ _ =>
    cases isElement
    exact Bool.not_eq_true' _ ▸ flat

theorem size_eq_of_castableTo (castable : type.castableTo target = true) :
    target.size = type.size := by
  fun_induction castableTo type target with
  | case1 => rfl
  | case2 size element targetSize targetElement inductionHypothesis =>
    rw [Bool.and_eq_true, beq_iff_eq] at castable
    rw [Ty.size, Ty.size, castable.1, inductionHypothesis castable.2]
  | case3 => cases castable

theorem isArray_eq_of_castableTo (castable : type.castableTo target = true) :
    target.isArray = type.isArray := by
  cases type <;> cases target <;> first | rfl | cases castable

theorem isFlat_eq_of_castableTo (castable : type.castableTo target = true) :
    target.isFlat = type.isFlat := by
  cases type <;> cases target <;> first | rfl | cases castable | skip
  case array.array size element targetSize targetElement =>
    rw [castableTo, Bool.and_eq_true] at castable
    rw [isFlat, isFlat, isArray_eq_of_castableTo castable.2]

end Ty

/-- A value has the cells of its type, which is a scalar type or an array of scalars. -/
structure Value.Fits (value : Value) : Prop where
  length : value.cells.length = value.type.size
  flat : value.type.isFlat = true

namespace Value

theorem Fits.exists_word (fits : value.Fits) {scalar : Base}
    (isScalar : value.type = .base scalar) : ∃ word, value.cells = [word] := by
  have length := fits.length
  rw [isScalar] at length
  exact List.length_eq_one_iff.mp length

theorem Fits.length_eq (fits : value.Fits) {size : Nat}
    (isArray : value.type = .array size element) : value.cells.length = size := by
  have flat := fits.flat
  rw [isArray, Ty.isFlat, Bool.not_eq_true'] at flat
  rw [fits.length, isArray, Ty.size, Ty.size_eq_one flat, Nat.mul_one]

theorem cells_eq_of_word? (isWord : value.word? = some word) : value.cells = [word] := by
  obtain ⟨type, cells⟩ := value
  unfold word? at isWord
  split at isWord
  · next isCells =>
    cases isWord
    exact isCells
  · cases isWord

theorem isArray_eq_false_of_word? (isWord : value.word? = some word) :
    value.type.isArray = false := by
  obtain ⟨type, cells⟩ := value
  cases type with
  | base _ => rfl
  | array _ _ => cases isWord

@[simp] theorem cells_converted (note : Note) (value : Value) :
    (value.converted note).cells = value.cells := by
  unfold converted
  split <;> rfl

theorem Fits.converted {note : Note} (fits : value.Fits) (noted : Noted note value.type type) :
    (value.converted note).type = type ∧ (value.converted note).Fits := by
  have isType := noted.converted
  unfold Typing.converted at isType
  unfold Value.converted
  cases cast : note.cast with
  | none =>
    rw [cast] at isType
    cases isType
    exact ⟨rfl, fits⟩
  | some target =>
    rw [cast] at isType
    dsimp only at isType
    split at isType
    · next castable =>
      cases isType
      exact ⟨rfl, fits.length.trans (Ty.size_eq_of_castableTo castable).symm,
        (Ty.isFlat_eq_of_castableTo castable).trans fits.flat⟩
    · cases isType

end Value

/-! ### Frames of scopes -/

namespace Bindings

variable {before : Bindings}

/-- The names and types of the variables of a scope. -/
def vars (bindings : Bindings) : Vars :=
  bindings.map fun binding => (binding.1, binding.2.type)

/-- The words of the variables of a scope. -/
def cells (bindings : Bindings) : List Int :=
  bindings.flatMap fun binding => binding.2.cells

/-- All values of a scope fit their types. -/
def Fit (bindings : Bindings) : Prop := ∀ binding ∈ bindings, binding.2.Fits

theorem vars_cons (name : String) (value : Value) (rest : Bindings) :
    vars ((name, value) :: rest) = (name, value.type) :: rest.vars :=
  rfl

theorem vars_append (first second : Bindings) :
    vars (first ++ second) = first.vars ++ second.vars :=
  List.map_append

theorem cells_append (first second : Bindings) :
    cells (first ++ second) = first.cells ++ second.cells :=
  List.flatMap_append

theorem cells_cons (name : String) (value : Value) (rest : Bindings) :
    cells ((name, value) :: rest) = value.cells ++ rest.cells :=
  List.flatMap_cons

theorem Fit.length_cells (fit : bindings.Fit) : bindings.cells.length = bindings.vars.cells := by
  induction bindings with
  | nil => rfl
  | cons binding rest inductionHypothesis =>
    obtain ⟨here, others⟩ := List.forall_mem_cons.mp fit
    rw [cells_cons, List.length_append, here.length, inductionHypothesis others, vars_cons,
      Vars.cells_cons]

theorem place?_vars (value : Value) (after : Bindings)
    (absent : ∀ binding ∈ before, name ≠ binding.1) (offset : Nat) :
    Vars.place? name offset (vars (before ++ (name, value) :: after)) =
      some (offset + before.vars.cells, value.type) := by
  have missing : before.vars.place? name offset = none := by
    rw [Vars.place?_eq_none_iff, List.lookup_eq_none_iff, vars, List.forall_mem_map]
    simpa using absent
  rw [vars_append, Vars.place?_append, missing, Option.none_or, vars_cons, Vars.place?, if_pos rfl]

theorem store_append (value : Value) (after : Bindings)
    (absent : ∀ binding ∈ before, name ≠ binding.1) (words : List Int) :
    store name words (before ++ (name, value) :: after) =
      before ++ (name, { value with cells := words }) :: after := by
  induction before with
  | nil => exact if_pos rfl
  | cons binding rest inductionHypothesis =>
    obtain ⟨differs, others⟩ := List.forall_mem_cons.mp absent
    rw [List.cons_append, store, if_neg differs, inductionHypothesis others]
    rfl

/-- The first variable that bears a name, with the variables before and after it. -/
theorem exists_append_of_lookup (found : bindings.lookup name = some value) :
    ∃ before after : Bindings, bindings = before ++ (name, value) :: after ∧
      ∀ binding ∈ before, name ≠ binding.1 := by
  obtain ⟨before, after, rfl, absent⟩ := List.lookup_eq_some_iff.mp found
  exact ⟨before, after, rfl, fun binding member => by simpa using absent binding member⟩

theorem lookup_vars (bindings : Bindings) (name : String) :
    bindings.vars.lookup name = (bindings.lookup name).map Value.type := by
  induction bindings with
  | nil => rfl
  | cons binding rest inductionHypothesis =>
    rw [vars_cons, List.lookup_cons, List.lookup_cons, inductionHypothesis]
    split <;> rfl

end Bindings

/-- A frame begins with the words of the variables of a scope, which are those of a layer. -/
structure Mirror (layer : Layer) (bindings : Bindings) (frame : Frame) : Prop where
  vars : layer.vars = bindings.vars
  fit : bindings.Fit
  words : ∃ spare, frame = bindings.cells.map some ++ spare

/-- The open frames mirror the open scopes. -/
inductive Mirrors : Context → Env → List Frame → Prop where
  | nil : Mirrors [] [] []
  | cons {layer outer bindings env frame frames} (here : Mirror layer bindings frame)
      (others : Mirrors outer env frames) :
      Mirrors (layer :: outer) (bindings :: env) (frame :: frames)

/-- The innermost frame has so many cells. -/
def Room (frames : List Frame) (cells : Nat) : Prop :=
  ∀ size ∈ (frames.map List.length).head?, cells ≤ size

/-- In a frame that mirrors a scope, the words of a variable stand at its place. Other words there
are the words of the variable after it has received them. -/
theorem Mirror.variable {frame : Frame} (mirrored : Mirror layer bindings frame)
    (found : bindings.lookup name = some value) :
    ∃ before after, Vars.place? name 0 layer.vars = some (List.length before, value.type) ∧
      frame = before ++ value.cells.map some ++ after ∧ value.Fits ∧
      ∀ words : List Int, words.length = value.cells.length →
        Mirror layer (bindings.store name words) (before ++ words.map some ++ after) := by
  obtain ⟨vars, fit, spare, rfl⟩ := mirrored
  obtain ⟨ahead, behind, rfl, absent⟩ := Bindings.exists_append_of_lookup found
  obtain ⟨fitAhead, fits, fitBehind⟩ : Bindings.Fit ahead ∧ value.Fits ∧ Bindings.Fit behind := by
    rw [Bindings.Fit, List.forall_mem_append, List.forall_mem_cons] at fit
    exact fit
  have length : (ahead.cells.map some).length = ahead.vars.cells := by
    rw [List.length_map, fitAhead.length_cells]
  refine ⟨ahead.cells.map some, behind.cells.map some ++ spare, ?_, ?_, fits, ?_⟩
  · rw [vars, Bindings.place?_vars value behind absent, length, Nat.zero_add]
  · rw [Bindings.cells_append, Bindings.cells_cons, List.map_append, List.map_append,
      List.append_assoc, List.append_assoc, List.append_assoc]
  · intro words sameLength
    rw [Bindings.store_append value behind absent]
    refine ⟨?_, ?_, spare, ?_⟩
    · rw [vars, Bindings.vars_append, Bindings.vars_append]
      rfl
    · rw [Bindings.Fit, List.forall_mem_append, List.forall_mem_cons]
      exact ⟨fitAhead, ⟨sameLength.trans fits.length, fits.flat⟩, fitBehind⟩
    · rw [Bindings.cells_append, Bindings.cells_cons, List.map_append, List.map_append,
        List.append_assoc, List.append_assoc, List.append_assoc]

theorem map_length_set {level : Nat} {old new : Frame} (found : frames[level]? = some old)
    (same : new.length = old.length) :
    (frames.set level new).map List.length = frames.map List.length := by
  obtain ⟨inside, rfl⟩ := List.getElem?_eq_some_iff.mp found
  rw [List.map_set, same, ← List.getElem_map List.length, List.set_getElem_self]
  exact (List.length_map _).symm ▸ inside

/-- What stands before and after an element of a list, whatever the element is. -/
theorem exists_set_eq_append {words : List Int} {index : Nat} (inside : index < words.length) :
    ∃ front back : List Int, front.length = index ∧
      ∀ word, words.set index word = front ++ [word] ++ back := by
  refine ⟨words.take index, words.drop (index + 1),
    List.length_take_of_le (Nat.le_of_lt inside), fun word => ?_⟩
  rw [List.set_eq_take_append_cons_drop, if_pos inside, List.append_assoc, List.singleton_append]

namespace Mirrors

/-- The words of a variable stand at its place, in the frame of the scope that declares it. -/
theorem variable_from {context : Context} {env : Env} (mirrored : Mirrors context env frames)
    (found : env.find? name = some value) (level : Nat) :
    ∃ depth before after, context.placeFrom? name level =
        some
          { slot := { index := List.length before, level := level + depth }, type := value.type } ∧
      frames[depth]? = some (before ++ value.cells.map some ++ after) ∧ value.Fits ∧
      ∀ words : List Int, words.length = value.cells.length →
        Mirrors context (env.store name words)
          (frames.set depth (before ++ words.map some ++ after)) := by
  induction mirrored generalizing level with
  | nil => cases found
  | @cons layer outer bindings env frame frames here others inductionHypothesis =>
    rw [Env.find?] at found
    rw [Context.placeFrom?]
    simp only [Env.store]
    cases isHere : bindings.lookup name with
    | some _ =>
      rw [isHere] at found
      cases found
      obtain ⟨before, after, place, rfl, fits, stores⟩ := here.variable isHere
      rw [place]
      exact ⟨0, before, after, rfl, rfl, fits, fun words same => .cons (stores words same) others⟩
    | none =>
      rw [isHere] at found
      obtain ⟨depth, before, after, place, holds, fits, stores⟩ :=
        inductionHypothesis found (level + 1)
      have elsewhere : Vars.place? name 0 layer.vars = none := by
        rw [Vars.place?_eq_none_iff, here.vars, Bindings.lookup_vars, isHere]
        rfl
      rw [elsewhere]
      refine ⟨depth + 1, before, after, ?_, holds, fits,
        fun words same => .cons here (stores words same)⟩
      rw [place, Nat.add_assoc, Nat.add_comm 1 depth]

end Mirrors

/-! ### Loading and storing variables -/

theorem regroup_cells (before after : Frame) (front back : List Int) (word : Int) :
    before ++ (front ++ [word] ++ back).map some ++ after =
      (before ++ front.map some) ++ [word].map some ++ (back.map some ++ after) := by
  simp only [List.map_append, List.append_assoc]

/-- The frames keep the words of a value at a place. -/
structure Keeps (frames : List Frame) (place : ScopeTree.Resolved) (value : Value) : Prop where
  type_eq : place.type = value.type
  fits : value.Fits
  held : ∃ before after, List.length before = place.slot.index ∧
    frames[place.slot.level]? = some (before ++ value.cells.map some ++ after)

namespace Keeps

variable {frames : List Frame} {place : ScopeTree.Resolved}

theorem load (keeps : Keeps frames place value) (stack : List Int) (output : List Event) :
    Data.load? place.slot.level place.slot.index value.cells.length ⟨stack, frames, output⟩ =
      some ⟨value.cells ++ stack, frames, output⟩ := by
  obtain ⟨before, after, isIndex, isFrame⟩ := keeps.held
  rw [← isIndex]
  exact load?_eq isFrame

theorem loadAt (keeps : Keeps frames place value) (isAt : value.cells[offset]? = some word)
    (stack : List Int) (output : List Event) :
    Data.load? place.slot.level (place.slot.index + offset) 1 ⟨stack, frames, output⟩ =
      some ⟨word :: stack, frames, output⟩ := by
  obtain ⟨before, after, isIndex, isFrame⟩ := keeps.held
  obtain ⟨inside, rfl⟩ := List.getElem?_eq_some_iff.mp isAt
  obtain ⟨front, back, isOffset, split⟩ := exists_set_eq_append inside
  have cells := split value.cells[offset]
  rw [List.set_getElem_self] at cells
  rw [cells, regroup_cells] at isFrame
  have index : place.slot.index + offset = (before ++ front.map some).length := by
    rw [List.length_append, List.length_map, isIndex, isOffset]
  rw [index]
  exact load?_eq isFrame

/-- A frame on top of the others moves a place one level up. -/
theorem under (keeps : Keeps frames place value) (frame : Frame) :
    Keeps (frame :: frames) { place with slot := { place.slot with level := place.slot.level + 1 } }
      value :=
  ⟨keeps.type_eq, keeps.fits, keeps.held⟩

end Keeps

namespace Mirrors

variable {context : Context} {env : Env} {frames : List Frame}

/-- The frames keep the words of a variable at its place. -/
theorem exists_place (mirrored : Mirrors context env frames) (found : env.find? name = some value) :
    ∃ place, context.place? name = some place ∧ Keeps frames place value := by
  obtain ⟨depth, before, after, placed, isFrame, fits, _⟩ := mirrored.variable_from found 0
  rw [Nat.zero_add] at placed
  exact ⟨_, placed, rfl, fits, before, after, rfl, isFrame⟩

/-- The machine stores words where a variable that receives them is kept. -/
theorem store (mirrored : Mirrors context env frames) (found : env.find? name = some value)
    {place : ScopeTree.Resolved} (placed : context.place? name = some place) {words : List Int}
    (same : words.length = value.cells.length) :
    ∃ written, Mirrors context (env.store name words) written ∧
      written.map List.length = frames.map List.length ∧
      ∀ stack output, Data.store? place.slot.level place.slot.index words ⟨stack, frames, output⟩ =
        some ⟨stack, written, output⟩ := by
  obtain ⟨depth, before, after, isPlaced, isFrame, _, stores⟩ := mirrored.variable_from found 0
  rw [Nat.zero_add] at isPlaced
  cases placed.symm.trans isPlaced
  refine ⟨_, stores words same, map_length_set isFrame ?_, fun stack output => ?_⟩
  · simp only [List.length_append, List.length_map, same]
  · exact store?_eq isFrame (by rw [List.length_map, same])

/-- The machine stores a word where an element of an array that receives it is kept. -/
theorem storeAt (mirrored : Mirrors context env frames) (found : env.find? name = some value)
    {place : ScopeTree.Resolved} (placed : context.place? name = some place)
    (inside : offset < value.cells.length) (word : Int) :
    ∃ written, Mirrors context (env.store name (value.cells.set offset word)) written ∧
      written.map List.length = frames.map List.length ∧
      ∀ stack output, Data.store? place.slot.level (place.slot.index + offset) [word]
        ⟨stack, frames, output⟩ = some ⟨stack, written, output⟩ := by
  obtain ⟨depth, before, after, isPlaced, isFrame, _, stores⟩ := mirrored.variable_from found 0
  rw [Nat.zero_add] at isPlaced
  cases placed.symm.trans isPlaced
  have same : (value.cells.set offset word).length = value.cells.length := List.length_set
  refine ⟨_, stores _ same, map_length_set isFrame ?_, fun stack output => ?_⟩
  · simp only [List.length_append, List.length_map, same]
  · obtain ⟨front, back, rfl, split⟩ := exists_set_eq_append inside
    have cells := split value.cells[front.length]
    rw [List.set_getElem_self] at cells
    rw [cells, regroup_cells] at isFrame
    have index : before.length + front.length = (before ++ front.map some).length := by
      rw [List.length_append, List.length_map]
    rw [split, regroup_cells, index]
    exact store?_eq isFrame rfl

/-- The machine stores the words of a new variable behind those of the others. -/
theorem declare {outer : Context} (mirrored : Mirrors (layer :: outer) env frames)
    (fits : value.Fits) (room : Room frames (layer.vars.cells + value.type.size)) :
    ∃ written, Mirrors (Context.declare [(name, value.type)] (layer :: outer))
        (env.declare name value) written ∧
      written.map List.length = frames.map List.length ∧
      ∀ stack output, Data.store? 0 layer.vars.cells value.cells ⟨stack, frames, output⟩ =
        some ⟨stack, written, output⟩ := by
  cases mirrored with
  | @cons _ _ bindings env _ frames here others =>
    obtain ⟨vars, fit, spare, rfl⟩ := here
    have length : layer.vars.cells = (bindings.cells.map some).length := by
      rw [vars, List.length_map, fit.length_cells]
    have enough : value.cells.length ≤ spare.length := by
      have fitting := room _ rfl
      rw [List.length_append, ← length] at fitting
      rw [fits.length]
      omega
    obtain ⟨taken, rest, rfl, isLength⟩ : ∃ taken rest : Frame, spare = taken ++ rest ∧
        taken.length = value.cells.length :=
      ⟨_, _, (List.take_append_drop value.cells.length spare).symm, List.length_take_of_le enough⟩
    have mirror : Mirror { layer with vars := layer.vars ++ [(name, value.type)] }
        (bindings ++ [(name, value)])
        (bindings.cells.map some ++ value.cells.map some ++ rest) := by
      refine ⟨?_, ?_, rest, ?_⟩
      · rw [Bindings.vars_append, ← vars]
        rfl
      · rw [Bindings.Fit, List.forall_mem_append, List.forall_mem_singleton]
        exact ⟨fit, fits⟩
      · rw [Bindings.cells_append, Bindings.cells_cons, List.map_append, List.map_append]
        exact congrArg (· ++ rest) (congrArg _ (List.append_nil _).symm)
    refine ⟨_, .cons mirror others, ?_, fun stack output => ?_⟩
    · simp only [List.map_cons, List.length_append, List.length_map, isLength, Nat.add_assoc]
    · rw [length, ← List.append_assoc]
      exact store?_eq rfl isLength

end Mirrors

end PadLang
