/-
This file counts the words that expressions leave on the stack when variables come in between.

The code of the update of a loop is generated behind that of the body. The variables of the body
are in view then, and they were not when the update was checked. An expression still leaves as
many words as its type has cells, as long as every variable that is read as a whole has as many
cells as it had for the checker.
-/

import PadLang.Proofs.Code.Doubling
import PadLang.Proofs.Code.Heights

namespace PadLang

variable {type : Ty} {items : List Expr} {late : Vars}

/-! ### Late declarations -/

/-- An expression of a program, and the variables that are declared when its code is generated
but were not yet when it was checked. -/
structure Site where
  expr : Expr
  late : Vars

/-- A variable that is read as a whole has another number of cells among those declared late than
the checker found for it. -/
def Expr.Displaced (late : Vars) (expr : Expr) : Prop :=
  ∃ note name noted declared, .var note name ∈ expr.nodes ∧ note.type = some noted ∧
    late.lookup name = some declared ∧ declared.size ≠ noted.size

theorem Expr.Displaced.mono {part whole : Expr} (displaced : part.Displaced late)
    (within : part.nodes ⊆ whole.nodes) : whole.Displaced late := by
  obtain ⟨note, name, noted, declared, isNode, rest⟩ := displaced
  exact ⟨note, name, noted, declared, within isNode, rest⟩

/-- Expressions that are all reached behind the same late declarations. -/
def sitesAt (late : Vars) (expressions : List Expr) : List Site :=
  expressions.map fun expr => { expr, late }

mutual

/-- The expressions of a statement. Those of the update of a loop are reached behind the
declarations in its body. -/
def Stmt.sites : Stmt → List Site
  | .assignment _ made => sitesAt [] made.expressions
  | .declaration _ made => sitesAt [] [made.value]
  | .action _ done => sitesAt [] done.expressions
  | .returnValue _ value => sitesAt [] [value]
  | .block _ body => body.sites
  | .function _ _ body => body.sites
  | .conditional _ condition first none => sitesAt [] [condition] ++ first.sites
  | .conditional _ condition first (some second) =>
    sitesAt [] [condition] ++ first.sites ++ second.sites
  | .forLoop _ init condition update (.mk _ _ body) =>
    sitesAt [] (init.toList.map Declaration.value) ++ sitesAt [] [condition] ++ sitesOf body ++
      sitesAt (declaredBy body) (update.toList.flatMap Assignment.expressions)
  | .whileLoop _ condition body => sitesAt [] [condition] ++ body.sites

/-- The expressions of a block. -/
def Block.sites : Block → List Site
  | .mk _ _ body => sitesOf body

/-- The expressions of statements. -/
def sitesOf : List Stmt → List Site
  | [] => []
  | first :: rest => first.sites ++ sitesOf rest

end

theorem sitesOf_eq_flatMap (statements : List Stmt) :
    sitesOf statements = statements.flatMap Stmt.sites := by
  induction statements with
  | nil => rfl
  | cons first rest inductionHypothesis => rw [sitesOf, inductionHypothesis, List.flatMap_cons]

theorem sitesOf_subset {part whole : List Stmt} (among : part ⊆ whole) :
    sitesOf part ⊆ sitesOf whole := by
  intro site isSite
  rw [sitesOf_eq_flatMap, List.mem_flatMap] at isSite ⊢
  obtain ⟨statement, isStatement, inside⟩ := isSite
  exact ⟨statement, among isStatement, inside⟩

/-! ### Sizes that can be counted -/

theorem Noted.sized {note : Note} {found type : Ty} (noted : Noted note found type)
    (sized : type.Sized) : found.Sized := by
  have counted : found.slots = .ok type.size := noted.slots_eq.symm.trans sized
  rw [Ty.Sized, counted, Ty.size_eq_of_slots counted]

theorem Ty.sized_of_scalar (isScalar : type.isArray = false) : type.Sized := by
  cases type with
  | base _ => rfl
  | array _ _ => cases isScalar

theorem Ty.Sized.length_lt {length : Nat} {element : Ty} (sized : (Ty.array length element).Sized)
    (isScalar : element.isArray = false) : length < Counter.bound := by
  cases element with
  | base _ =>
    have counted : Counter.multiply length 1 = .ok _ := sized
    unfold Counter.multiply at counted
    split at counted
    · omega
    · cases counted
  | array _ _ => cases isScalar

/-! ### Words of arguments -/

/-- All variables of a context are of types that programs can write. -/
def Context.Written (context : Context) : Prop :=
  ∀ layer ∈ context, ∀ entry ∈ layer.vars, entry.2.Written

namespace Context

variable {context : Context} {late : Vars} {name : String} {found : Denoted}

theorem Written.of_find? (written : context.Written) (denotes : context.find? name = some found) :
    found.type.Written := by
  obtain ⟨layer, isLayer, _, isEntry⟩ := exists_layer_of_find? denotes
  exact written layer isLayer _ isEntry

theorem Written.declare (written : context.Written) (more : ∀ entry ∈ late, entry.2.Written) :
    (context.declare late).Written := by
  cases context with
  | nil => exact written
  | cons layer outer =>
    obtain ⟨here, around⟩ := List.forall_mem_cons.mp written
    exact List.forall_mem_cons.mpr ⟨List.forall_mem_append.mpr ⟨here, more⟩, around⟩

theorem Written.open (written : context.Written) (scope : ScopeId) (vars : Vars)
    (more : ∀ entry ∈ vars, entry.2.Written) :
    Context.Written ({ scope, vars } :: context) :=
  List.forall_mem_cons.mpr ⟨more, written⟩

/-- A name keeps the type of its variable, or it denotes a variable that is declared late. -/
theorem exists_place_declare (denotes : context.find? name = some found) (late : Vars) :
    ∃ place, (context.declare late).place? name = some place ∧
      (place.type = found.type ∨ late.lookup name = some place.type) := by
  obtain ⟨other, denotesOther⟩ := exists_find?_declare denotes late
  obtain ⟨place, placed, sameType⟩ := Code.exists_place denotesOther
  refine ⟨place, placed, sameType ▸ ?_⟩
  cases context with
  | nil => cases denotes
  | cons layer outer =>
    rw [find?] at denotes
    rw [declare, find?, List.lookup_append] at denotesOther
    cases isHere : layer.vars.lookup name with
    | some type =>
      rw [isHere] at denotes denotesOther
      cases denotes
      cases denotesOther
      exact .inl rfl
    | none =>
      rw [isHere, Option.none_or] at denotesOther
      rw [isHere] at denotes
      cases isLate : late.lookup name with
      | some type =>
        rw [isLate] at denotesOther
        cases denotesOther
        exact .inr rfl
      | none =>
        rw [isLate] at denotesOther
        cases denotes.symm.trans denotesOther
        exact .inl rfl

end Context

namespace Lexical

variable {functions : Functions} {context : Context} {typed : List (Expr × Ty)}

theorem backwards_eq_stacked {parts : List Lowered}
    (codes : ∀ part ∈ parts, part.code = expression functions context part.expr) :
    backwards functions context (parts.map Lowered.expr) = stacked parts := by
  induction parts with
  | nil => rfl
  | cons part rest inductionHypothesis =>
    rw [List.forall_mem_cons] at codes
    rw [List.map_cons, backwards, inductionHypothesis codes.2, stacked, codes.1]

/-- Expressions with types, and their code in a context. -/
def lowered (functions : Functions) (context : Context) (typed : List (Expr × Ty)) :
    List Lowered :=
  typed.map fun pair => ⟨pair.1, pair.2, expression functions context pair.1⟩

theorem forall_mem_lowered {good : Lowered → Prop} :
    (∀ part ∈ lowered functions context typed, good part) ↔
      ∀ pair ∈ typed, good ⟨pair.1, pair.2, expression functions context pair.1⟩ :=
  List.forall_mem_map

theorem map_expr_lowered (typed : List (Expr × Ty)) :
    (lowered functions context typed).map Lowered.expr = typed.map Prod.fst :=
  List.map_map

theorem map_type_lowered (typed : List (Expr × Ty)) :
    (lowered functions context typed).map Lowered.type = typed.map Prod.snd :=
  List.map_map

theorem backwards_eq_stacked_lowered (areItems : typed.map Prod.fst = items) :
    backwards functions context items = stacked (lowered functions context typed) := by
  rw [← backwards_eq_stacked (forall_mem_lowered.mpr fun _ _ => rfl), map_expr_lowered, areItems]

end Lexical

theorem subset_nodesOf {item : Expr} (member : item ∈ items) : item.nodes ⊆ nodesOf items := by
  rw [nodesOf_eq_flatMap]
  exact fun node isNode => List.mem_flatMap.mpr ⟨item, member, isNode⟩

/-- The arguments of every function fit in a frame. -/
def Callable (functions : Functions) : Prop :=
  ∀ name signature, functions name = some signature →
    signature.argumentSlots? = .ok (some signature.cells)

/-- Unless a variable is displaced, the code of an expression leaves as many words as its type has
cells. -/
theorem expression_raises {functions : Functions} (callable : Callable functions)
    {context : Context} (written : context.Written) (writtenLate : ∀ entry ∈ late, entry.2.Written)
    {expr : Expr} (typed : HasType functions context expr type) (sized : type.Sized)
    (steady : ¬expr.Displaced late) :
    Raises functions (Lexical.expression functions (context.declare late) expr) type := by
  have inside {part whole : Expr} (steady : ¬whole.Displaced late)
      (within : part.nodes ⊆ whole.nodes) : ¬part.Displaced late :=
    fun displaced => steady (displaced.mono within)
  induction typed with
  | literal noted => exact (Raises.literal _).converted noted
  | @array note items element type _ isScalar _ noted each =>
    have areItems : (items.map fun item => (item, element)).map Prod.fst = items := by
      rw [List.map_map]
      exact List.map_id items
    rw [Lexical.expression, Lexical.backwards_eq_stacked_lowered areItems]
    have length : (Lexical.lowered functions (context.declare late)
        (items.map fun item => (item, element))).length = items.length := by
      rw [Lexical.lowered, List.length_map, List.length_map]
    rw [← length] at noted
    refine Raises.converted (.array isScalar ?_ ?_ ?_) noted
    · exact Lexical.forall_mem_lowered.mpr (List.forall_mem_map.mpr fun _ _ => rfl)
    · refine Lexical.forall_mem_lowered.mpr (List.forall_mem_map.mpr fun item member => ?_)
      exact each item member (Ty.sized_of_scalar isScalar) (inside steady
        (List.subset_cons_of_subset _ (subset_nodesOf member)))
    · exact (noted.sized sized).length_lt isScalar
  | @side note which type noted =>
    cases which with
    | width => exact (Raises.side .width).converted noted
    | height => exact (Raises.side .height).converted noted
  | read _ _ noted first second =>
    exact ((first rfl (inside steady (List.subset_cons_of_subset _
      (List.subset_append_left _ _)))).read (second rfl (inside steady
        (List.subset_cons_of_subset _ (List.subset_append_right _ _))))).converted noted
  | randomInt _ noted limit =>
    exact (limit rfl (inside steady (List.subset_cons_self _ _))).randomInt.converted noted
  | @var note name found type denotes noted =>
    obtain ⟨place, placed, isType⟩ := Context.exists_place_declare denotes late
    rw [Lexical.expression, Lexical.atPlace, placed]
    rcases isType with isType | isLate
    · have isWritten := isType ▸ written.of_find? denotes
      exact (readVariable_raises isWritten).converted (isType ▸ noted)
    · have isWritten := writtenLate _ (Vars.mem_of_lookup isLate)
      have same : place.type.size = type.size := by
        by_contra differs
        exact steady ⟨note, name, type, place.type, List.mem_singleton_self _, noted.noted, isLate,
          differs⟩
      refine (readVariable_raises isWritten).of_slots ?_
      rw [isWritten.sized, sized, same]
  | index denotes isArray _ noted offset =>
    obtain ⟨place, placed, _⟩ := Context.exists_place_declare denotes late
    have isScalar := (written.of_find? denotes).flat _ isArray
    rw [Lexical.expression, Lexical.atPlace, placed]
    exact ((offset rfl (inside steady (List.subset_cons_self _ _))).index isScalar _).converted
      noted
  | @call note function items signature type names arity _ noted each =>
    have counted := callable _ _ names
    have areItems := List.map_fst_zip (Nat.le_of_eq arity.symm)
    have areTypes := List.map_snd_zip (Nat.le_of_eq arity)
    rw [Lexical.expression, Lexical.call, names,
      Lexical.backwards_eq_stacked_lowered areItems]
    refine Raises.converted (.call ?_ names ?_ counted (noted.sized sized)) noted
    · refine Lexical.forall_mem_lowered.mpr fun pair member => ?_
      have isItem : pair.1 ∈ items := (List.of_mem_zip member).1
      exact each pair member ((frameTotal?_eq_ok counted).1 _ (List.of_mem_zip member).2)
        (inside steady (List.subset_cons_of_subset _ (subset_nodesOf isItem)))
    · rw [Lexical.map_type_lowered, areTypes]
  | group _ noted within =>
    exact (within (noted.sized sized) (inside steady (List.subset_cons_self _ _))).converted noted
  | @binary note left operator right operand type takes typedLeft _ noted first second =>
    have isSized := Ty.sized_of_scalar (Typing.isArray_eq_false_of_takesOperand takes)
    rw [Lexical.expression, typedLeft.type?_eq]
    exact (Raises.combine takes
      (first isSized (inside steady (List.subset_cons_of_subset _ (List.subset_append_left _ _))))
      (second isSized (inside steady
        (List.subset_cons_of_subset _ (List.subset_append_right _ _))))).converted noted
  | @unary note operator operand found type takes _ noted within =>
    have raises := (within (noted.sized sized)
      (inside steady (List.subset_cons_self _ _))).unary takes
    cases operator <;> exact raises.converted noted

end PadLang
