/-
This file states the rules by which programs are well typed.

The rules speak about syntax alone. What is visible at a place is a list of scopes, each with
the variables declared in it so far; nothing is opened, declared or reported. An expression has
a type by the rule of its form and the conversion it asks for. A scope may hold variables if
their names are distinct, none of them is the name of a function, and a frame can hold their
cells; that is asked of all the declarations of a scope at once, whether they can be reached or
not. Functions are visible everywhere, stand at the top level only, see nothing around them and
must return on every path.
-/

import PadLang.Proofs.Pruning

namespace PadLang

variable {statements : List Stmt} {operand : Ty}

/-! ### Operators and conversions -/

/-- An operator takes two operands of a type and gives a result of another. -/
inductive Operates : BinaryOperator → Ty → Ty → Prop where
  | or : Operates .or .bool .bool
  | and : Operates .and .bool .bool
  | equal (operand : Base) : Operates .equal (.base operand) .bool
  | notEqual (operand : Base) : Operates .notEqual (.base operand) .bool
  | less (operand : Base) : Operates .less (.base operand) .bool
  | lessOrEqual (operand : Base) : Operates .lessOrEqual (.base operand) .bool
  | greater (operand : Base) : Operates .greater (.base operand) .bool
  | greaterOrEqual (operand : Base) : Operates .greaterOrEqual (.base operand) .bool
  | add (operand : Base) : Operates .add (.base operand) (.base operand)
  | subtract (operand : Base) : Operates .subtract (.base operand) (.base operand)
  | multiply {operand : Base} (number : operand ≠ .colour) :
      Operates .multiply (.base operand) (.base operand)
  | divide {operand : Base} (number : operand ≠ .colour) :
      Operates .divide (.base operand) (.base operand)

/-- An operator takes one operand of a type and gives a result of the same type. -/
inductive OperatesOn : UnaryOperator → Ty → Prop where
  | not : OperatesOn .not .bool
  | negate {operand : Base} (number : operand ≠ .bool) : OperatesOn .negate (.base operand)

/-- A value of the first type can be converted to the second. -/
inductive Converts : Ty → Ty → Prop where
  | scalar (source target : Base) : Converts (.base source) (.base target)
  | array {size : Nat} {source target : Ty} (each : Converts source target) :
      Converts (.array size source) (.array size target)

/-- An expression of a type is of another after the conversion it asks for, if any. -/
inductive Note.Gives (note : Note) (found : Ty) : Ty → Prop where
  | plain (unconverted : note.cast = none) : Note.Gives note found found
  | cast {target : Located Ty} (asks : note.cast = some target)
      (converts : Converts found target.value) : Note.Gives note found target.value

/-! ### Expressions -/

/-- The variables visible at a place, by the scopes around it, the innermost first. -/
abbrev Visible := List Vars

namespace Visible

/-- The type of the variable that a name stands for: that of the innermost scope that has it. -/
def find? (name : String) : Visible → Option Ty
  | [] => none
  | vars :: outer =>
    match vars.lookup name with
    | some type => some type
    | none => find? name outer

/-- What is visible after declarations in the innermost scope. -/
def declare (added : Vars) : Visible → Visible
  | [] => []
  | vars :: outer => (vars ++ added) :: outer

end Visible

/-- An expression is of a type where some variables are visible. -/
inductive OfType (functions : Functions) (visible : Visible) : Expr → Ty → Prop where
  | literal {note value type} (gives : note.Gives (.base value.base) type) :
      OfType functions visible (.literal note value) type
  | array {note items type} {element : Base} (nonempty : items ≠ [])
      (each : ∀ item ∈ items, OfType functions visible item (.base element))
      (gives : note.Gives (.array items.length (.base element)) type) :
      OfType functions visible (.array note items) type
  | side {note which type} (gives : note.Gives .int type) :
      OfType functions visible (.side note which) type
  | read {note x y type} (first : OfType functions visible x .int)
      (second : OfType functions visible y .int) (gives : note.Gives .colour type) :
      OfType functions visible (.read note x y) type
  | randomInt {note limit type} (bound : OfType functions visible limit .int)
      (gives : note.Gives .int type) : OfType functions visible (.randomInt note limit) type
  | var {note name found type} (declared : visible.find? name = some found)
      (gives : note.Gives found type) : OfType functions visible (.var note name) type
  | index {note name offset size element type}
      (declared : visible.find? name.value = some (.array size element))
      (place : OfType functions visible offset .int) (gives : note.Gives element type) :
      OfType functions visible (.index note name offset) type
  | call {note function items signature type}
      (names : functions function.value = some signature)
      (arity : items.length = signature.parameters.length)
      (each : ∀ pair ∈ items.zip signature.parameters, OfType functions visible pair.1 pair.2)
      (gives : note.Gives signature.returns type) :
      OfType functions visible (.call note function items) type
  | group {note inner found type} (inside : OfType functions visible inner found)
      (gives : note.Gives found type) : OfType functions visible (.group note inner) type
  | binary {note left operator right operand result type}
      (first : OfType functions visible left operand)
      (second : OfType functions visible right operand)
      (operates : Operates operator operand result) (gives : note.Gives result type) :
      OfType functions visible (.binary note left operator right) type
  | unary {note operator operand found type} (inside : OfType functions visible operand found)
      (operates : OperatesOn operator found) (gives : note.Gives found type) :
      OfType functions visible (.unary note operator operand) type

/-! ### Statements -/

/-- An assignment gives a variable, or an element of an array, a value of its type. -/
def Assignment.WellTyped (functions : Functions) (visible : Visible) (made : Assignment) : Prop :=
  match made.index with
  | none => ∃ type, visible.find? made.target.value = some type ∧
      OfType functions visible made.value type
  | some index => ∃ size element, visible.find? made.target.value = some (.array size element) ∧
      OfType functions visible index .int ∧ OfType functions visible made.value element

/-- The operands of an action have the types it takes; anything can be printed. -/
def Action.WellTyped (functions : Functions) (visible : Visible) : Action → Prop
  | .print value => ∃ type, OfType functions visible value type
  | .delay milliseconds => OfType functions visible milliseconds .int
  | .write x y colour =>
    OfType functions visible x .int ∧ OfType functions visible y .int ∧
      OfType functions visible colour .colour
  | .writeBox x y width height colour =>
    OfType functions visible x .int ∧ OfType functions visible y .int ∧
      OfType functions visible width .int ∧ OfType functions visible height .int ∧
        OfType functions visible colour .colour
  | .clear colour => OfType functions visible colour .colour

/-- A declaration gives its variable a value of the declared type. -/
def Declaration.WellTyped (functions : Functions) (visible : Visible) (made : Declaration) : Prop :=
  OfType functions visible made.value made.type.value

/-- Variables that one scope may hold. -/
structure Declarable (functions : Functions) (vars : Vars) : Prop where
  distinct : (vars.map Prod.fst).Nodup
  unshared : ∀ name ∈ vars.map Prod.fst, functions name = none
  fits : vars.cells < Counter.bound

mutual

/-- A statement that stands below the top level, or no function, is well typed. -/
def Stmt.WellTyped (functions : Functions) (returns : Option Ty) (visible : Visible) : Stmt → Prop
  | .assignment _ made => made.WellTyped functions visible
  | .declaration _ made => made.WellTyped functions visible
  | .action _ done => done.WellTyped functions visible
  | .returnValue _ value => ∃ type, returns = some type ∧ OfType functions visible value type
  | .block _ body => body.WellTyped functions returns visible
  | .function _ _ _ => False
  | .conditional _ condition first none =>
    OfType functions visible condition .bool ∧ first.WellTyped functions returns visible
  | .conditional _ condition first (some second) =>
    OfType functions visible condition .bool ∧ first.WellTyped functions returns visible ∧
      second.WellTyped functions returns visible
  | .whileLoop _ condition body =>
    OfType functions visible condition .bool ∧ body.WellTyped functions returns visible
  -- one scope holds the variable of the loop and those of its body, but the clauses come first
  | .forLoop _ init condition update (.mk _ _ body) =>
    Declarable functions (initVars init ++ declaredBy body) ∧
      (∀ made ∈ init, made.WellTyped functions ([] :: visible)) ∧
      OfType functions (initVars init :: visible) condition .bool ∧
      (∀ made ∈ update, made.WellTyped functions (initVars init :: visible)) ∧
      allWellTyped functions returns (initVars init :: visible) body

/-- A block is well typed in a scope of its own. -/
def Block.WellTyped (functions : Functions) (returns : Option Ty) (visible : Visible) :
    Block → Prop
  | .mk _ _ body =>
    Declarable functions (declaredBy body) ∧ allWellTyped functions returns ([] :: visible) body

/-- Statements that follow one another are well typed. -/
def allWellTyped (functions : Functions) (returns : Option Ty) (visible : Visible) :
    List Stmt → Prop
  | [] => True
  | first :: rest =>
    first.WellTyped functions returns visible ∧
      allWellTyped functions returns (visible.declare first.declares) rest

end

/-! ### Functions inside statements -/

mutual

/-- No function is defined in a statement. -/
def Stmt.Plain : Stmt → Prop
  | .assignment _ _ | .declaration _ _ | .action _ _ | .returnValue _ _ => True
  | .block _ body => body.Plain
  | .function _ _ _ => False
  | .conditional _ _ first none => first.Plain
  | .conditional _ _ first (some second) => first.Plain ∧ second.Plain
  | .forLoop _ _ _ _ body => body.Plain
  | .whileLoop _ _ body => body.Plain

/-- No function is defined in a block. -/
def Block.Plain : Block → Prop
  | .mk _ _ body => allPlain body

/-- No function is defined in any of the statements. -/
def allPlain : List Stmt → Prop
  | [] => True
  | first :: rest => first.Plain ∧ allPlain rest

end

theorem allPlain_iff : allPlain statements ↔ ∀ statement ∈ statements, statement.Plain := by
  induction statements with
  | nil => simp [allPlain]
  | cons first rest inductionHypothesis =>
    rw [allPlain, inductionHypothesis, List.forall_mem_cons]

mutual

theorem Stmt.WellTyped.plain {functions : Functions} {returns : Option Ty} {visible : Visible}
    {statement : Stmt} (typed : statement.WellTyped functions returns visible) :
    statement.Plain := by
  match statement with
  | .assignment _ _ | .declaration _ _ | .action _ _ | .returnValue _ _ => trivial
  | .block _ body => exact Block.WellTyped.plain typed
  | .function _ _ _ => exact typed
  | .conditional _ _ first none => exact typed.2.plain
  | .conditional _ _ first (some second) => exact ⟨typed.2.1.plain, typed.2.2.plain⟩
  | .whileLoop _ _ body => exact typed.2.plain
  | .forLoop _ _ _ _ (.mk _ _ body) => exact allWellTyped.plain typed.2.2.2.2

theorem Block.WellTyped.plain {functions : Functions} {returns : Option Ty} {visible : Visible}
    {block : Block} (typed : block.WellTyped functions returns visible) : block.Plain := by
  match block with
  | .mk _ _ body => exact allWellTyped.plain typed.2

theorem allWellTyped.plain {functions : Functions} {returns : Option Ty} {visible : Visible}
    {statements : List Stmt} (typed : allWellTyped functions returns visible statements) :
    allPlain statements := by
  match statements with
  | [] => trivial
  | first :: rest => exact ⟨Stmt.WellTyped.plain typed.1, allWellTyped.plain typed.2⟩

end

/-! ### Programs -/

/-- The header of a function. -/
def Stmt.header? : Stmt → Option Header
  | .function _ header _ => some header
  | .assignment _ _ | .declaration _ _ | .action _ _ | .returnValue _ _ | .block _ _
  | .conditional _ _ _ _ | .forLoop _ _ _ _ _ | .whileLoop _ _ _ => none

theorem exists_function_of_header {header : Header}
    (member : header ∈ statements.filterMap Stmt.header?) :
    ∃ span body, .function span header body ∈ statements := by
  obtain ⟨statement, isStatement, isHeader⟩ := List.mem_filterMap.mp member
  cases statement with
  | function span other body =>
    cases isHeader
    exact ⟨span, body, isStatement⟩
  | _ => cases isHeader

/-- The names of the functions among statements. -/
def functionNames (statements : List Stmt) : List String :=
  (statements.filterMap Stmt.header?).map fun header => header.name.value

/-- The functions among statements, by their names. -/
def functionsOf (statements : List Stmt) : Functions := fun name =>
  ((statements.filterMap Stmt.header?).find? fun header => header.name.value == name).map
    Typing.signatureOf

/-- A function at the top level is well typed. -/
structure WellTypedFunction (functions : Functions) (header : Header) (body : Block) : Prop where
  parameters : Declarable functions (parameterVars header.parameters)
  typed : body.WellTyped functions (some header.returns.value) [parameterVars header.parameters]
  returns : body.alwaysReturns = true

/-- A program is well typed. -/
structure Program.WellTyped (program : Program) : Prop where
  distinct : (functionNames program.statements).Nodup
  unreserved : "main" ∉ functionNames program.statements
  functions : ∀ span header body, .function span header body ∈ program.statements →
    WellTypedFunction (functionsOf program.statements) header body
  globals : Declarable (functionsOf program.statements) (declaredBy program.statements)
  statements : allWellTyped (functionsOf program.statements) none [[]]
    (program.statements.filter fun statement => !statement.isFunction)

/-! ### What the rules decide -/

theorem operates_iff {operator : BinaryOperator} {result : Ty} :
    Operates operator operand result ↔
      Typing.takesOperand operator operand = true ∧
        result = Typing.operationType operator operand := by
  constructor
  · intro operates
    cases operates <;> simp_all [Typing.takesOperand, Typing.operationType, Ty.isArray]
  · rintro ⟨takes, rfl⟩
    cases operand with
    | array size element => cases operator <;> cases takes
    | base operand =>
      cases operator with
      | or =>
        obtain rfl : operand = .bool := by simpa [Typing.takesOperand] using takes
        exact .or
      | and =>
        obtain rfl : operand = .bool := by simpa [Typing.takesOperand] using takes
        exact .and
      | equal => exact .equal operand
      | notEqual => exact .notEqual operand
      | less => exact .less operand
      | lessOrEqual => exact .lessOrEqual operand
      | greater => exact .greater operand
      | greaterOrEqual => exact .greaterOrEqual operand
      | add => exact .add operand
      | subtract => exact .subtract operand
      | multiply => exact .multiply (by simpa [Typing.takesOperand, Ty.isArray] using takes)
      | divide => exact .divide (by simpa [Typing.takesOperand, Ty.isArray] using takes)

theorem operatesOn_iff {operator : UnaryOperator} :
    OperatesOn operator operand ↔ Typing.takesUnaryOperand operator operand = true := by
  constructor
  · intro operates
    cases operates <;> simp_all [Typing.takesUnaryOperand, Ty.isArray]
  · intro takes
    cases operand with
    | array size element => cases operator <;> cases takes
    | base operand =>
      cases operator with
      | not =>
        obtain rfl : operand = .bool := by simpa [Typing.takesUnaryOperand] using takes
        exact .not
      | negate => exact .negate (by simpa [Typing.takesUnaryOperand, Ty.isArray] using takes)

theorem converts_iff {source target : Ty} : Converts source target ↔ source.castableTo target := by
  constructor
  · intro converts
    induction converts with
    | scalar source target => rfl
    | array each inductionHypothesis => simpa [Ty.castableTo] using inductionHypothesis
  · intro castable
    induction source generalizing target with
    | base source =>
      cases target with
      | base target => exact .scalar source target
      | array size element => cases castable
    | array size source inductionHypothesis =>
      cases target with
      | base target => cases castable
      | array other target =>
        rw [Ty.castableTo, Bool.and_eq_true, beq_iff_eq] at castable
        obtain ⟨rfl, each⟩ := castable
        exact .array (inductionHypothesis each)

theorem Note.gives_iff {note : Note} {found type : Ty} :
    note.Gives found type ↔ Typing.converted note found = .ok type := by
  unfold Typing.converted
  constructor
  · intro gives
    cases gives with
    | plain unconverted => rw [unconverted]
    | cast asks converts =>
      rw [asks]
      exact if_pos (converts_iff.mp converts)
  · intro converted
    split at converted
    · rename_i unconverted
      cases converted
      exact .plain unconverted
    · rename_i target asks
      split at converted
      · rename_i castable
        cases converted
        exact .cast asks (converts_iff.mpr castable)
      · cases converted

end PadLang
