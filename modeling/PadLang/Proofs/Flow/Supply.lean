/-
This file follows one frame through the code that is generated from contexts.

The frame is that of a layer of the context, and its level is the position of the layer. At each
statement all variables that the layer has there have been provided: a declaration in the layer
stores the next variable as a whole, and other statements leave the frame as they find it. What a
loop declares in a round is forgotten when the next one begins. The update of the loop still finds
it provided, since it stands behind the body. So every variable that a name denotes has been
provided where it is read.
-/

import PadLang.Proofs.Flow.Ways

namespace PadLang

variable {name : String} {place : ScopeTree.Resolved} {layer : Layer} {outer : Context}
  {index : Nat} {type : Ty}

/-- A variable is one of those declared before, or it is the last one and comes behind them. -/
theorem Vars.place?_concat {vars : Vars} {other : String} {found : Ty} {offset : Nat}
    (isPlace : place? name offset (vars ++ [(other, type)]) = some (index, found)) :
    place? name offset vars = some (index, found) ∨ index = offset + vars.cells ∧ found = type := by
  rw [place?_append, Option.or_eq_some_iff] at isPlace
  refine isPlace.imp id fun ⟨_, isLast⟩ => ?_
  rw [place?] at isLast
  split at isLast
  · cases isLast
    exact ⟨rfl, rfl⟩
  · cases isLast

namespace Flow

open Code (pushInt)

/-! ### The frame that is followed -/

/-- The layer whose frame lies so many levels up has these variables. -/
def Tracks (context : Context) (level : Nat) (vars : Vars) : Prop :=
  (context[level]?).map Layer.vars = some vars

/-- All variables begin where the frame has variables. -/
def Locates (located : Nat → Nat → Prop) (vars : Vars) : Prop :=
  ∀ name index type, vars.place? name 0 = some (index, type) → located index type.words

/-- The variables of the frame so many levels up after declarations in the innermost scope. -/
def grown : Nat → Vars → Vars → Vars
  | 0, vars, added => vars ++ added
  | _ + 1, vars, _ => vars

section Tracking

variable {passed : Bool} {located : Nat → Nat → Prop} {functions : Functions} {context : Context}
  {level : Nat} {vars more added : Vars} {init : Option Declaration}

theorem Locates.of_prefix (locates : Locates located more) (earlier : vars <+: more) :
    Locates located vars :=
  fun name index type isPlace =>
    locates name index type (Vars.place?_of_prefix isPlace earlier)

@[simp] theorem grown_nil (level : Nat) (vars : Vars) : grown level vars [] = vars := by
  cases level with
  | zero => exact List.append_nil vars
  | succ level => rfl

theorem grown_append (level : Nat) (vars first second : Vars) :
    grown level vars (first ++ second) = grown level (grown level vars first) second := by
  cases level with
  | zero => exact (List.append_assoc vars first second).symm
  | succ level => rfl

theorem prefix_grown (level : Nat) (vars added : Vars) : vars <+: grown level vars added := by
  cases level with
  | zero => exact List.prefix_append vars added
  | succ level => exact List.prefix_rfl

theorem Tracks.declare (tracks : Tracks context level vars) (added : Vars) :
    Tracks (context.declare added) level (grown level vars added) := by
  cases context with
  | nil => cases tracks
  | cons layer outer =>
    cases level with
    | zero =>
      cases tracks
      rfl
    | succ level => exact tracks

/-- A name that denotes something in the frame denotes one of its variables. -/
theorem Tracks.place?_eq (tracks : Tracks context level vars)
    (found : context.place? name = some place) (isLevel : place.slot.level = level) :
    vars.place? name 0 = some (place.slot.index, place.type) := by
  obtain ⟨layer, isLayer, isPlace⟩ := Context.exists_layer found
  rw [Tracks, ← isLevel, isLayer] at tracks
  exact Option.some.inj tracks ▸ isPlace

theorem isSteady_of_isPlain {instruction : Instruction} (plain : instruction.isPlain = true) :
    instruction.isSteady = true ∧ instruction.isRead = false := by
  revert plain
  unfold Instruction.isPlain Instruction.isSteady Instruction.isRead
  split <;> simp_all

theorem readElement_maintains (tracks : Tracks context level vars) (locates : Locates located vars)
    (found : context.place? name = some place) :
    Maintains passed located level vars [.pushIndexed place.slot] := by
  refine .instruction rfl (fun path supplied isLevel => ?_) fun _ _ supplied => supplied.append rfl
  have isPlace := tracks.place?_eq found (Option.some.inj (isLevel.symm.trans supplied.level_eq))
  exact ⟨_, locates name _ _ isPlace, supplied.provided name _ _ isPlace⟩

/-- Reading a variable finds it provided. An array is copied through a frame of its own, in which
the frame that is followed lies one level further up. -/
theorem readVariable_maintains (tracks : Tracks context level vars) (locates : Locates located vars)
    (found : context.place? name = some place) :
    Maintains passed located level vars (Lexical.readVariable place) := by
  obtain ⟨slot, type⟩ := place
  cases type with
  | base scalar =>
    refine .instruction rfl (fun path supplied isLevel => ?_) fun _ _ supplied =>
      supplied.append rfl
    have isPlace := tracks.place?_eq found (Option.some.inj (isLevel.symm.trans supplied.level_eq))
    exact ⟨locates name _ _ isPlace, supplied.provided name _ _ isPlace⟩
  | array size element =>
    have loads : Maintains passed located (level + 1) vars
        [pushInt size, .pushBlock { slot with level := slot.level + 1 }] := by
      refine .readBlock fun isLevel path supplied => ?_
      have isPlace := tracks.place?_eq found (Nat.succ.inj isLevel)
      exact ⟨locates name _ _ isPlace, supplied.provided name _ _ isPlace⟩
    have stores : Maintains passed located (level + 1) vars
        [pushInt size, pushInt 0, pushInt 0, .op .sta] :=
      .steady (by simp [Instruction.isSteady, Instruction.isRead, pushInt])
    have copies : Maintains passed located (level + 1) vars
        [pushInt size, .pushBlock { index := 0, level := 0 }] :=
      .readBlock (by rintro ⟨⟩)
    exact .framed size ((loads.append stores).append copies)

theorem steady_store (type : Ty) (slot : Slot) :
    ∀ instruction ∈ Code.store type slot,
      instruction.isSteady = true ∧ instruction.isRead = false := by
  cases type <;> simp [Code.store, Instruction.isSteady, Instruction.isRead, pushInt]

theorem composes_maintains (tracks : Tracks context level vars)
    (locates : Locates located vars) :
    Lexical.Composes functions context (Maintains passed located level vars) where
  append := Secures.append
  plain {code} plain := by
    rw [List.all_eq_true] at plain
    exact .steady fun instruction member => isSteady_of_isPlain (plain instruction member)
  readVariable := readVariable_maintains tracks locates
  readElement := readElement_maintains tracks locates
  call function := by
    rw [Lexical.call]
    cases functions function with
    | none => exact .nil fun _ supplied => supplied
    | some signature =>
      exact .steady (by simp [Instruction.isSteady, Instruction.isRead, pushInt])
  store _ := .steady (steady_store _ _)
  storeElement _ := .steady (by simp [Instruction.isSteady, Instruction.isRead, pushInt])

/-! ### Statements -/

/-- A variable is stored as a whole. -/
theorem stored_store {path : Code} (isLevel : levelAfter? path = some level) :
    Stored (path ++ Code.store type { index, level }) index type.words := by
  rw [← List.append_nil (path ++ _)]
  cases type with
  | base scalar => exact .word isLevel
  | array size element => exact .block isLevel

/-- Storing the next variable of the frame provides it. -/
theorem store_secures (vars : Vars) (name : String) (type : Ty) :
    Secures passed located (Supplied passed 0 vars)
      (Code.store type { index := vars.cells, level := 0 })
      (Supplied passed 0 (vars ++ [(name, type)])) := by
  have steady := steady_store type { index := vars.cells, level := 0 }
  refine .silent steady fun path supplied => ?_
  have kept := supplied.append
    (levelFrom?_of_isSteady (fun instruction member => (steady instruction member).1) 0)
  refine ⟨kept.level_eq, fun other index found isPlace => ?_⟩
  rcases Vars.place?_concat isPlace with isEarlier | ⟨rfl, rfl⟩
  · exact kept.provided other index found isEarlier
  · rw [Nat.zero_add]
    exact .inr (stored_store supplied.level_eq)

theorem declaration_secures {made : Declaration} (tracks : Tracks (layer :: outer) level vars)
    (locates : Locates located (grown level vars (initVars (some made)))) :
    Secures passed located (Supplied passed level vars)
      (Lexical.declaration functions layer outer made)
      (Supplied passed level (grown level vars (initVars (some made)))) := by
  have composes : Lexical.Composes functions (layer :: outer)
      (Maintains passed located level vars) :=
    composes_maintains tracks (locates.of_prefix (prefix_grown _ _ _))
  refine (composes.expression made.value).append ?_
  cases level with
  | succ level => exact Maintains.steady (steady_store _ _)
  | zero =>
    cases tracks
    exact store_secures layer.vars made.name.value made.type.value

theorem loopInit_secures (tracks : Tracks (layer :: outer) level vars)
    (locates : Locates located (grown level vars (initVars init))) :
    Secures passed located (Supplied passed level vars)
      (Lexical.loopInit functions layer outer init)
      (Supplied passed level (grown level vars (initVars init))) := by
  cases init with
  | none =>
    rw [initVars, grown_nil]
    exact .nil fun _ supplied => supplied
  | some made => exact declaration_secures tracks locates

/-- A return closes frames and never comes to its end. -/
theorem returnValue_secures {value : Expr} {after : Code → Prop}
    (tracks : Tracks context level vars) (locates : Locates located vars) :
    Secures passed located (Supplied passed level vars)
      (Lexical.returnValue functions context value) after := by
  have evaluates : Maintains passed located level vars
      (Lexical.expression functions context value) :=
    (composes_maintains tracks locates).expression value
  have closes : Secures passed located (Supplied passed level vars)
      (List.replicate (context.length - 1) (.op .cframe)) fun _ => True := by
    refine .straight (fun instruction member => ?_) (fun path _ => ?_) fun _ _ => trivial
    · rw [List.eq_of_mem_replicate member]
      rfl
    · refine allReading_of_isRead (fun instruction member => ?_) path
      rw [List.eq_of_mem_replicate member]
      rfl
  exact (evaluates.append closes).append
    (.instruction rfl (fun _ _ => trivial) (by rintro ⟨⟩))

/-- The inside of a loop in its frame. The declarations of a round are no longer known when the
next one begins. -/
theorem loop_secures {scope : ScopeId} {body : List Stmt}
    (tracks : Tracks ({ scope, vars := [] } :: context) level vars)
    (locates : Locates located (grown level vars (initVars init ++ declaredBy body)))
    (rounds : Secures passed located (Supplied passed level (grown level vars (initVars init)))
      (Lexical.statements functions { scope, vars := initVars init } context body)
      (Supplied passed level (grown level vars (initVars init ++ declaredBy body))))
    (condition : Expr) (update : Option Assignment) :
    Secures passed located (Supplied passed level vars)
      (Lexical.loopInit functions { scope, vars := [] } context init ++
        Code.repeatWhile
          (Lexical.expression functions ({ scope, vars := initVars init } :: context) condition)
          (Lexical.statements functions { scope, vars := initVars init } context body ++
            Lexical.loopUpdate functions
              ({ scope, vars := initVars init ++ declaredBy body } :: context) update))
      (Supplied passed level (grown level vars (initVars init))) := by
  have earlier : grown level vars (initVars init) <+:
      grown level vars (initVars init ++ declaredBy body) := by
    rw [grown_append]
    exact prefix_grown _ _ _
  have locatesInit := locates.of_prefix earlier
  have tests : Maintains passed located level (grown level vars (initVars init))
      (Lexical.expression functions ({ scope, vars := initVars init } :: context) condition) :=
    (composes_maintains (tracks.declare (initVars init)) locatesInit).expression condition
  have updates : Maintains passed located level
      (grown level vars (initVars init ++ declaredBy body))
      (Lexical.loopUpdate functions
        ({ scope, vars := initVars init ++ declaredBy body } :: context) update) :=
    (composes_maintains (tracks.declare (initVars init ++ declaredBy body)) locates).loopUpdate
      update
  -- control comes back to the condition with more than at first, or with just as much
  exact (loopInit_secures tracks locatesInit).append (Maintains.repeatWhile tests
    ((rounds.append updates).weaken (fun _ => id) fun _ supplied => supplied.of_prefix earlier))

theorem secures_of_declares {statement : Stmt} (tracks : Tracks (layer :: outer) level vars)
    (locates : Locates located (grown level vars statement.declares))
    (declares : statement.declares ≠ []) :
    Secures passed located (Supplied passed level vars)
      (Lexical.statement functions layer outer statement)
      (Supplied passed level (grown level vars statement.declares)) := by
  cases statement with
  | declaration _ made => exact declaration_secures tracks locates
  | _ => exact absurd rfl declares

mutual

/-- A statement that declares nothing leaves the frame as it finds it. -/
theorem statement_maintains {level : Nat} {vars : Vars} {layer : Layer} {outer : Context}
    {statement : Stmt} (tracks : Tracks (layer :: outer) level vars)
    (locates : Locates located vars) (plain : statement.Plain) (silent : statement.declares = []) :
    Maintains passed located level vars (Lexical.statement functions layer outer statement) := by
  match statement with
  | .declaration _ made => cases silent
  | .assignment _ made => exact (composes_maintains tracks locates).assignment made
  | .action _ done => exact (composes_maintains tracks locates).action done
  | .returnValue _ value => exact returnValue_secures tracks locates
  | .block _ body =>
    rw [Lexical.statement]
    exact block_maintains tracks locates plain
  | .conditional _ condition first none =>
    rw [Lexical.statement]
    exact .ifThen ((composes_maintains tracks locates).expression condition)
      (block_maintains tracks locates plain)
  | .conditional _ condition first (some second) =>
    rw [Lexical.statement]
    exact .ifThenElse ((composes_maintains tracks locates).expression condition)
      (block_maintains tracks locates plain.1) (block_maintains tracks locates plain.2)
  | .whileLoop _ condition body =>
    rw [Lexical.statement]
    exact .repeatWhile ((composes_maintains tracks locates).expression condition)
      (block_maintains tracks locates plain)
  | .forLoop _ init condition update (.mk _ scope body) =>
    have entered : Tracks ({ scope := scope.getD ScopeTree.global, vars := [] } :: layer :: outer)
        (level + 1) vars := tracks
    have rounds := statements_secures (entered.declare (initVars init)) locates plain
    have framed := Maintains.framed (initVars init ++ declaredBy body).cells
      (loop_secures entered locates rounds condition update)
    rw [Lexical.statement]
    rw [← List.append_assoc] at framed
    exact framed

theorem block_maintains {level : Nat} {vars : Vars} {context : Context} {block : Block}
    (tracks : Tracks context level vars) (locates : Locates located vars) (plain : block.Plain) :
    Maintains passed located level vars (Lexical.block functions context block) := by
  match block with
  | .mk _ scope body =>
    have entered : Tracks ({ scope := scope.getD ScopeTree.global, vars := [] } :: context)
        (level + 1) vars := tracks
    rw [Lexical.block]
    exact Maintains.framed _ (statements_secures entered locates plain)

/-- Statements find the variables of the frame provided, and provide those that they declare
there. -/
theorem statements_secures {level : Nat} {vars : Vars} {layer : Layer} {outer : Context}
    {statements : List Stmt} (tracks : Tracks (layer :: outer) level vars)
    (locates : Locates located (grown level vars (declaredBy statements)))
    (plain : allPlain statements) :
    Secures passed located (Supplied passed level vars)
      (Lexical.statements functions layer outer statements)
      (Supplied passed level (grown level vars (declaredBy statements))) := by
  match statements with
  | [] =>
    rw [declaredBy_nil, grown_nil]
    exact .nil fun _ supplied => supplied
  | first :: rest =>
    rw [declaredBy_cons, grown_append] at locates ⊢
    rw [Lexical.statements]
    refine Secures.append ?_ (statements_secures (tracks.declare first.declares) locates plain.2)
    have earlier := locates.of_prefix (prefix_grown _ _ _)
    by_cases silent : first.declares = []
    · rw [silent, grown_nil] at earlier ⊢
      exact statement_maintains tracks earlier plain.1 silent
    · exact secures_of_declares tracks earlier silent

end

end Tracking

end Flow

end PadLang
