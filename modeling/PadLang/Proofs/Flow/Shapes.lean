/-
This file says which code can be laid out in lines, and how such pieces are put together.

Plain code has a shape, and so has code in a frame, a return, and code under a condition or in a
loop. A piece that reads or writes memory has a shape where the cells it names lie in an open
frame. Of the variables of a scope it is shown that a variable keeps its place when others are
declared behind it, and that it lies as a whole among the cells of its scope.
-/

import PadLang.Proofs.Code.Composition
import PadLang.Proofs.Flow.Lines
import PadLang.Proofs.Scope.Storage
import PadLang.Proofs.Typing.Rules

namespace PadLang

/-! ### Storage of variables -/

/-- The number of words that are moved at once to read or store a value. -/
def Ty.words : Ty → Nat
  | .base _ => 1
  | .array size _ => size

theorem Ty.Written.words_eq {type : Ty} (written : type.Written) : type.words = type.size := by
  cases type with
  | base scalar => rfl
  | array size element =>
    have scalar := written.flat element rfl
    cases element with
    | base _ => exact (Nat.mul_one size).symm
    | array _ _ => cases scalar

namespace Vars

variable {vars more : Vars} {name : String} {offset index : Nat} {type : Ty}

section

variable (found : vars.place? name offset = some (index, type))

include found

theorem mem_of_place? : ∃ entry ∈ vars, entry.2 = type :=
  ⟨_, mem_of_lookup (lookup_of_place? found), rfl⟩

/-- A variable ends before the cells of all variables do. -/
theorem place?_le : index + type.size ≤ offset + vars.cells := by
  induction vars generalizing offset with
  | nil => cases found
  | cons entry rest inductionHypothesis =>
    rw [place?] at found
    rw [cells_cons]
    by_cases same : name = entry.1
    · rw [if_pos same] at found
      cases found
      omega
    · rw [if_neg same] at found
      have later := inductionHypothesis found
      omega

/-- Later declarations leave a variable at its place. -/
theorem place?_of_prefix (earlier : vars <+: more) :
    more.place? name offset = some (index, type) := by
  obtain ⟨later, rfl⟩ := earlier
  rw [place?_append, found]
  rfl

end

theorem cells_le_of_prefix (earlier : vars <+: more) : vars.cells ≤ more.cells := by
  obtain ⟨later, rfl⟩ := earlier
  rw [cells_append]
  exact Nat.le_add_right _ _

end Vars

theorem ScopeTree.Opens.varsOf_eq {tree : ScopeTree} {scope around : ScopeId} {kind : ScopeKind}
    {name : Option String} {vars : Vars} (opens : tree.Opens scope around kind name vars) :
    tree.varsOf scope = vars := by
  obtain ⟨row, found, _, _, _, _, localsOf⟩ := opens
  exact ScopeTree.varsOf_eq found localsOf

namespace Flow

open Code (pushInt)

/-! ### Pieces that fit together -/

/-- Code can be laid out in lines. -/
def Shaped (functions : Functions) (vars : ScopeId → Vars) (place : Place) (code : Code)
    (leaves : Bool) (scopes : List ScopeId) : Prop :=
  ∃ lines, codeOf lines = code ∧ Laid functions vars place lines leaves scopes

namespace Shaped

variable {functions : Functions} {vars : ScopeId → Vars} {place : Place}
  {code first second test : Code} {leaves leavesLater : Bool} {scopes others : List ScopeId}

theorem straight (steady : ∀ instruction ∈ code, instruction.isSteady = true)
    (licensed : allLicensed functions vars [] (place.lines code)) :
    Shaped functions vars place code false [] :=
  ⟨place.lines code, codeOf_lines place code, .straight steady licensed⟩

theorem nil : Shaped functions vars place [] false [] :=
  straight nofun trivial

/-- Statements one after the other. -/
theorem append (earlier : Shaped functions vars place first leaves scopes)
    (later : Shaped functions vars (place.after leaves) second leavesLater others) :
    Shaped functions vars place (first ++ second) (leaves || leavesLater) (scopes ++ others) := by
  obtain ⟨lines, rfl, laid⟩ := earlier
  obtain ⟨more, rfl, laidLater⟩ := later
  exact ⟨lines ++ more, codeOf_append lines more, .append laid laidLater⟩

/-- Code behind the code of an expression. -/
theorem andThen (earlier : Shaped functions vars place first false [])
    (later : Shaped functions vars place second leaves scopes) :
    Shaped functions vars place (first ++ second) leaves scopes := by
  refine earlier.append ?_
  rw [Place.after_false]
  exact later

/-- The code of a simple statement behind other code. -/
theorem followedBy (earlier : Shaped functions vars place first leaves scopes)
    (later : Shaped functions vars (place.after leaves) second false []) :
    Shaped functions vars place (first ++ second) leaves scopes := by
  have both := earlier.append later
  rwa [Bool.or_false, List.append_nil] at both

theorem plain (isPlain : code.all Instruction.isPlain = true) :
    Shaped functions vars place code false [] := by
  rw [List.all_eq_true] at isPlain
  induction code with
  | nil => exact nil
  | cons instruction rest inductionHypothesis =>
    obtain ⟨plainFirst, plainRest⟩ := List.forall_mem_cons.mp isPlain
    have single : Shaped functions vars place [instruction] false [] := by
      unfold Instruction.isPlain at plainFirst
      refine straight (fun other member => ?_) ⟨⟨?_, ?_⟩, trivial⟩
      · rw [List.mem_singleton.mp member]
        revert plainFirst
        unfold Instruction.isSteady
        split <;> simp_all
      · unfold InBounds
        split <;> simp_all
      · unfold Transfers
        split <;> simp_all
    exact single.andThen (inductionHypothesis plainRest)

theorem framed {frame : OpenFrame}
    (sized : ∀ scope ∈ frame.scope, frame.cells = (vars scope).cells)
    (inside : Shaped functions vars (place.enter frame) code leaves scopes) :
    Shaped functions vars place ([pushInt frame.cells, .op .oframe] ++ code ++ [.op .cframe])
      leaves (frame.scope.toList ++ scopes) := by
  obtain ⟨lines, rfl, laid⟩ := inside
  exact ⟨_, by simp only [codeOf_append, codeOf_lines], .framed sized laid⟩

theorem leave (called : place.around ≠ []) :
    Shaped functions vars place (List.replicate place.opened.length (.op .cframe) ++ [.op .ret])
      true [] :=
  ⟨_, codeOf_leaving place place.opened, .leave called⟩

section

variable (tests : Shaped functions vars place test false [])

include tests

theorem ifThen (inside : Shaped functions vars place code leaves scopes) :
    Shaped functions vars place (Code.ifThen test code) false scopes := by
  obtain ⟨lines, rfl, laid⟩ := tests
  obtain ⟨body, rfl, laidBody⟩ := inside
  refine ⟨_, ?_, .ifThen laid laidBody⟩
  simp only [codeOf_append, codeOf_lines, Code.ifThen, Code.branchUnless, length_codeOf,
    List.nil_append]

theorem ifThenElse (inside : Shaped functions vars place first leaves scopes)
    (otherwise : Shaped functions vars place second leavesLater others) :
    Shaped functions vars place (Code.ifThenElse test first second) (leaves && leavesLater)
      (scopes ++ others) := by
  obtain ⟨lines, rfl, laid⟩ := tests
  obtain ⟨body, rfl, laidBody⟩ := inside
  obtain ⟨other, rfl, laidOther⟩ := otherwise
  refine ⟨_, ?_, .ifThenElse laid laidBody laidOther⟩
  simp only [codeOf_append, codeOf_lines, Code.ifThenElse, Code.branchUnless, Code.skipForward,
    length_codeOf, List.nil_append, List.length_append, List.append_assoc]
  rfl

theorem repeatWhile (inside : Shaped functions vars place code leaves scopes) :
    Shaped functions vars place (Code.repeatWhile test code) false scopes := by
  obtain ⟨lines, rfl, laid⟩ := tests
  obtain ⟨body, rfl, laidBody⟩ := inside
  refine ⟨_, ?_, .repeatWhile laid laidBody⟩
  simp only [codeOf_append, codeOf_lines, Code.repeatWhile, Code.branchUnless, length_codeOf,
    List.nil_append, List.length_append]
  rfl

end

/-! ### References to memory -/

variable {slot : Slot} {index level count : Nat}

theorem load (holds : Holds place.frames slot 1) :
    Shaped functions vars place [.pushSlot slot] false [] :=
  straight (by simp [Instruction.isSteady]) ⟨⟨holds, trivial⟩, trivial⟩

theorem loadBlock (holds : Holds place.frames slot count) :
    Shaped functions vars place [pushInt count, .pushBlock slot] false [] :=
  straight (by simp [Instruction.isSteady, pushInt])
    ⟨⟨trivial, trivial⟩, ⟨⟨count, List.suffix_rfl, holds⟩, trivial⟩, trivial⟩

theorem loadElement (holds : HoldsVariable (locatedIn vars) place.frames slot) :
    Shaped functions vars place [.pushIndexed slot] false [] :=
  straight (by simp [Instruction.isSteady]) ⟨⟨holds, trivial⟩, trivial⟩

theorem storeWord (holds : Holds place.frames { index, level } 1) :
    Shaped functions vars place [pushInt index, pushInt level, .op .st] false [] :=
  straight (by simp [Instruction.isSteady, pushInt])
    ⟨⟨trivial, trivial⟩, ⟨trivial, trivial⟩,
      ⟨.inl ⟨index, level, List.suffix_rfl, holds⟩, trivial⟩, trivial⟩

theorem storeBlock (holds : Holds place.frames { index, level } count) :
    Shaped functions vars place [pushInt count, pushInt index, pushInt level, .op .sta] false [] :=
  straight (by simp [Instruction.isSteady, pushInt])
    ⟨⟨trivial, trivial⟩, ⟨trivial, trivial⟩, ⟨trivial, trivial⟩,
      ⟨⟨count, index, level, List.suffix_rfl, holds⟩, trivial⟩, trivial⟩

theorem storeElement (holds : HoldsVariable (locatedIn vars) place.frames { index, level }) :
    Shaped functions vars place [pushInt index, .op .add, pushInt level, .op .st] false [] :=
  straight (by simp [Instruction.isSteady, pushInt])
    ⟨⟨trivial, trivial⟩, ⟨trivial, trivial⟩, ⟨trivial, trivial⟩,
      ⟨.inr ⟨index, level, List.suffix_rfl, holds⟩, trivial⟩, trivial⟩

theorem call (name : String) :
    Shaped functions vars place (Lexical.call functions name) false [] := by
  rw [Lexical.call]
  cases named : functions name with
  | none => exact nil
  | some signature =>
    exact straight (by simp [Instruction.isSteady, pushInt])
      ⟨⟨trivial, trivial⟩, ⟨trivial, trivial⟩,
        ⟨trivial, name, signature, named, List.suffix_rfl⟩, trivial⟩

end Shaped

end Flow

end PadLang
