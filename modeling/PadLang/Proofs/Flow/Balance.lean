/-
This file shows that compiled code keeps to a discipline of frames.

Each instruction that control can come to from a label has a depth: the number of frames that are
open there and were opened since the label. Opening a frame adds one to the depth and closing one
takes one away, whichever way control has come, and where a function returns or the program halts
no frame is left open.
-/

import PadLang.Proofs.Flow.Program

namespace PadLang

namespace Flow

/-- Control can come to an instruction from some label. -/
def Reachable (code : Code) (counter : Nat) : Prop :=
  ∃ start name, code[start]? = some (.label name) ∧ Reaches code start counter

/-- The number of open frames after an instruction, unless it closes one where none is open. -/
def depthAfter? : Instruction → Nat → Option Nat
  | .op .oframe, depth => some (depth + 1)
  | .op .cframe, 0 => none
  | .op .cframe, depth + 1 => some depth
  | _, depth => some depth

theorem Moves.depthAfter?_eq {before : Code} {opened next : List OpenFrame}
    {instruction : Instruction} (moves : Moves before opened next instruction) :
    depthAfter? instruction opened.length = some next.length := by
  unfold Moves at moves
  split at moves
  · obtain ⟨frame, rfl, _⟩ := moves
    rfl
  · obtain ⟨frame, rfl⟩ := moves
    rfl
  · rename_i notOpening notClosing
    subst moves
    unfold depthAfter?
    split
    · exact absurd rfl notOpening
    · exact absurd rfl notClosing
    · exact absurd rfl notClosing
    · rfl

section Reachable

variable {functions : Functions} {vars : ScopeId → Vars} {parts : List Section} {counter : Nat}

/-- Control comes only to lines that it can come to. -/
theorem Arranged.live (arranged : Arranged functions vars parts)
    (reachable : Reachable (codeOf (linesOf parts)) counter) :
    ∃ line, (linesOf parts)[counter]? = some line ∧ line.place.live = true := by
  obtain ⟨start, name, isLabel, reaches⟩ := reachable
  obtain ⟨part, occupies, _⟩ := arranged.exists_occupies_of_label isLabel
  obtain ⟨line, found, live, _⟩ := arranged.reaches occupies reaches
  exact ⟨line, found, live⟩

/-- No frame is open where a function returns and where the program halts. -/
theorem Arranged.opened_eq_nil (arranged : Arranged functions vars parts) {line : Line}
    (found : (linesOf parts)[counter]? = some line)
    (ends : line.instruction = .op .ret ∨ line.instruction = .op .halt) :
    line.place.opened = [] := by
  obtain ⟨part, start, occupies, least, most⟩ := exists_occupies found
  rcases ends with isReturn | isHalt
  · exact ((arranged.flow occupies counter line least most found).leave isReturn).1
  · obtain ⟨scopes, laidOut⟩ := arranged part occupies.member
    rcases laidOut.line_cases occupies.stands counter line least most found with
      ⟨_, rfl⟩ | ⟨_, licensed⟩ | ⟨_, _, rfl⟩
    · rfl
    · have transfers := licensed.transfers
      rw [isHalt] at transfers
      exact transfers.elim
    · rfl

end Reachable

end Flow

open PadLang.Flow

/-- In compiled code every instruction that control can come to has a depth of open frames. It is
zero at labels, where a function returns and where the program halts, and each step changes it as
the instruction does, so that all ways to an instruction agree about it. -/
theorem frames_balanced {tokens : List Token} {program : Program} {product : Product}
    (read : Build.parse tokens = .ok program) (lowered : Build.lower program = .ok product) :
    ∃ depth : Nat → Nat,
      (∀ counter name, product.code[counter]? = some (.label name) → depth counter = 0) ∧
      (∀ counter next, Reachable product.code counter → Leads product.code counter next →
        ∃ instruction, product.code[counter]? = some instruction ∧
          depthAfter? instruction (depth counter) = some (depth next)) ∧
      ∀ counter, Reachable product.code counter →
        product.code[counter]? = some (.op .ret) ∨ product.code[counter]? = some (.op .halt) →
        depth counter = 0 := by
  obtain ⟨analysis, parts, main, _, _, _, assembled, code⟩ := Build.exists_assembled read lowered
  have arranged := assembled.arranged
  rw [code]
  let lines := linesOf (parts ++ [main])
  let depth (counter : Nat) : Nat :=
    ((lines[counter]?).map fun line => line.place.opened.length).getD 0
  have depth_eq {counter : Nat} {line : Line} (found : lines[counter]? = some line) :
      depth counter = line.place.opened.length := by
    simp only [depth, found, Option.map_some, Option.getD_some]
  refine ⟨depth, ?_, ?_, ?_⟩
  · intro counter name isLabel
    obtain ⟨part, occupies, _⟩ := arranged.exists_occupies_of_label isLabel
    exact depth_eq occupies.stands.left.left.head
  · intro counter next reachable leads
    obtain ⟨line, found, live⟩ := arranged.live reachable
    obtain ⟨after, isAfter, _, _, moves⟩ := leads.step arranged.flows found live
    refine ⟨line.instruction, instruction_of_line found, ?_⟩
    rw [depth_eq found, depth_eq isAfter]
    exact moves.depthAfter?_eq
  · intro counter reachable ends
    obtain ⟨line, found, _⟩ := arranged.live reachable
    have same := depth_eq found
    rw [instruction_of_line found, Option.some.injEq, Option.some.injEq] at ends
    rw [same, arranged.opened_eq_nil found ends]
    rfl

/-- The tokens of a function that returns out of a loop, and of a loop that calls it and copies an
array. -/
def searchingTokens : List Token :=
  let mark (mark : Mark) : Token := { position := {}, lexeme := "", content := .mark mark }
  let name (lexeme : String) : Token := { position := {}, lexeme, content := .mark .identifier }
  let number (value : Int) : Token :=
    { position := {}, lexeme := "", content := .literal (.int value) }
  [mark .funWord, name "f", mark .openParen, name "n", mark .colon, mark .intType,
    mark .closeParen, mark .arrow, mark .intType, mark .openCurly,
    mark .forWord, mark .openParen, mark .letWord, name "i", mark .colon, mark .intType,
    mark .assign, number 0, mark .semicolon, name "i", mark .less, name "n", mark .semicolon,
    name "i", mark .assign, name "i", mark .plus, number 1, mark .closeParen, mark .openCurly,
    mark .ifWord, mark .openParen, name "i", mark .greater, number 3, mark .closeParen,
    mark .openCurly, mark .returnWord, name "i", mark .semicolon, mark .closeCurly,
    mark .elseWord, mark .openCurly, name "n", mark .assign, name "n", mark .minus, number 1,
    mark .semicolon, mark .closeCurly, mark .closeCurly,
    mark .returnWord, number 0, mark .semicolon, mark .closeCurly,
    mark .letWord, name "a", mark .colon, mark .intType, mark .openSquare, number 2,
    mark .closeSquare, mark .assign, mark .openSquare, number 1, mark .comma, number 2,
    mark .closeSquare, mark .semicolon,
    mark .whileWord, mark .openParen, name "f", mark .openParen, name "a", mark .openSquare,
    number 1, mark .closeSquare, mark .closeParen, mark .less, number 2, mark .closeParen,
    mark .openCurly, mark .letWord, name "b", mark .colon, mark .intType, mark .openSquare,
    number 2, mark .closeSquare, mark .assign, name "a", mark .semicolon,
    name "a", mark .openSquare, number 0, mark .closeSquare, mark .assign, name "b",
    mark .openSquare, number 1, mark .closeSquare, mark .semicolon, mark .closeCurly]

theorem frames_balanced_searching :
    ∃ program product, Build.parse searchingTokens = .ok program ∧
      Build.lower program = .ok product ∧
      ∃ depth : Nat → Nat,
        (∀ counter name, product.code[counter]? = some (.label name) → depth counter = 0) ∧
        (∀ counter next, Reachable product.code counter → Leads product.code counter next →
          ∃ instruction, product.code[counter]? = some instruction ∧
            depthAfter? instruction (depth counter) = some (depth next)) ∧
        ∀ counter, Reachable product.code counter →
          product.code[counter]? = some (.op .ret) ∨ product.code[counter]? = some (.op .halt) →
          depth counter = 0 := by
  obtain ⟨product, built⟩ := Build.exists_of_isOk
    (by decide +kernel : (Build.parse searchingTokens >>= Build.lower).isOk)
  obtain ⟨program, read, lowered⟩ := bind_eq_ok_iff.mp built
  exact ⟨program, product, read, lowered, frames_balanced read lowered⟩

end PadLang
