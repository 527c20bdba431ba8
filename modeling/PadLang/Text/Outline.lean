/-
This file writes a tree of named parts as indented text.

A group shows its parts on lines of their own between its brackets, each one step further
in and followed by a comma; a group without parts stays on one line.
-/

namespace PadLang

/-- A tree to be written as indented text. -/
inductive Outline where
  /-- A text that stands by itself. -/
  | leaf (text : String)
  /-- A part with its name in front. -/
  | labelled (label : String) (part : Outline)
  /-- Parts between an opening and a closing text. -/
  | group (opening : String) (parts : List Outline) (closing : String)
deriving Repr

namespace Outline

/-! ### Common shapes -/

/-- Named parts in braces, under a name. -/
def fields (name : String) (parts : List (String × Outline)) : Outline :=
  .group (name ++ " \x7b") (parts.map fun part => .labelled part.1 part.2) "\x7d"

/-- Parts in parentheses, under a name. -/
def applied (name : String) (parts : List Outline) : Outline :=
  .group (name ++ "(") parts ")"

/-- Parts in square brackets. -/
def sequence (parts : List Outline) : Outline :=
  .group "[" parts "]"

/-- A part that may be absent. -/
def possible : Option Outline → Outline
  | none => .leaf "None"
  | some part => .applied "Some" [part]

/-! ### Text -/

/-- The blanks in front of a line at some depth. -/
def indentation (depth : Nat) : String :=
  "".pushn ' ' (4 * depth)

mutual

/-- The text of an outline whose first line stands at some depth. -/
def renderAt (depth : Nat) : Outline → String
  | .leaf text => text
  | .labelled label part => label ++ ": " ++ renderAt depth part
  | .group opening [] closing => opening ++ closing
  | .group opening (first :: rest) closing =>
    opening ++ "\n" ++ renderParts (depth + 1) (first :: rest) ++ indentation depth ++ closing

/-- The lines of the parts of a group. -/
def renderParts (depth : Nat) : List Outline → String
  | [] => ""
  | part :: rest =>
    indentation depth ++ renderAt depth part ++ ",\n" ++ renderParts depth rest

end

/-- The text of an outline. -/
def render (outline : Outline) : String :=
  renderAt 0 outline

end Outline

end PadLang
