/-
This file shows a syntax tree as an outline: every node with its place, its kind and its
parts, and with whatever analysis has filled in.
-/

import PadLang.Syntax.Basic
import PadLang.Text.Escape
import PadLang.Text.Outline
import PadLang.Binary64.Shortest

namespace PadLang

/-! ### Places, names and types -/

/-- A place in an outline. -/
def Position.outline (position : Position) : Outline :=
  .leaf position.render

/-- Something with its place, in an outline. -/
def Located.outline {α : Type} (inner : α → Outline) (located : Located α) : Outline :=
  .fields "Located" [("position", located.position.outline), ("value", inner located.value)]

namespace Syntax

/-- A bare name in an outline. -/
def nameOutline (name : String) : Outline :=
  .applied "Identifier" [.leaf (Text.quote name)]

/-- A name with its place, in an outline. -/
def identOutline (ident : Ident) : Outline :=
  ident.outline nameOutline

/-- A scope, if analysis has opened it, in an outline. -/
def scopeOutline (scope : Option ScopeId) : Outline :=
  .possible (scope.map fun id => .applied "ScopeId" [.leaf (toString id)])

end Syntax

/-- The name of a scalar type in an outline. -/
def Base.outline : Base → Outline
  | .bool => .leaf "Bool"
  | .colour => .leaf "Color"
  | .float => .leaf "Float"
  | .int => .leaf "Int"

/-- A type in an outline. -/
def Ty.outline : Ty → Outline
  | .base scalar => .applied "Base" [scalar.outline]
  | .array size element =>
    .fields "Array" [("size", .leaf (toString size)), ("element", element.outline)]

/-- A colour in an outline. -/
def Colour.outline (colour : Colour) : Outline :=
  .fields "Color"
    [("r", .leaf (toString colour.red.toNat)), ("g", .leaf (toString colour.green.toNat)),
     ("b", .leaf (toString colour.blue.toNat))]

/-! ### Expressions -/

/-- The kind of a literal in an outline. -/
def Literal.outline : Literal → Outline
  | .int value => .applied "Int" [.leaf (toString value)]
  | .float value => .applied "Float" [.leaf value.render]
  | .bool value => .applied "Bool" [.leaf (if value then "true" else "false")]
  | .colour value => .applied "Color" [value.outline]

/-- The name of an operator in an outline. -/
def BinaryOperator.outline : BinaryOperator → Outline
  | .or => .leaf "Or"
  | .and => .leaf "And"
  | .equal => .leaf "Equal"
  | .notEqual => .leaf "NotEqual"
  | .less => .leaf "Less"
  | .lessOrEqual => .leaf "LessOrEqual"
  | .greater => .leaf "Greater"
  | .greaterOrEqual => .leaf "GreaterOrEqual"
  | .add => .leaf "Add"
  | .subtract => .leaf "Sub"
  | .multiply => .leaf "Mul"
  | .divide => .leaf "Div"

/-- The name of an operator in an outline. -/
def UnaryOperator.outline : UnaryOperator → Outline
  | .not => .leaf "Not"
  | .negate => .leaf "Neg"

/-- The name of a side in an outline. -/
def Side.outline : Side → Outline
  | .width => .leaf "Width"
  | .height => .leaf "Height"

/-- An expression in an outline, from its note and its kind. -/
def Note.outline (note : Note) (kind : Outline) : Outline :=
  .fields "Expr"
    [("position", note.position.outline), ("kind", kind),
     ("cast", .possible (note.cast.map (Located.outline Ty.outline))),
     ("ty", .possible (note.type.map Ty.outline))]

mutual

/-- An expression in an outline. -/
def Expr.outline : Expr → Outline
  | .literal note value => note.outline value.outline
  | .array note elements =>
    note.outline (.applied "Array" [.sequence (Expr.outlines elements)])
  | .side note which => note.outline which.outline
  | .read note x y => note.outline (.fields "Read" [("x", x.outline), ("y", y.outline)])
  | .randomInt note limit => note.outline (.applied "RandomInt" [limit.outline])
  | .var note name => note.outline (.applied "Variable" [Syntax.nameOutline name])
  | .index note name offset =>
    note.outline (.fields "Index"
      [("array", Syntax.identOutline name), ("index", offset.outline)])
  | .call note function arguments =>
    note.outline (.fields "Call"
      [("function", Syntax.identOutline function),
       ("arguments", .sequence (Expr.outlines arguments))])
  | .group note inner => note.outline (.applied "Group" [inner.outline])
  | .binary note left operator right =>
    note.outline (.applied "Binary" [left.outline, operator.outline, right.outline])
  | .unary note operator operand =>
    note.outline (.applied "Unary" [operator.outline, operand.outline])

/-- The outlines of several expressions. -/
def Expr.outlines : List Expr → List Outline
  | [] => []
  | expr :: rest => expr.outline :: Expr.outlines rest

end

/-! ### Statements -/

/-- A declaration in an outline. -/
def Declaration.outline (declaration : Declaration) : Outline :=
  .fields "Declaration"
    [("name", Syntax.identOutline declaration.name),
     ("of", declaration.type.outline Ty.outline), ("value", declaration.value.outline)]

/-- An assignment in an outline. -/
def Assignment.outline (assignment : Assignment) : Outline :=
  .fields "Assignment"
    [("target", Syntax.identOutline assignment.target),
     ("index", .possible (assignment.index.map Expr.outline)),
     ("value", assignment.value.outline)]

/-- An action in an outline. -/
def Action.outline : Action → Outline
  | .print value => .applied "Print" [value.outline]
  | .delay milliseconds => .applied "Delay" [milliseconds.outline]
  | .write x y colour =>
    .fields "Write" [("x", x.outline), ("y", y.outline), ("color", colour.outline)]
  | .writeBox x y width height colour =>
    .fields "WriteBox"
      [("x", x.outline), ("y", y.outline), ("width", width.outline),
       ("height", height.outline), ("color", colour.outline)]
  | .clear colour => .applied "Clear" [colour.outline]

/-- A parameter in an outline. -/
def Parameter.outline (parameter : Parameter) : Outline :=
  .fields "Parameter"
    [("name", Syntax.identOutline parameter.name), ("of", parameter.type.outline Ty.outline)]

/-- A function in an outline, from its header and its body. -/
def Header.outline (header : Header) (body : Outline) : Outline :=
  .fields "Function"
    [("name", Syntax.identOutline header.name),
     ("parameters", .sequence (header.parameters.map Parameter.outline)),
     ("returns", header.returns.outline Ty.outline), ("body", body),
     ("scope", Syntax.scopeOutline header.scope)]

/-- A statement in an outline, from its span and its kind. -/
def Span.outline (span : Span) (kind : Outline) : Outline :=
  .fields "Stmt"
    [("position", span.first.outline), ("end", span.last.outline), ("kind", kind)]

mutual

/-- A statement in an outline. -/
def Stmt.outline : Stmt → Outline
  | .assignment span assignment =>
    span.outline (.applied "Assignment" [assignment.outline])
  | .declaration span declaration =>
    span.outline (.applied "Declaration" [declaration.outline])
  | .action span action => span.outline action.outline
  | .block span body => span.outline (.applied "Block" [body.outline])
  | .function span header body =>
    span.outline (.applied "Function" [header.outline body.outline])
  | .conditional span condition consequent none =>
    span.outline (.fields "If"
      [("condition", condition.outline), ("then", consequent.outline),
       ("otherwise", .possible none)])
  | .conditional span condition consequent (some alternative) =>
    span.outline (.fields "If"
      [("condition", condition.outline), ("then", consequent.outline),
       ("otherwise", .possible (some alternative.outline))])
  | .forLoop span init condition update body =>
    span.outline (.fields "For"
      [("init", .possible (init.map Declaration.outline)), ("condition", condition.outline),
       ("update", .possible (update.map Assignment.outline)), ("body", body.outline)])
  | .whileLoop span condition body =>
    span.outline (.fields "While"
      [("condition", condition.outline), ("body", body.outline)])
  | .returnValue span value => span.outline (.applied "Return" [value.outline])

/-- A block in an outline. -/
def Block.outline : Block → Outline
  | .mk position scope statements =>
    .fields "Block"
      [("position", position.outline), ("statements", .sequence (Stmt.outlines statements)),
       ("scope", Syntax.scopeOutline scope)]

/-- The outlines of several statements. -/
def Stmt.outlines : List Stmt → List Outline
  | [] => []
  | statement :: rest => statement.outline :: Stmt.outlines rest

end

/-- A program as an outline. -/
def Program.outline (program : Program) : Outline :=
  .fields "Program" [("statements", .sequence (Stmt.outlines program.statements))]

end PadLang
