import Reckoner.Expr
import Reckoner.Json.Read
import Reckoner.Json.Write
import Reckoner.Stored.Value

namespace Reckoner

namespace BinaryOperator

def name : BinaryOperator → String
  | arithmetic .add => "Add"
  | arithmetic .subtract => "Subtract"
  | arithmetic .multiply => "Multiply"
  | arithmetic .divide => "Divide"
  | connective .and => "And"
  | connective .or => "Or"

def ofName? (s : String) : Option BinaryOperator := all.find? fun op => op.name == s

end BinaryOperator

def UnaryOperator.name : UnaryOperator → String
  | negate => "Negate"

def UnaryOperator.ofName? (s : String) : Option UnaryOperator :=
  if s == name negate then some negate else none

/-- A name alone, or an object that gives it nothing, where a bracket may open. -/
def Json.bareName? (room : Nat) (j : Json) : Option String :=
  match j.variant? with
  | some (name, none) => some name
  | some (name, some .null) => if room = 0 then none else some name
  | _ => none

namespace Expr

def toJson : Expr → Json
  | literal v => .record [("Literal", v.toJson)]
  | var name => .record [("Variable", .text name)]
  | grouping inner => .record [("Grouping", inner.toJson)]
  | binary op left right =>
      .record [("BinaryOp", .record
        [("operator", .text op.name), ("left", left.toJson), ("right", right.toJson)])]
  | unary op operand =>
      .record [("UnaryOp", .record [("operator", .text op.name), ("operand", operand.toJson)])]

/-- Reads the stored form where so many brackets at most may stand open at once. -/
def ofJson? : Nat → Json → Option Expr
  | room + 1, j =>
      match j.variant? with
      | some ("Literal", some content) => literal <$> Value.ofJson? room content
      | some ("Variable", some content) => var <$> content.text?
      | some ("Grouping", some content) => grouping <$> ofJson? room content
      | some ("BinaryOp", some content) =>
          match room, content.fields? ["operator", "left", "right"] with
          | room + 1, some [some op, some left, some right] => do
              let op ← BinaryOperator.ofName? (← op.bareName? room)
              some (binary op (← ofJson? room left) (← ofJson? room right))
          | _, _ => none
      | some ("UnaryOp", some content) =>
          match room, content.fields? ["operator", "operand"] with
          | room + 1, some [some op, some operand] => do
              let op ← UnaryOperator.ofName? (← op.bareName? room)
              some (unary op (← ofJson? room operand))
          | _, _ => none
      | _ => none
  | 0, _ => none

end Expr

namespace Statement

def toJson : Statement → Json
  | expression e => .record [("Expression", e.toJson)]
  | assignment name e =>
      .record [("Assignment", .record [("variable", .text name), ("expression", e.toJson)])]

def ofJson? : Nat → Json → Option Statement
  | room + 1, j =>
      match j.variant? with
      | some ("Expression", some content) => expression <$> Expr.ofJson? room content
      | some ("Assignment", some content) =>
          match room, content.fields? ["variable", "expression"] with
          | room + 1, some [some name, some e] => do
              some (assignment (← name.text?) (← Expr.ofJson? room e))
          | _, _ => none
      | _ => none
  | 0, _ => none

end Statement

def Json.maxRoom : Nat := 127

def Value.ofStored? (s : String) : Option Value := do ofJson? Json.maxRoom (← Json.ofText? s)

def Expr.ofStored? (s : String) : Option Expr := do ofJson? Json.maxRoom (← Json.ofText? s)

def Statement.ofStored? (s : String) : Option Statement := do
  ofJson? Json.maxRoom (← Json.ofText? s)

end Reckoner
