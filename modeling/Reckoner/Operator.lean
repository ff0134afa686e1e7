namespace Reckoner

inductive Arithmetic
  | add
  | subtract
  | multiply
  | divide
  deriving DecidableEq

inductive Connective
  | and
  | or
  deriving DecidableEq

inductive BinaryOperator
  | arithmetic (op : Arithmetic)
  | connective (op : Connective)
  deriving DecidableEq

inductive UnaryOperator
  | negate
  deriving DecidableEq

def Arithmetic.symbol : Arithmetic → String
  | add => "+"
  | subtract => "-"
  | multiply => "*"
  | divide => "/"

def Connective.symbol : Connective → String
  | and => "&&"
  | or => "||"

def UnaryOperator.symbol : UnaryOperator → String
  | negate => "-"

namespace BinaryOperator

def all : List BinaryOperator :=
  [.arithmetic .add, .arithmetic .subtract, .arithmetic .multiply, .arithmetic .divide,
    .connective .and, .connective .or]

def symbol : BinaryOperator → String
  | arithmetic op => op.symbol
  | connective op => op.symbol

def isLogical : BinaryOperator → Bool
  | arithmetic _ => false
  | connective _ => true

/-- The rank of an operator: one of a higher rank binds its operands first. -/
def rank : BinaryOperator → Nat
  | connective .or => 1
  | connective .and => 2
  | arithmetic .add | arithmetic .subtract => 3
  | arithmetic .multiply | arithmetic .divide => 4

end BinaryOperator

inductive Operator
  | unary (op : UnaryOperator)
  | binary (op : BinaryOperator)
  deriving DecidableEq

def Operator.symbol : Operator → String
  | unary op => op.symbol
  | binary op => op.symbol

end Reckoner
