import Reckoner.Decimal.Arithmetic
import Reckoner.Operator
import Reckoner.Text.Basic
import Reckoner.Value

namespace Reckoner

inductive EvalError
  | typeMismatch (op : BinaryOperator) (left right : Kind)
  | unaryTypeMismatch (op : UnaryOperator) (operand : Kind)
  | divisionByZero
  | unboundVariable (name : String)
  | overflow (op : Operator)
  | depthLimitExceeded (limit : Nat)
  deriving DecidableEq

def EvalError.message : EvalError → String
  | typeMismatch op left right =>
      "类型不匹配: 运算符 '" ++ op.symbol ++ "' 不支持 " ++ left.name ++ " 与 " ++ right.name
  | unaryTypeMismatch op operand =>
      "类型不匹配: 一元运算符 '" ++ op.symbol ++ "' 不支持 " ++ operand.name
  | divisionByZero => "除数为零"
  | unboundVariable name => "变量 '" ++ name ++ "' 未定义"
  | overflow op => "运算 '" ++ op.symbol ++ "' 溢出"
  | depthLimitExceeded limit => "表达式嵌套深度超过上限 " ++ Text.ofNat limit

def orOverflow {α : Type} (op : Operator) : Option α → Except EvalError α
  | some a => .ok a
  | none => .error (.overflow op)

namespace Arithmetic

def onIntegers (op : Arithmetic) (a b : Integer) : Except EvalError Integer :=
  let done := orOverflow (.binary (.arithmetic op))
  match op with
  | add => done (a.add? b)
  | subtract => done (a.sub? b)
  | multiply => done (a.mul? b)
  | divide => if b.val = 0 then .error .divisionByZero else done (a.div? b)

def onDecimals (op : Arithmetic) (a b : Decimal) : Except EvalError Decimal :=
  let done := orOverflow (.binary (.arithmetic op))
  match op with
  | add => done (a.add? b)
  | subtract => done (a.sub? b)
  | multiply => done (a.mul? b)
  | divide => if b.isZero then .error .divisionByZero else done (a.div? b)

def onStrings? (op : Arithmetic) (a b : String) : Option String :=
  match op with
  | add => some (a ++ b)
  | subtract => some (Text.remove a b)
  | multiply | divide => none

end Arithmetic

def Connective.onBooleans (op : Connective) (a b : Bool) : Bool :=
  match op with
  | and => a && b
  | or => a || b

/-- Integers stay integers, and beside a decimal they are widened. No other kinds mix. -/
def BinaryOperator.apply (op : BinaryOperator) (l r : Value) : Except EvalError Value :=
  let mismatch := .error (.typeMismatch op l.kind r.kind)
  match op, l, r with
  | arithmetic op, .integer a, .integer b => .integer <$> op.onIntegers a b
  | arithmetic op, .integer a, .decimal b => .decimal <$> op.onDecimals (.ofInteger a) b
  | arithmetic op, .decimal a, .integer b => .decimal <$> op.onDecimals a (.ofInteger b)
  | arithmetic op, .decimal a, .decimal b => .decimal <$> op.onDecimals a b
  | arithmetic op, .string a, .string b => (op.onStrings? a b).elim mismatch (.ok ∘ .string)
  | connective op, .boolean a, .boolean b => .ok (.boolean (op.onBooleans a b))
  | _, _, _ => mismatch

def UnaryOperator.apply (op : UnaryOperator) (v : Value) : Except EvalError Value :=
  match op, v with
  | negate, .integer n => .integer <$> orOverflow (.unary op) n.neg?
  | negate, .decimal d => .ok (.decimal d.neg)
  | _, v => .error (.unaryTypeMismatch op v.kind)

end Reckoner
