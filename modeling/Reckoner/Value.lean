import Reckoner.Decimal.Text
import Reckoner.Text.Quoted

namespace Reckoner

inductive Kind
  | integer
  | decimal
  | string
  | boolean
  deriving DecidableEq

def Kind.name : Kind → String
  | integer => "Integer"
  | decimal => "Decimal"
  | string => "String"
  | boolean => "Boolean"

inductive Value
  | integer (n : Integer)
  | decimal (d : Decimal)
  | string (s : String)
  | boolean (b : Bool)
  deriving DecidableEq

namespace Value

def kind : Value → Kind
  | integer _ => .integer
  | decimal _ => .decimal
  | string _ => .string
  | boolean _ => .boolean

def isNumeric : Value → Bool
  | integer _ | decimal _ => true
  | string _ | boolean _ => false

def text : Value → String
  | integer n => n.text
  | decimal d => d.text
  | string s => s
  | boolean true => "true"
  | boolean false => "false"

def taggedText (v : Value) : String :=
  let inner := match v with
    | string s => Text.quoted s
    | other => other.text
  v.kind.name ++ "(" ++ inner ++ ")"

/-- Equal values are of one kind, and decimals are compared as numbers. -/
def same : Value → Value → Bool
  | integer a, integer b => a == b
  | decimal a, decimal b => a.sameNumber b
  | string a, string b => a == b
  | boolean a, boolean b => a == b
  | _, _ => false

end Value

end Reckoner
