import Reckoner.Value

namespace Reckoner

abbrev ShortInteger : Type := Signed 0x80000000

namespace ShortInteger

abbrev Fits (n : Int) : Prop := Signed.Fits 0x80000000 n

abbrev ofInt? (n : Int) : Option ShortInteger := Signed.ofInt? 0x80000000 n

def widen (n : ShortInteger) : Integer := ⟨n.val, by have := n.fits; omega⟩

end ShortInteger

inductive Width
  | long
  | short
  deriving DecidableEq

def Width.name : Width → String
  | long => "Integer"
  | short => "i32"

inductive ConversionError
  | kindMismatch (expected actual : Kind)
  | notIntegral (d : Decimal)
  | outOfRange (expected : Width) (value : Value)
  deriving DecidableEq

def ConversionError.message : ConversionError → String
  | kindMismatch expected actual =>
      "无法转换: 期望 " ++ expected.name ++ "，实际 " ++ actual.name
  | notIntegral d => "无法转换: " ++ d.text ++ " 不是整数"
  | outOfRange expected value =>
      "无法转换: " ++ value.text ++ " 超出 " ++ expected.name ++ " 的范围"

namespace Value

/-- A decimal is a whole number if its fraction is zero, and only then is its range asked. -/
def toInteger : Value → Except ConversionError Integer
  | integer n => .ok n
  | decimal d =>
      if d.isWhole then
        match Integer.ofInt? d.truncate with
        | some n => .ok n
        | none => .error (.outOfRange .long (.decimal d))
      else .error (.notIntegral d)
  | v => .error (.kindMismatch .integer v.kind)

def toShort (v : Value) : Except ConversionError ShortInteger := do
  let n ← v.toInteger
  match ShortInteger.ofInt? n.val with
  | some k => .ok k
  | none => .error (.outOfRange .short (.integer n))

def toDecimal : Value → Except ConversionError Decimal
  | integer n => .ok (.ofInteger n)
  | decimal d => .ok d
  | v => .error (.kindMismatch .decimal v.kind)

def toText : Value → Except ConversionError String
  | string s => .ok s
  | v => .error (.kindMismatch .string v.kind)

def toBool : Value → Except ConversionError Bool
  | boolean b => .ok b
  | v => .error (.kindMismatch .boolean v.kind)

end Value

inductive Target
  | integer (width : Width)
  | decimal
  | string
  | boolean
  deriving DecidableEq

def Value.convert (v : Value) : Target → Except ConversionError Value
  | .integer .long => .integer <$> v.toInteger
  | .integer .short => (fun k => .integer k.widen) <$> v.toShort
  | .decimal => .decimal <$> v.toDecimal
  | .string => .string <$> v.toText
  | .boolean => .boolean <$> v.toBool

end Reckoner
