import Reckoner.Json.Magnitude
import Reckoner.Stored.Fields
import Reckoner.Value

namespace Reckoner

namespace Json.Numeral

/-- A whole number of 64 bits is taken exactly, any other by the shortest digits of its size. -/
def decimal? (n : Numeral) : Option Decimal :=
  match n.whole? with
  | some i =>
      if Integer.Fits i ∨ 0 ≤ i ∧ i.toNat < UInt64.size then
        Decimal.ofParts? (i < 0) i.natAbs 0
      else byMagnitude
  | none => byMagnitude
where
  byMagnitude : Option Decimal := do
    let a ← n.magnitude?
    Decimal.ofChars? ((if n.negative then ['-'] else []) ++ a.chars)

end Json.Numeral

def Decimal.ofJson? : Json → Option Decimal
  | .string (some s) => ofText? s
  | .number n => n.decimal?
  | _ => none

namespace Value

def toJson : Value → Json
  | integer n => .record [("Integer", .whole n.val)]
  | decimal d => .record [("Decimal", .text d.text)]
  | string s => .record [("String", .text s)]
  | boolean b => .record [("Boolean", .boolean b)]

def ofJson? (room : Nat) (j : Json) : Option Value :=
  if room = 0 then none
  else
    match j.variant? with
    | some ("Integer", some content) => do integer <$> Integer.ofInt? (← content.whole?)
    | some ("Decimal", some content) => decimal <$> Decimal.ofJson? content
    | some ("String", some content) => string <$> content.text?
    | some ("Boolean", some content) => boolean <$> content.boolean?
    | _ => none

end Value

end Reckoner
