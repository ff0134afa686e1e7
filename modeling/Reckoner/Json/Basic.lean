namespace Reckoner

/-- A number as it is written: its digits, those behind the point, and those of the exponent with
whether that is below zero. -/
structure Json.Numeral where
  negative : Bool
  whole : List Char
  fraction : Option (List Char)
  exponent : Option (Bool × List Char)
  deriving DecidableEq

inductive Json
  | null
  | boolean (b : Bool)
  | number (n : Json.Numeral)
  -- Half of a surrogate pair makes no text.
  | string (s : Option String)
  | array (items : List Json)
  | object (members : List (Option String × Json))

namespace Json

def text (s : String) : Json := string (some s)

def whole (n : Int) : Json := number ⟨n < 0, Nat.toDigits 10 n.natAbs, none, none⟩

def record (members : List (String × Json)) : Json :=
  object (members.map fun m => (some m.1, m.2))

namespace Numeral

def whole? (n : Numeral) : Option Int :=
  let m := Nat.ofDigitChars 10 n.whole 0
  match n.fraction, n.exponent with
  | none, none => if n.negative then (if m = 0 then none else some (-m)) else some m
  | _, _ => none

end Numeral

end Json

end Reckoner
