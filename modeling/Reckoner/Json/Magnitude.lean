import Reckoner.Binary64
import Reckoner.Json.Basic

namespace Reckoner

/-- The digits of a number as far as 64 bits hold them, the power of ten that belongs to them, and
whether digits have been left out. -/
structure Significand where
  value : Nat
  power : Int
  full : Bool

namespace Significand

def pushWhole (s : Significand) (c : Char) : Significand :=
  let v := Nat.ofDigitChars 10 [c] s.value
  if !s.full && decide (v < UInt64.size) then { s with value := v }
  -- Without room for it, a digit before the point counts as a zero.
  else { s with power := s.power + 1, full := true }

def pushFraction (s : Significand) (c : Char) : Significand :=
  let v := Nat.ofDigitChars 10 [c] s.value
  if !s.full && decide (v < UInt64.size) then { s with value := v, power := s.power - 1 }
  else { s with full := true }

def ofNumeral (n : Json.Numeral) : Significand :=
  let w := n.whole.foldl pushWhole ⟨0, 0, false⟩
  (n.fraction.getD []).foldl pushFraction { w with full := false }

end Significand

namespace Binary64

def scale? (a : Binary64) (power : Int) : Option Binary64 :=
  if 308 < power then if a.mantissa = 0 then some a else none
  else if 0 ≤ power then do a.mul? (← tenth? power.toNat)
  else if -308 ≤ power then do a.div? (← tenth? (-power).toNat)
  else do
    let b ← a.div? (← tenth? 308)
    if b.mantissa = 0 then some b else scale? b (power + 308)
termination_by (-power).toNat

end Binary64

namespace Json.Numeral

def magnitude? (n : Numeral) : Option Binary64 := do
  let s := Significand.ofNumeral n
  let e : Int := match n.exponent with
    | some (below, ds) =>
        let e := Nat.ofDigitChars 10 ds 0
        if below then -e else e
    | none => 0
  -- No digits make up for an exponent of more than 31 bits.
  if 0x80000000 ≤ e.natAbs then
    if s.value = 0 ∨ e < 0 then Binary64.ofRatio? 0 1 else none
  else (← Binary64.ofRatio? s.value 1).scale? (s.power + e)

end Json.Numeral

end Reckoner
