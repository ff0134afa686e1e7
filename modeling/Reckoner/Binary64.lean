import Reckoner.Decimal.Arithmetic

namespace Reckoner

/-- A finite number mantissa * 2 ^ exponent without sign, in the form that 64 bits hold. -/
structure Binary64 where
  mantissa : Nat
  exponent : Int

namespace Binary64

def shifted (n d : Nat) (e : Int) : Nat × Nat := (n * twoPow (-e).toNat, d * twoPow e.toNat)

def magnitude (n d : Nat) : Int :=
  let k : Int := (n.log2 : Int) - d.log2
  let (n', d') := shifted n d k
  if d' ≤ n' then k else k - 1

def ofRatio? (n d : Nat) : Option Binary64 :=
  if n = 0 then some ⟨0, -1074⟩
  else
    let e := max (-1074) (magnitude n d - 52)
    let (n', d') := shifted n d e
    let m := Decimal.halfEven n' d'
    -- Rounding up may come to a power of two, with one bit more.
    let (m, e) := if m = 0x200000_00000000 then (0x100000_00000000, e + 1) else (m, e)
    if 971 < e then none else some ⟨m, e⟩

def ratio (a : Binary64) : Nat × Nat :=
  (a.mantissa * twoPow a.exponent.toNat, twoPow (-a.exponent).toNat)

def mul? (a b : Binary64) : Option Binary64 :=
  ofRatio? (a.ratio.1 * b.ratio.1) (a.ratio.2 * b.ratio.2)

def div? (a b : Binary64) : Option Binary64 :=
  ofRatio? (a.ratio.1 * b.ratio.2) (a.ratio.2 * b.ratio.1)

def tenth? (k : Nat) : Option Binary64 := ofRatio? (tenPow k) 1

/-- The ends of the interval of reals that round to this number, over four times its
denominator. -/
def interval (a : Binary64) : Nat × Nat :=
  let n := a.ratio.1
  let unit := twoPow a.exponent.toNat
  let below := if a.mantissa = 0x100000_00000000 ∧ -1074 < a.exponent then unit else 2 * unit
  (4 * n - below, 4 * n + 2 * unit)

def covers (a : Binary64) (c : Nat) (x : Int) : Bool :=
  let (low, high) := a.interval
  let c' := 4 * a.ratio.2 * c * tenPow x.toNat
  let s := tenPow (-x).toNat
  if a.mantissa % 2 = 0 then low * s ≤ c' && c' ≤ high * s else low * s < c' && c' < high * s

def onGrid? (a : Binary64) (x : Int) : Option (Nat × Int) :=
  let n := a.ratio.1 * tenPow (-x).toNat
  let d := a.ratio.2 * tenPow x.toNat
  let c := n / d
  -- The better of the two neighbours on the grid, of those that read back.
  match covers a c x, covers a (c + 1) x with
  | true, true => some (Decimal.halfEven n d, x)
  | true, false => some (c, x)
  | false, true => some (c + 1, x)
  | false, false => none

def decimalMagnitude (a : Binary64) : Int :=
  -- The decimal logarithm of two is just below 0.30103.
  ((magnitude a.ratio.1 a.ratio.2 + 1) * 30103).tdiv 100000 + 1

/-- The fewest digits that read back, as c * 10 ^ x. -/
def shortest (a : Binary64) : Nat × Int :=
  if a.mantissa = 0 then (0, 0)
  else ((List.range 24).findSome? fun (k : Nat) => onGrid? a (a.decimalMagnitude - k)).getD (0, 0)

def chars (a : Binary64) : List Char :=
  let (c, x) := a.shortest
  let ds := Nat.toDigits 10 c
  if 0 ≤ x then ds ++ List.replicate (if c = 0 then 0 else x.toNat) '0'
  else
    let places := (-x).toNat
    let padded := List.replicate (places + 1 - ds.length) '0' ++ ds
    padded.take (padded.length - places) ++ '.' :: padded.drop (padded.length - places)

end Binary64

end Reckoner
