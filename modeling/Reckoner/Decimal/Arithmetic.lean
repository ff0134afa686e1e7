import Reckoner.Decimal.Basic

namespace Reckoner.Decimal

def halfEven (n d : Nat) : Nat :=
  if d < 2 * (n % d) ∨ d = 2 * (n % d) ∧ n / d % 2 = 1 then n / d + 1 else n / d

theorem halfEven_one (n : Nat) : halfEven n 1 = n := by
  simp [halfEven, Nat.mod_one]

/-- Drops as few last digits as let the rest fit, and rounds once, from the exact number. -/
def fit (negative : Bool) (mantissa scale : Nat) : Option Decimal :=
  (List.range' (scale - 28) (min scale 28 + 1)).findSome? fun k =>
    ofParts? negative (halfEven mantissa (tenPow k)) (scale - k)

def add? (a b : Decimal) : Option Decimal :=
  -- The other operand stays as it is written, its scale included.
  if a.isZero then some b
  else if b.isZero then some a
  else
    let scale := max a.scale b.scale
    let sum := a.signed * tenPow (scale - a.scale) + b.signed * tenPow (scale - b.scale)
    fit (sum < 0) sum.natAbs scale

def sub? (a b : Decimal) : Option Decimal :=
  if a.isZero && b.isZero then some b else add? a b.neg

def bothShort (a b : Decimal) : Bool := a.mantissa < 0x1_00000000 && b.mantissa < 0x1_00000000

def mul? (a b : Decimal) : Option Decimal :=
  if a.isZero || b.isZero then some zero
  -- No digit of such a product can remain.
  else if bothShort a b && decide (47 < a.scale + b.scale) then some zero
  else
    (fit (a.negative != b.negative) (a.mantissa * b.mantissa) (a.scale + b.scale)).map fun p =>
      -- A short product that rounds to zero has no sign, and any other keeps its own.
      if bothShort a b && p.isZero then { p with negative := false } else p

def room (q : Nat) : Nat → Nat
  | 0 => 0
  | n + 1 => if Fits (q * tenPow (n + 1)) then n + 1 else room q n

theorem room_le (q n : Nat) : room q n ≤ n := by
  induction n with
  | zero => exact Nat.le_refl 0
  | succ n ih =>
      unfold room
      split <;> omega

-- Digits come nine at a time, and none behind the 28th place.
def stride (scale : Int) : Nat := min 9 (28 - scale).toNat

theorem stride_le (scale : Int) : stride scale ≤ (28 - scale).toNat := Nat.min_le_right _ _

structure LongDivision where
  q : Nat
  scale : Int
  inexact : Bool

def LongDivision.shorten (q : Nat) (sticky : Bool) (scale : Int) : Option LongDivision :=
  if scale < 1 then none
  else
    let up := 5 < q % 10 || (q % 10 == 5 && (sticky || q / 10 % 2 == 1))
    some ⟨q / 10 + up.toNat, scale - 1, true⟩

/-- Whether a remainder of a divisor beyond 64 bits passes 96 bits when it is scaled. Both stand
shifted left, the top bit of the divisor on the 96th. -/
def spills (d r p : Nat) : Bool :=
  twoPow 64 ≤ d ∧ ¬Fits (r * twoPow (95 - d.log2) * tenPow p)

def expand (d q r : Nat) (scale : Int) (inexact : Bool) : Option LongDivision :=
  if r = 0 then
    if 0 ≤ scale then some ⟨q, scale, inexact⟩
    else
      let p := min 9 (-scale).toNat
      if Fits (q * tenPow p) then expand d (q * tenPow p) 0 (scale + p) inexact
      else none
  else
    let p := room q (stride scale)
    if p < stride scale ∧ p + scale < 0 then none
    else if p = 0 then
      let q' := if d < 2 * r ∨ d = 2 * r ∧ q % 2 = 1 then q + 1 else q
      if Fits q' then some ⟨q', scale, true⟩ else LongDivision.shorten q' true scale
    else
      let q' := q * tenPow p + r * tenPow p / d
      let r' := r * tenPow p % d
      if Fits q' then expand d q' r' (scale + p) true
      -- A remainder that spills counts as left over, even if this step takes it up.
      else LongDivision.shorten q' (r' != 0 || spills d r p) (scale + p)
termination_by (28 - scale).toNat
decreasing_by
  · omega
  · have h := room_le q (stride scale)
    have h' := stride_le scale
    omega

def stripZeros (d : Nat × Nat) (n : Nat) : Nat × Nat :=
  if d.1 % twoPow (if n = 8 then 32 else n) = 0 ∧ n ≤ d.2 ∧ d.1 % tenPow n = 0 then
    (d.1 / tenPow n, d.2 - n)
  else d

/-- A quotient that had a remainder on the way loses zeros by eights, then once by four, two and
one. Some zeros can stay. -/
def LongDivision.strip (a : LongDivision) : Nat × Nat :=
  if a.inexact then [8, 8, 8, 4, 2, 1].foldl stripZeros (a.q, a.scale.toNat)
  else (a.q, a.scale.toNat)

def div? (a b : Decimal) : Option Decimal :=
  if a.isZero then some zero
  else do
    let e ← expand b.mantissa (a.mantissa / b.mantissa) (a.mantissa % b.mantissa)
      ((a.scale : Int) - b.scale) false
    let (m, k) := e.strip
    ofParts? (a.negative != b.negative && m != 0) m k

end Reckoner.Decimal
