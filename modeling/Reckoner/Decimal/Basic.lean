import Reckoner.Integer

namespace Reckoner

def tenPow (k : Nat) : Nat := Nat.pow 10 k

def twoPow (k : Nat) : Nat := Nat.pow 2 k

theorem tenPow_zero : tenPow 0 = 1 := rfl

theorem tenPow_succ (k : Nat) : tenPow (k + 1) = tenPow k * 10 := rfl

theorem tenPow_pos (k : Nat) : 0 < tenPow k := Nat.pow_pos (by decide)

abbrev Decimal.Fits (m : Nat) : Prop := m < 0x1_00000000_00000000_00000000

/-- A mantissa over a power of ten. The sign is kept apart, so zero has one too. -/
@[ext] structure Decimal where
  negative : Bool
  mantissa : Nat
  scale : Nat
  fits : Decimal.Fits mantissa
  scale_le : scale ≤ 28
  deriving DecidableEq

namespace Decimal

def ofParts? (negative : Bool) (mantissa scale : Nat) : Option Decimal :=
  if h : Fits mantissa ∧ scale ≤ 28 then some ⟨negative, mantissa, scale, h.1, h.2⟩ else none

theorem ofParts?_eq_some_iff {s : Bool} {m k : Nat} {d : Decimal} :
    ofParts? s m k = some d ↔ d.negative = s ∧ d.mantissa = m ∧ d.scale = k := by
  constructor
  · intro h
    unfold ofParts? at h
    split at h
    · rw [← Option.some.inj h]; exact ⟨rfl, rfl, rfl⟩
    · cases h
  · rintro ⟨rfl, rfl, rfl⟩
    exact dif_pos ⟨d.fits, d.scale_le⟩

def zero : Decimal := ⟨false, 0, 0, by decide, by decide⟩

def ofInteger (n : Integer) : Decimal :=
  ⟨n.val < 0, n.val.natAbs, 0, by have := n.fits; omega, by decide⟩

def isZero (d : Decimal) : Bool := d.mantissa == 0

def neg (d : Decimal) : Decimal := { d with negative := !d.negative }

def signed (d : Decimal) : Int := if d.negative then -d.mantissa else d.mantissa

/-- The number as a count of units of the 28th place, which every scale divides. -/
def units (d : Decimal) : Int := d.signed * tenPow (28 - d.scale)

def sameNumber (a b : Decimal) : Bool := a.units == b.units

def isWhole (d : Decimal) : Bool := d.mantissa % tenPow d.scale == 0

def truncate (d : Decimal) : Int := d.signed.tdiv (tenPow d.scale)

end Decimal

end Reckoner
