import Reckoner.Value
import Mathlib.Algebra.Order.Field.Basic
import Mathlib.Data.Rat.Cast.Order
import Mathlib.Tactic.Positivity

namespace Reckoner

@[simp, norm_cast] theorem cast_tenPow (k : ℕ) : (tenPow k : ℚ) = 10 ^ k := Nat.cast_pow 10 k

namespace Decimal

/-- The number that a decimal stands for. -/
def toRat (d : Decimal) : ℚ := d.signed / 10 ^ d.scale

variable {d : Decimal}

theorem toRat_ofInteger (n : Integer) : (ofInteger n).toRat = n.val := by
  have hs : (ofInteger n).signed = n.val := by
    simp only [signed, ofInteger, decide_eq_true_eq]
    split <;> omega
  rw [toRat, hs, show (ofInteger n).scale = 0 from rfl, pow_zero, div_one]

theorem signed_eq_zero_iff : d.signed = 0 ↔ d.isZero = true := by
  rw [signed, isZero, beq_iff_eq]
  split <;> omega

theorem toRat_eq_zero_iff : d.toRat = 0 ↔ d.isZero = true := by
  have hp : (10 : ℚ) ^ d.scale ≠ 0 := by positivity
  rw [toRat, div_eq_zero_iff, or_iff_left hp, Int.cast_eq_zero, signed_eq_zero_iff]

theorem dvd_signed_iff : (tenPow d.scale : ℤ) ∣ d.signed ↔ d.isWhole = true := by
  have hm : (tenPow d.scale : ℤ) ∣ (d.mantissa : ℤ) ↔ d.isWhole = true := by
    rw [Int.natCast_dvd_natCast, Nat.dvd_iff_mod_eq_zero, isWhole, beq_iff_eq]
  rw [signed, ← hm]
  split
  · exact Int.dvd_neg
  · rfl

theorem toRat_eq_intCast_iff {z : ℤ} : d.toRat = z ↔ d.isWhole = true ∧ d.truncate = z := by
  have hp : (10 : ℚ) ^ d.scale ≠ 0 := by positivity
  have hz : (tenPow d.scale : ℤ) ≠ 0 := by exact_mod_cast (tenPow_pos d.scale).ne'
  have hs : d.toRat = z ↔ d.signed = z * tenPow d.scale := by
    rw [toRat, div_eq_iff hp]
    norm_cast
  rw [hs, truncate, ← dvd_signed_iff]
  constructor
  · intro h
    rw [h]
    exact ⟨Int.dvd_mul_left .., Int.mul_tdiv_cancel z hz⟩
  · rintro ⟨h, rfl⟩
    exact (Int.tdiv_mul_cancel h).symm

theorem isWhole_iff : d.isWhole = true ↔ ∃ z : ℤ, d.toRat = z := by
  simp only [toRat_eq_intCast_iff]
  exact ⟨fun h => ⟨_, h, rfl⟩, fun ⟨_, h, _⟩ => h⟩

end Decimal

def Value.number? : Value → Option ℚ
  | integer n => some n.val
  | decimal d => some d.toRat
  | string _ | boolean _ => none

end Reckoner
