import Reckoner.Decimal.Arithmetic
import Reckoner.Proofs.ExactNumber
import Mathlib.Tactic.FieldSimp
import Mathlib.Tactic.Linarith
import Mathlib.Tactic.NormNum

namespace Reckoner

def withSign {α : Type} [Neg α] (negative : Bool) (a : α) : α := if negative then -a else a

theorem cast_withSign (s : Bool) (n : ℕ) :
    ((withSign s (n : ℤ) : ℤ) : ℚ) = withSign s (n : ℚ) := by
  cases s <;> simp [withSign]

theorem withSign_div (s : Bool) (x y : ℚ) : withSign s (x / y) = withSign s x / y := by
  cases s <;> simp [withSign, neg_div]

theorem withSign_mul (s t : Bool) (x y : ℚ) :
    withSign s x * withSign t y = withSign (s != t) (x * y) := by
  cases s <;> cases t <;> simp [withSign]

theorem withSign_natAbs (z : ℤ) : withSign (decide (z < 0)) (z.natAbs : ℚ) = z := by
  have hz : withSign (decide (z < 0)) (z.natAbs : ℤ) = z := by
    simp only [withSign, decide_eq_true_eq]
    split <;> omega
  rw [← cast_withSign, hz]

theorem abs_withSign {s : Bool} {x : ℚ} (hx : 0 ≤ x) : |withSign s x| = x := by
  cases s <;> simp [withSign, abs_of_nonneg hx]

theorem withSign_eq_withSign {s s' : Bool} {y z : ℚ} (h : withSign s y = withSign s' y)
    (hz : y = 0 → z = 0) : withSign s z = withSign s' z := by
  by_cases hs : s = s'
  · rw [hs]
  · have hy : y = 0 := by cases s <;> cases s' <;> simp [withSign] at h hs <;> linarith
    rw [hz hy]
    cases s <;> cases s' <;> simp [withSign]

theorem natCast_div_eq (m : ℕ) {d : ℕ} (hd : 0 < d) :
    (m : ℚ) / d = (m / d : ℕ) + ((m % d : ℕ) : ℚ) / d := by
  have hd' : (d : ℚ) ≠ 0 := by exact_mod_cast hd.ne'
  have hm : (m : ℚ) = d * (m / d : ℕ) + (m % d : ℕ) := by
    exact_mod_cast (Nat.div_add_mod m d).symm
  rw [div_eq_iff hd', add_mul, div_mul_cancel₀ _ hd', mul_comm]
  exact hm

theorem natCast_div_lt_one {r d : ℕ} (h : r < d) : (r : ℚ) / d < 1 := by
  rw [div_lt_one (by exact_mod_cast Nat.zero_lt_of_lt h)]
  exact_mod_cast h

namespace Decimal

theorem toRat_eq_withSign (d : Decimal) :
    d.toRat = withSign d.negative ((d.mantissa : ℚ) / 10 ^ d.scale) := by
  have hs : d.signed = withSign d.negative (d.mantissa : ℤ) := rfl
  rw [toRat, hs, cast_withSign, withSign_div]

theorem fits_iff {m : ℕ} : Fits m ↔ (m : ℚ) < 2 ^ 96 := by
  rw [Fits]
  norm_cast

/-- A whole number next to a number. Of two that are as near, the lower one is taken only if it is
even. -/
structure Nearest (x : ℚ) (q : ℕ) : Prop where
  ge : x - 1 / 2 ≤ q
  le : q ≤ x + 1 / 2
  even : (q : ℚ) = x - 1 / 2 → q % 2 = 0

theorem Nearest.self (q : ℕ) : Nearest q q where
  ge := by linarith
  le := by linarith
  even h := by linarith

theorem Nearest.eq_of_nat {n q : ℕ} (h : Nearest n q) : q = n := by
  have hlt : (q : ℚ) < n + 1 := by have := h.le; linarith
  have hgt : (n : ℚ) < q + 1 := by have := h.ge; linarith
  norm_cast at hlt hgt
  omega

theorem nearest_of_remainder {q r d : ℕ} (hr : r < d) :
    Nearest (q + (r : ℚ) / d) (if d < 2 * r ∨ d = 2 * r ∧ q % 2 = 1 then q + 1 else q) := by
  have hd : (0 : ℚ) < d := by exact_mod_cast Nat.zero_lt_of_lt hr
  have hlt := natCast_div_lt_one hr
  have hge : (1 : ℚ) / 2 ≤ r / d ↔ d ≤ 2 * r := by
    rw [div_le_div_iff₀ two_pos hd, one_mul, mul_comm]
    norm_cast
  have hle : (r : ℚ) / d ≤ 1 / 2 ↔ 2 * r ≤ d := by
    rw [div_le_div_iff₀ hd two_pos, one_mul, mul_comm]
    norm_cast
  split
  · rename_i h
    have hup := hge.2 (by omega)
    constructor
    · push_cast; linarith
    · push_cast; linarith
    · intro he
      push_cast at he
      linarith
  · rename_i h
    have hdown := hle.2 (by omega)
    have hpos : (0 : ℚ) ≤ r / d := by positivity
    constructor
    · linarith
    · linarith
    · intro he
      have hhalf := hge.1 (by linarith)
      omega

theorem even_of_remainder {q r d : ℕ} (hr : r < d)
    (h : ((if d < 2 * r ∨ d = 2 * r ∧ q % 2 = 1 then q + 1 else q : ℕ) : ℚ) =
      q + (r : ℚ) / d + 1 / 2) :
    (if d < 2 * r ∨ d = 2 * r ∧ q % 2 = 1 then q + 1 else q) % 2 = 0 := by
  have hd : (0 : ℚ) < d := by exact_mod_cast Nat.zero_lt_of_lt hr
  have hnn : (0 : ℚ) ≤ (r : ℚ) / d := by positivity
  split at h
  · rename_i hup
    rw [if_pos hup]
    have hhalf : (r : ℚ) / d = 1 / 2 := by
      push_cast at h
      linarith
    rw [div_eq_div_iff hd.ne' two_ne_zero, one_mul] at hhalf
    have hd2 : r * 2 = d := by exact_mod_cast hhalf
    omega
  · linarith

theorem nearest_halfEven (n : ℕ) {d : ℕ} (hd : 0 < d) : Nearest ((n : ℚ) / d) (halfEven n d) := by
  rw [natCast_div_eq n hd]
  exact nearest_of_remainder (Nat.mod_lt n hd)

theorem even_halfEven {n d : ℕ} (hd : 0 < d) (h : (halfEven n d : ℚ) = (n : ℚ) / d + 1 / 2) :
    halfEven n d % 2 = 0 := by
  rw [natCast_div_eq n hd] at h
  exact even_of_remainder (Nat.mod_lt n hd) h

/-- The least number that is too large: halfway between the largest mantissa and the next one. -/
def limit : ℚ := 2 ^ 96 - 1 / 2

theorem Nearest.limit_le {x : ℚ} {q : ℕ} (h : Nearest x q) (hf : ¬ Fits q) : limit ≤ x := by
  have hle := h.le
  rw [fits_iff, not_lt] at hf
  rw [limit]
  linarith

theorem Nearest.lt_limit {x : ℚ} {q : ℕ} (h : Nearest x q) (hf : Fits q) : x < limit := by
  have hge := h.ge
  have hq : (q : ℚ) + 1 ≤ 2 ^ 96 := by exact_mod_cast Nat.succ_le_of_lt hf
  rw [limit]
  refine lt_of_le_of_ne (by linarith) fun he => ?_
  -- Halfway the largest mantissa gives way, because it is odd.
  have hm : q = 2 ^ 96 - 1 := by
    have : ((q + 1 : ℕ) : ℚ) = (2 ^ 96 : ℕ) := by push_cast; linarith
    have := Nat.cast_injective this
    omega
  have heven := h.even (by linarith)
  rw [hm] at heven
  norm_num at heven

/-- The number rounded to so many places, which are all that it has, or that there are, or that the
mantissa has room for. -/
structure Rounded (x : ℚ) (q k : ℕ) : Prop where
  fits : Fits q
  places : k ≤ 28
  nearest : Nearest (x * 10 ^ k) q
  last : (q : ℚ) = x * 10 ^ k ∨ k = 28 ∨ (2 : ℚ) ^ 96 ≤ 10 * (q + 1)

namespace Rounded

variable {x : ℚ} {q k : ℕ}

theorem lt_limit (h : Rounded x q k) (hx : 0 ≤ x) : x < limit := by
  have hp : (1 : ℚ) ≤ 10 ^ k := one_le_pow₀ (by norm_num)
  exact (le_mul_of_one_le_right hx hp).trans_lt (h.nearest.lt_limit h.fits)

end Rounded

/-- The number rounded to all places that there are, or that the mantissa has room for, unless it
has fewer. Of two neighbours that are as near the even one is taken, but a long divisor may come to
take the upper one, where it is the mantissa that has no room for another place. -/
structure RoundedEven (long : Prop) (x : ℚ) (q k : ℕ) : Prop where
  fits : Fits q
  places : k ≤ 28
  nearest : Nearest (x * 10 ^ k) q
  even : (q : ℚ) = x * 10 ^ k + 1 / 2 → q % 2 = 0 ∨ long ∧ k < 28 ∧ limit ≤ x * 10 ^ (k + 1)
  full : (q : ℚ) = x * 10 ^ k ∨ k = 28 ∨ limit ≤ x * 10 ^ (k + 1)

namespace RoundedEven

variable {long : Prop} {x : ℚ} {q k : ℕ}

theorem exact (hf : Fits q) (hk : k ≤ 28) (h : x * 10 ^ k = q) : RoundedEven long x q k where
  fits := hf
  places := hk
  nearest := h ▸ .self q
  even he := by linarith
  full := .inl h.symm

theorem rounded (h : RoundedEven long x q k) : Rounded x q k where
  fits := h.fits
  places := h.places
  nearest := h.nearest
  last := h.full.imp_right <| Or.imp_right fun hl => by
    have hge := h.nearest.ge
    rw [pow_succ, ← mul_assoc, limit] at hl
    linarith

end RoundedEven

/-- The decimal is the number, rounded to as many places as it can have. -/
def Rounds (x : ℚ) (d : Decimal) : Prop :=
  ∃ (s : Bool) (y : ℚ) (q k : ℕ), 0 ≤ y ∧ x = withSign s y ∧ Rounded y q k ∧
    d.toRat = withSign s ((q : ℚ) / 10 ^ k)

theorem Rounds.abs_lt_limit {x : ℚ} {d : Decimal} (h : d.Rounds x) : |x| < limit := by
  obtain ⟨s, y, q, k, hy, rfl, h, -⟩ := h
  rw [abs_withSign hy]
  exact h.lt_limit hy

def RoundsEven (long : Prop) (x : ℚ) (d : Decimal) : Prop :=
  ∃ (s : Bool) (y : ℚ) (q k : ℕ), 0 ≤ y ∧ x = withSign s y ∧ RoundedEven long y q k ∧
    d.toRat = withSign s ((q : ℚ) / 10 ^ k)

theorem RoundsEven.rounds {long : Prop} {x : ℚ} {d : Decimal} (h : d.RoundsEven long x) :
    d.Rounds x := by
  obtain ⟨s, y, q, k, hy, hx, hr, hd⟩ := h
  exact ⟨s, y, q, k, hy, hx, hr.rounded, hd⟩

inductive Outcome (x : ℚ) : Option Decimal → Prop
  | some {d : Decimal} (h : d.Rounds x) : Outcome x (some d)
  | none (h : limit ≤ |x|) : Outcome x none

/-- What an operation gives that rounds half-even. -/
inductive OutcomeEven (long : Prop) (x : ℚ) : Option Decimal → Prop
  | some {d : Decimal} (h : d.RoundsEven long x) : OutcomeEven long x (some d)
  | none (h : limit ≤ |x|) : OutcomeEven long x none

theorem OutcomeEven.outcome {long : Prop} {x : ℚ} {o : Option Decimal}
    (h : OutcomeEven long x o) : Outcome x o := by
  cases h with
  | some h => exact .some h.rounds
  | none h => exact .none h

theorem rounded_halfEven {m k j : ℕ} (hj : k - 28 ≤ j) (hjk : j ≤ k)
    (hf : Fits (halfEven m (tenPow j)))
    (h : j = k - 28 ∨ ∃ i, j = i + 1 ∧ ¬ Fits (halfEven m (tenPow i))) (long : Prop) :
    RoundedEven long ((m : ℚ) / 10 ^ k) (halfEven m (tenPow j)) (k - j) := by
  have hx : (m : ℚ) / 10 ^ k * 10 ^ (k - j) = (m : ℚ) / 10 ^ j := by
    obtain ⟨i, rfl⟩ := Nat.exists_eq_add_of_le hjk
    rw [Nat.add_sub_cancel_left, pow_add]
    field_simp
  have hn := nearest_halfEven m (tenPow_pos j)
  rw [cast_tenPow] at hn
  refine ⟨hf, by omega, hx ▸ hn, fun he => .inl (even_halfEven (tenPow_pos j) ?_), ?_⟩
  · rwa [hx, ← cast_tenPow] at he
  -- No place could be given up, or one less would have been too few.
  rcases h with rfl | ⟨i, rfl, hi⟩
  · rcases Nat.lt_or_ge k 28 with hk | hk
    · rw [hx, Nat.sub_eq_zero_of_le hk.le, tenPow_zero, halfEven_one, pow_zero, div_one]
      exact .inl rfl
    · exact .inr (.inl (by omega))
  · have hl := (nearest_halfEven m (tenPow_pos i)).limit_le hi
    rw [cast_tenPow] at hl
    have hm : (m : ℚ) / 10 ^ i = (m : ℚ) / 10 ^ k * 10 ^ (k - (i + 1) + 1) := by
      rw [pow_succ, ← mul_assoc, hx, pow_succ]
      field_simp
    exact .inr (.inr (hm ▸ hl))

/-- Ever more places are given up until the rest fits. -/
theorem outcomeEven_findSome? (s : Bool) (m k : ℕ) {n j : ℕ} (hn : j + n = k + 1)
    (hj : k - 28 ≤ j) (h : j = k - 28 ∨ ∃ i, j = i + 1 ∧ ¬ Fits (halfEven m (tenPow i))) :
    OutcomeEven False (withSign s ((m : ℚ) / 10 ^ k))
      ((List.range' j n).findSome? fun j => ofParts? s (halfEven m (tenPow j)) (k - j)) := by
  have hx : (0 : ℚ) ≤ (m : ℚ) / 10 ^ k := by positivity
  induction n generalizing j with
  | zero =>
      obtain ⟨i, hi, hf⟩ := h.resolve_left (by omega)
      obtain rfl : i = k := by omega
      have hl := (nearest_halfEven m (tenPow_pos i)).limit_le hf
      rw [cast_tenPow] at hl
      exact .none ((abs_withSign hx).symm ▸ hl)
  | succ n ih =>
      rw [List.range'_succ, List.findSome?_cons]
      by_cases hf : Fits (halfEven m (tenPow j))
      · rw [ofParts?, dif_pos ⟨hf, by omega⟩]
        exact .some ⟨s, _, _, k - j, hx, rfl, rounded_halfEven hj (by omega) hf h False,
          toRat_eq_withSign _⟩
      · rw [ofParts?, dif_neg fun h => hf h.1]
        exact ih (by omega) (by omega) (.inr ⟨j, rfl, hf⟩)

theorem outcomeEven_fit (s : Bool) (m k : ℕ) :
    OutcomeEven False (withSign s ((m : ℚ) / 10 ^ k)) (fit s m k) :=
  outcomeEven_findSome? s m k (by omega) (Nat.le_refl _) (.inl rfl)

variable {long : Prop} {x : ℚ} {o : Option Decimal} {a b d : Decimal}

theorem RoundsEven.self (d : Decimal) : d.RoundsEven long d.toRat :=
  ⟨d.negative, _, d.mantissa, d.scale, by positivity, d.toRat_eq_withSign,
    .exact d.fits d.scale_le (div_mul_cancel₀ _ (by positivity)), d.toRat_eq_withSign⟩

theorem toRat_neg (d : Decimal) : d.neg.toRat = -d.toRat := by
  have hs : d.neg.signed = -d.signed := by
    cases hn : d.negative <;> simp [signed, neg, hn]
  rw [toRat, hs, Int.cast_neg, neg_div]
  rfl

theorem toRat_aligned {k : ℕ} (h : d.scale ≤ k) :
    d.toRat = ((d.signed * tenPow (k - d.scale) : ℤ) : ℚ) / 10 ^ k := by
  obtain ⟨i, rfl⟩ := Nat.exists_eq_add_of_le h
  rw [toRat, Nat.add_sub_cancel_left, pow_add]
  push_cast
  field_simp

theorem outcomeEven_add? (a b : Decimal) :
    OutcomeEven False (a.toRat + b.toRat) (a.add? b) := by
  rw [add?]
  split
  · rename_i hz
    rw [toRat_eq_zero_iff.2 hz, zero_add]
    exact .some (.self b)
  split
  · rename_i hz
    rw [toRat_eq_zero_iff.2 hz, add_zero]
    exact .some (.self a)
  · have h := outcomeEven_fit (decide (a.signed * tenPow (max a.scale b.scale - a.scale) +
        b.signed * tenPow (max a.scale b.scale - b.scale) < 0))
      (a.signed * tenPow (max a.scale b.scale - a.scale) +
        b.signed * tenPow (max a.scale b.scale - b.scale)).natAbs (max a.scale b.scale)
    rwa [withSign_div, withSign_natAbs, Int.cast_add, add_div, ← toRat_aligned (le_max_left ..),
      ← toRat_aligned (le_max_right ..)] at h

theorem outcome_add? (a b : Decimal) : Outcome (a.toRat + b.toRat) (a.add? b) :=
  (outcomeEven_add? a b).outcome

theorem outcomeEven_sub? (a b : Decimal) :
    OutcomeEven False (a.toRat - b.toRat) (a.sub? b) := by
  rw [sub?]
  split
  · rename_i hz
    obtain ⟨ha, hb⟩ := Bool.and_eq_true_iff.1 hz
    rw [toRat_eq_zero_iff.2 ha, toRat_eq_zero_iff.2 hb, sub_zero, ← toRat_eq_zero_iff.2 hb]
    exact .some (.self b)
  · rw [sub_eq_add_neg, ← toRat_neg]
    exact outcomeEven_add? a b.neg

theorem outcome_sub? (a b : Decimal) : Outcome (a.toRat - b.toRat) (a.sub? b) :=
  (outcomeEven_sub? a b).outcome

theorem OutcomeEven.map {f : Decimal → Decimal} (hf : ∀ d, (f d).toRat = d.toRat)
    (h : OutcomeEven long x o) : OutcomeEven long x (o.map f) := by
  cases h with
  | some h =>
      refine .some ?_
      rwa [RoundsEven, hf]
  | none h => exact .none h

theorem roundsEven_zero {y : ℚ} (s : Bool) (hy : 0 ≤ y) (h : y * 10 ^ 28 < 1 / 2) :
    zero.RoundsEven long (withSign s y) := by
  refine ⟨s, y, 0, 28, hy, rfl, ⟨by decide, Nat.le_refl 28, ⟨?_, ?_, fun _ => rfl⟩,
    fun _ => .inl rfl, .inr (.inl rfl)⟩, ?_⟩
  · push_cast; linarith
  · push_cast; positivity
  · rw [toRat_eq_zero_iff.2 rfl]
    cases s <;> simp [withSign]

theorem toRat_mul_toRat (a b : Decimal) : a.toRat * b.toRat = withSign (a.negative != b.negative)
    (((a.mantissa * b.mantissa : ℕ) : ℚ) / 10 ^ (a.scale + b.scale)) := by
  rw [a.toRat_eq_withSign, b.toRat_eq_withSign, withSign_mul, div_mul_div_comm, pow_add,
    Nat.cast_mul]

theorem tiny_product {m n k : ℕ} (hm : m < 2 ^ 32) (hn : n < 2 ^ 32) (hk : 47 < k) :
    ((m * n : ℕ) : ℚ) / 10 ^ k * 10 ^ 28 < 1 / 2 := by
  have hmn : ((m * n : ℕ) : ℚ) < 2 ^ 64 := by
    exact_mod_cast Nat.mul_lt_mul'' hm hn
  have hp : (10 : ℚ) ^ 48 ≤ 10 ^ k := pow_le_pow_right₀ (by norm_num) hk
  rw [div_mul_eq_mul_div, div_lt_iff₀ (by positivity)]
  linarith

theorem outcomeEven_mul? (a b : Decimal) :
    OutcomeEven False (a.toRat * b.toRat) (a.mul? b) := by
  rw [mul?]
  split
  · rename_i hz
    have hp : a.toRat * b.toRat = zero.toRat := by
      rw [toRat_eq_zero_iff.2 (rfl : zero.isZero = true), mul_eq_zero, toRat_eq_zero_iff,
        toRat_eq_zero_iff]
      exact Bool.or_eq_true_iff.1 hz
    rw [hp]
    exact .some (.self zero)
  split
  · rename_i h
    rw [toRat_mul_toRat]
    simp only [bothShort, Bool.and_eq_true, decide_eq_true_eq] at h
    exact .some (roundsEven_zero _ (by positivity) (tiny_product h.1.1 h.1.2 h.2))
  · rw [toRat_mul_toRat]
    refine (outcomeEven_fit _ _ _).map fun p => ?_
    split
    · rename_i h
      have hz : p.isZero = true := (Bool.and_eq_true_iff.1 h).2
      have hz' : isZero { p with negative := false } = true := hz
      rw [toRat_eq_zero_iff.2 hz, toRat_eq_zero_iff.2 hz']
    · rfl

theorem outcome_mul? (a b : Decimal) : Outcome (a.toRat * b.toRat) (a.mul? b) :=
  (outcomeEven_mul? a b).outcome

end Decimal

end Reckoner
