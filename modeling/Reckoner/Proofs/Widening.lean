import Reckoner.Proofs.ExactConversion
import Reckoner.Proofs.OperatorTable
import Mathlib.Data.Nat.Cast.Order.Field

namespace Reckoner

/-- The number without its fraction. -/
structure WholePart (x : ℚ) (t : ℤ) : Prop where
  of_nonneg : 0 ≤ x → t ≤ x ∧ x < t + 1
  of_nonpos : x ≤ 0 → x ≤ t ∧ t - 1 < x

namespace WholePart

variable {x : ℚ} {t t' : ℤ}

theorem unique (h : WholePart x t) (h' : WholePart x t') : t = t' := by
  have hlt : (t : ℚ) < t' + 1 ∧ (t' : ℚ) < t + 1 := by
    rcases le_total 0 x with hx | hx
    · have hb := h.of_nonneg hx
      have hb' := h'.of_nonneg hx
      exact ⟨by linarith, by linarith⟩
    · have hb := h.of_nonpos hx
      have hb' := h'.of_nonpos hx
      exact ⟨by linarith, by linarith⟩
  norm_cast at hlt
  omega

theorem neg (h : WholePart x t) : WholePart (-x) (-t) := by
  constructor
  · intro hx
    have hb := h.of_nonpos (by linarith)
    push_cast
    exact ⟨by linarith, by linarith⟩
  · intro hx
    have hb := h.of_nonneg (by linarith)
    push_cast
    exact ⟨by linarith, by linarith⟩

theorem withSign (s : Bool) (h : WholePart x t) :
    WholePart (withSign s x) (Reckoner.withSign s t) := by
  cases s with
  | false => exact h
  | true => exact h.neg

theorem of_between {n : ℕ} (hge : (n : ℚ) ≤ x) (hlt : x < n + 1) : WholePart x n := by
  have hn : (0 : ℚ) ≤ n := Nat.cast_nonneg n
  constructor
  · exact fun _ => ⟨by exact_mod_cast hge, by exact_mod_cast hlt⟩
  · intro hx
    push_cast
    exact ⟨by linarith, by linarith⟩

theorem natDiv (m : ℕ) {n : ℕ} (hn : n ≠ 0) : WholePart ((m : ℚ) / n) (m / n : ℕ) := by
  refine of_between Nat.cast_div_le ?_
  have hpos : 0 < n := Nat.pos_of_ne_zero hn
  rw [div_lt_iff₀ (by exact_mod_cast hpos), mul_comm]
  exact_mod_cast Nat.lt_mul_div_succ m hpos

theorem tdiv (a : ℤ) {b : ℤ} (hb : b ≠ 0) : WholePart ((a : ℚ) / b) (a.tdiv b) := by
  obtain ⟨m, rfl | rfl⟩ := a.eq_nat_or_neg <;> obtain ⟨n, rfl | rfl⟩ := b.eq_nat_or_neg
  all_goals have h := natDiv m (n := n) (by simpa using hb)
  · exact h
  · simpa [Int.tdiv_neg, div_neg] using h.neg
  · simpa [Int.neg_tdiv, neg_div] using h.neg
  · simpa [Int.neg_tdiv, Int.tdiv_neg] using h

end WholePart

namespace Decimal

variable {d : Decimal}

theorem wholePart_truncate (d : Decimal) : WholePart d.toRat d.truncate := by
  have h := WholePart.tdiv d.signed (b := tenPow d.scale)
    (by exact_mod_cast (tenPow_pos d.scale).ne')
  rwa [Int.cast_natCast, cast_tenPow] at h

theorem Rounds.eq_of_int {z : ℤ} (h : d.Rounds z) : d.toRat = z := by
  obtain ⟨s, y, q, k, hy, hz, h, hd⟩ := h
  have hy' : y = z.natAbs := by
    rw [← abs_withSign (s := s) hy, ← hz, Nat.cast_natAbs, Int.cast_abs]
  have hq : q = z.natAbs * 10 ^ k := by
    refine Nearest.eq_of_nat ?_
    have hn := h.nearest
    rw [hy'] at hn
    exact_mod_cast hn
  rw [hd, hz, hy', hq, Nat.cast_mul, Nat.cast_pow, Nat.cast_ofNat,
    mul_div_cancel_right₀ _ (by positivity)]

theorem between_of_nearest {x f : ℚ} {n q k : ℕ} (hx : x = n + f) (hf : 1 / 2 < f * 10 ^ k)
    (hf' : 1 / 2 < (1 - f) * 10 ^ k) (h : Nearest (x * 10 ^ k) q) :
    (n : ℚ) < q / 10 ^ k ∧ (q : ℚ) / 10 ^ k < n + 1 := by
  have hp : (0 : ℚ) < 10 ^ k := by positivity
  have hge := h.ge
  have hle := h.le
  rw [hx, add_mul] at hge hle
  rw [lt_div_iff₀ hp, div_lt_iff₀ hp]
  exact ⟨by linarith, by linarith⟩

theorem Rounded.lt_of_quotient {m b q k : ℕ} (hm : m ≤ 2 ^ 63) (hb : b ≤ 2 ^ 63) (hb0 : 0 < b)
    (h : Rounded ((m : ℚ) / b) q k) :
    (q : ℚ) = (m : ℚ) / b * 10 ^ k ∨ (b : ℚ) < 2 * 10 ^ k := by
  have hm' : (m : ℚ) ≤ 2 ^ 63 := by exact_mod_cast hm
  have hb' : (b : ℚ) ≤ 2 ^ 63 := by exact_mod_cast hb
  have hbq : (0 : ℚ) < b := by exact_mod_cast hb0
  rcases h.last with he | rfl | hfull
  · exact .inl he
  · exact .inr (by norm_num at hb' ⊢; linarith)
  · right
    -- The mantissa is full, which it is with many places alone.
    have hle := h.nearest.le
    have hp : (0 : ℚ) < 10 ^ k := by positivity
    have hwide : (2 ^ 96 - 15) ≤ 10 * ((m : ℚ) / b * 10 ^ k) := by linarith
    have hmul : (2 ^ 96 - 15) * (b : ℚ) ≤ 10 * (m * 10 ^ k) := by
      calc (2 ^ 96 - 15) * (b : ℚ) ≤ 10 * ((m : ℚ) / b * 10 ^ k) * b :=
            mul_le_mul_of_nonneg_right hwide hbq.le
        _ = 10 * (m * 10 ^ k) := by field_simp
    have hmp : (m : ℚ) * 10 ^ k ≤ 2 ^ 63 * 10 ^ k := mul_le_mul_of_nonneg_right hm' hp.le
    linarith

theorem Rounded.between_of_not_dvd {m b q k : ℕ} (hm : m ≤ 2 ^ 63) (hb : b ≤ 2 ^ 63) (hb0 : 0 < b)
    (hd : ¬ b ∣ m) (h : Rounded ((m : ℚ) / b) q k) :
    ((m / b : ℕ) : ℚ) < q / 10 ^ k ∧ (q : ℚ) / 10 ^ k < (m / b : ℕ) + 1 := by
  have hp : (0 : ℚ) < 10 ^ k := by positivity
  have hbq : (0 : ℚ) < b := by exact_mod_cast hb0
  have hr : 0 < m % b := Nat.pos_of_ne_zero fun h => hd (Nat.dvd_of_mod_eq_zero h)
  have hx := natCast_div_eq m hb0
  have hf : 1 / b ≤ ((m % b : ℕ) : ℚ) / b := by
    rw [div_le_div_iff_of_pos_right hbq]
    exact_mod_cast hr
  have hf' : 1 / b ≤ 1 - ((m % b : ℕ) : ℚ) / b := by
    rw [le_sub_iff_add_le, ← add_div, div_le_one hbq]
    exact_mod_cast (Nat.add_comm ..).trans_le (Nat.mod_lt m hb0)
  have hpos : (0 : ℚ) < 1 / b := by positivity
  rcases h.lt_of_quotient hm hb hb0 with he | hlt
  · rw [he, mul_div_cancel_right₀ _ hp.ne', hx]
    exact ⟨by linarith, by linarith⟩
  · have hhalf : 1 / 2 < 1 / (b : ℚ) * 10 ^ k := by
      rw [div_mul_eq_mul_div, one_mul, lt_div_iff₀ hbq]
      linarith
    exact between_of_nearest hx (hhalf.trans_le (mul_le_mul_of_nonneg_right hf hp.le))
      (hhalf.trans_le (mul_le_mul_of_nonneg_right hf' hp.le)) h.nearest

/-- The whole part of a rounded quotient is the quotient toward zero, and it is a whole number only
if the division leaves no remainder. -/
theorem Rounds.quotient {a b : ℤ} (ha : a.natAbs ≤ 2 ^ 63) (hb : b.natAbs ≤ 2 ^ 63) (hb0 : b ≠ 0)
    (h : d.Rounds ((a : ℚ) / b)) :
    d.truncate = a.tdiv b ∧ ∀ z : ℤ, d.toRat = z ↔ z = a.tdiv b ∧ b ∣ a := by
  by_cases hd : b ∣ a
  · have hq : (a : ℚ) / b = (a.tdiv b : ℤ) := by
      rw [div_eq_iff (by exact_mod_cast hb0)]
      exact_mod_cast (Int.tdiv_mul_cancel hd).symm
    have ht := (hq ▸ h).eq_of_int
    refine ⟨(toRat_eq_intCast_iff.1 ht).2, fun z => ?_⟩
    rw [ht, Int.cast_inj]
    exact ⟨fun he => ⟨he.symm, hd⟩, fun he => he.1.symm⟩
  · have hw := WholePart.tdiv a hb0
    obtain ⟨s, y, q, k, hy, hx, h, ht⟩ := h
    have hy' : y = (a.natAbs : ℚ) / b.natAbs := by
      rw [← abs_withSign (s := s) hy, ← hx, abs_div, Nat.cast_natAbs, Nat.cast_natAbs,
        Int.cast_abs, Int.cast_abs]
    rw [hy'] at h
    -- Rounding does not reach a whole number, so the whole part stays.
    have hlt := h.between_of_not_dvd ha hb (Int.natAbs_pos.2 hb0)
      fun hn => hd (Int.natAbs_dvd_natAbs.1 hn)
    rw [hx, hy'] at hw
    have hn := (WholePart.natDiv a.natAbs (Int.natAbs_ne_zero.2 hb0)).withSign s
    have hd' := (WholePart.of_between hlt.1.le hlt.2).withSign s
    rw [← ht] at hd'
    refine ⟨d.wholePart_truncate.unique (hw.unique hn ▸ hd'), fun z => ⟨fun hz => ?_, ?_⟩⟩
    · have hq : (q : ℚ) / 10 ^ k = z.natAbs := by
        rw [← abs_withSign (s := s) (by positivity : (0 : ℚ) ≤ (q : ℚ) / 10 ^ k), ← ht, hz,
          Nat.cast_natAbs, Int.cast_abs]
      rw [hq] at hlt
      norm_cast at hlt
      omega
    · exact fun he => absurd he.2 hd

end Decimal

namespace Integer

theorem natAbs_le (n : Integer) : n.val.natAbs ≤ 2 ^ 63 := by
  have h := n.fits
  omega

theorem fits_tdiv (a b : Integer) (h : ¬ (a.val = -0x80000000_00000000 ∧ b.val = -1)) :
    Fits (a.val.tdiv b.val) := by
  have hf := a.fits
  have habs : (a.val.tdiv b.val).natAbs = a.val.natAbs / b.val.natAbs := Int.natAbs_tdiv ..
  have hle : a.val.natAbs / b.val.natAbs ≤ a.val.natAbs := Nat.div_le_self ..
  by_cases h2 : 2 ≤ b.val.natAbs
  · have hhalf : a.val.natAbs / b.val.natAbs ≤ a.val.natAbs / 2 :=
      Nat.div_le_div_left h2 (by decide)
    omega
  · obtain hb | hb | hb : b.val = 0 ∨ b.val = 1 ∨ b.val = -1 := by omega
    · rw [hb, Int.tdiv_zero]
      decide
    · rwa [hb, Int.tdiv_one]
    · rw [hb, Int.tdiv_neg, Int.tdiv_one]
      omega

end Integer

namespace Arithmetic

variable {op : Arithmetic} {a b n : Integer}

theorem onIntegers_eq_ok_iff :
    op.onIntegers a b = .ok n ↔ op.ideal? a.val b.val = some n.val := by
  rw [op.onIntegers_eq]
  cases hz : op.ideal? a.val b.val with
  | none => simp
  | some z =>
      have hn : z = n.val ↔ Integer.ofInt? z = some n :=
        eq_comm.trans Signed.ofInt?_eq_some_iff.symm
      simp only [Option.some.injEq, hn]
      cases Integer.ofInt? z <;> simp [orOverflow]

theorem onNumbers?_intCast (hop : op ≠ divide) (x y : ℤ) :
    op.onNumbers? x y = (op.ideal? x y).map Int.cast := by
  cases op with
  | add | subtract | multiply => simp [onNumbers?, ideal?]
  | divide => exact absurd rfl hop

theorem Comes.exists_rounds {x y z : ℚ} {o : Except EvalError Decimal} (h : op.Comes x y o)
    (hz : op.onNumbers? x y = some z) (hlt : |z| < Decimal.limit) :
    ∃ d, o = .ok d ∧ d.Rounds z := by
  cases h with
  | value hz' h =>
      cases hz.symm.trans hz'
      exact ⟨_, rfl, h⟩
  | overflow hz' h =>
      cases hz.symm.trans hz'
      exact absurd hlt h.not_gt
  | division hz' => cases hz.symm.trans hz'

end Arithmetic

/-- Two values that are the numbers of two integers, with a decimal among them. -/
structure Widened (a b : Integer) (l r : Value) : Prop where
  left : l.number? = some (a.val : ℚ)
  right : r.number? = some (b.val : ℚ)
  decimal : l.kind = .decimal ∨ r.kind = .decimal

namespace Widened

variable {a b : Integer} {l r : Value}

theorem of_left (a b : Integer) : Widened a b (.decimal (.ofInteger a)) (.integer b) :=
  ⟨congrArg some (Decimal.toRat_ofInteger a), rfl, .inl rfl⟩

theorem of_right (a b : Integer) : Widened a b (.integer a) (.decimal (.ofInteger b)) :=
  ⟨rfl, congrArg some (Decimal.toRat_ofInteger b), .inr rfl⟩

theorem of_both (a b : Integer) :
    Widened a b (.decimal (.ofInteger a)) (.decimal (.ofInteger b)) :=
  ⟨(of_left a b).left, (of_right a b).right, .inl rfl⟩

theorem exists_rounds (h : Widened a b l r) {op : Arithmetic} {z : ℚ}
    (hz : op.onNumbers? a.val b.val = some z) (hlt : |z| ≤ 2 ^ 63) :
    ∃ d, BinaryOperator.apply (.arithmetic op) l r = .ok (.decimal d) ∧ d.Rounds z := by
  obtain ⟨o, ho, ha⟩ := BinaryOperator.apply_eq_onDecimals op h.left h.right h.decimal
  have hlimit : |z| < Decimal.limit := by
    rw [Decimal.limit]
    linarith
  obtain ⟨d, rfl, hd⟩ := ho.exists_rounds hz hlimit
  exact ⟨d, ha, hd⟩

theorem abs_intCast_le {z : ℤ} (h : Integer.Fits z) : |(z : ℚ)| ≤ 2 ^ 63 := by
  rw [← Int.cast_abs, Int.abs_eq_natAbs]
  exact_mod_cast Integer.natAbs_le ⟨z, h⟩

theorem value (h : Widened a b l r) {op : Arithmetic} (hop : op ≠ .divide) {n : Integer}
    (hn : BinaryOperator.apply (.arithmetic op) (.integer a) (.integer b) = .ok (.integer n)) :
    ∃ d, BinaryOperator.apply (.arithmetic op) l r = .ok (.decimal d) ∧ d.toRat = n.val := by
  obtain ⟨m, hi, hm⟩ := map_eq_ok_iff (x := op.onIntegers a b).1 hn
  cases hm
  have hz : op.onNumbers? a.val b.val = some (n.val : ℚ) := by
    rw [Arithmetic.onNumbers?_intCast hop, Arithmetic.onIntegers_eq_ok_iff.1 hi]
    rfl
  obtain ⟨d, hd, hr⟩ := h.exists_rounds hz (abs_intCast_le n.fits)
  exact ⟨d, hd, hr.eq_of_int⟩

theorem quotient (h : Widened a b l r) (hb : b.val ≠ 0) :
    ∃ d, BinaryOperator.apply (.arithmetic .divide) l r = .ok (.decimal d) ∧
      d.truncate = a.val.tdiv b.val ∧
      ∀ z : ℤ, d.toRat = z ↔ z = a.val.tdiv b.val ∧ b.val ∣ a.val := by
  have hb' : (b.val : ℚ) ≠ 0 := by exact_mod_cast hb
  have hle : |(a.val : ℚ) / b.val| ≤ 2 ^ 63 := by
    have hone : (1 : ℚ) ≤ |(b.val : ℚ)| := by exact_mod_cast Int.one_le_abs hb
    rw [abs_div]
    exact (div_le_self (abs_nonneg _) hone).trans (abs_intCast_le a.fits)
  have hz : Arithmetic.divide.onNumbers? a.val b.val = some ((a.val : ℚ) / b.val) := if_neg hb'
  obtain ⟨d, hd, hr⟩ := h.exists_rounds hz hle
  exact ⟨d, hd, hr.quotient (Integer.natAbs_le a) (Integer.natAbs_le b) hb⟩

end Widened

/-- Whole numbers come out the same whether integers or decimals are computed with, or at least
their whole parts do, where decimals have a fraction. -/
theorem BinaryOperator.apply_widened {a b : Integer} {l r : Value} (h : Widened a b l r) :
    (∀ op ≠ Arithmetic.divide, ∀ n,
      apply (.arithmetic op) (.integer a) (.integer b) = .ok (.integer n) →
        ∃ d, apply (.arithmetic op) l r = .ok (.decimal d) ∧ d.toRat = n.val) ∧
    (b.val ≠ 0 → ¬ (a.val = -0x80000000_00000000 ∧ b.val = -1) →
      ∃ n d, apply (.arithmetic .divide) (.integer a) (.integer b) = .ok (.integer n) ∧
        apply (.arithmetic .divide) l r = .ok (.decimal d) ∧ d.truncate = n.val ∧
        ∀ m, (Value.decimal d).toInteger = .ok m ↔ m = n ∧ b.val ∣ a.val) ∧
    (b.val = 0 →
      apply (.arithmetic .divide) (.integer a) (.integer b) = .error .divisionByZero ∧
      apply (.arithmetic .divide) l r = .error .divisionByZero) := by
  refine ⟨fun op hop n hn => h.value hop hn, fun hb hab => ?_, fun hb => ⟨?_, ?_⟩⟩
  · obtain ⟨d, hd, ht, hz⟩ := h.quotient hb
    let n : Integer := ⟨a.val.tdiv b.val, Integer.fits_tdiv a b hab⟩
    have hn : Arithmetic.divide.onIntegers a b = .ok n :=
      Arithmetic.onIntegers_eq_ok_iff.2 (if_neg hb)
    refine ⟨n, d, map_eq_ok_iff.2 ⟨n, hn, rfl⟩, hd, ht, fun m => ?_⟩
    rw [Value.toInteger_eq_ok_iff, Value.number?, Option.some.injEq, hz, Signed.ext_iff]
  · exact (apply_division_iff .divide rfl rfl).2 ⟨rfl, by exact_mod_cast hb⟩
  · exact (apply_division_iff .divide h.left h.right).2 ⟨rfl, by exact_mod_cast hb⟩

theorem BinaryOperator.apply_widened_least :
    let a : Integer := ⟨-0x80000000_00000000, by decide⟩
    let b : Integer := ⟨3, by decide⟩
    let zero : Integer := ⟨0, by decide⟩
    (∃ d, apply (.arithmetic .add) (.decimal (.ofInteger a)) (.integer b) = .ok (.decimal d) ∧
      d.toRat = (-0x7fffffff_fffffffd : ℤ)) ∧
    (∃ n d, apply (.arithmetic .divide) (.integer a) (.integer b) = .ok (.integer n) ∧
      apply (.arithmetic .divide) (.integer a) (.decimal (.ofInteger b)) = .ok (.decimal d) ∧
      d.truncate = n.val ∧ ∀ m, (Value.decimal d).toInteger ≠ .ok m) ∧
    apply (.arithmetic .divide) (.decimal (.ofInteger a)) (.decimal (.ofInteger zero)) =
      .error .divisionByZero := by
  intro a b zero
  refine ⟨?_, ?_, ?_⟩
  · exact (apply_widened (.of_left a b)).1 .add (by decide) ⟨-0x7fffffff_fffffffd, by decide⟩ rfl
  · obtain ⟨n, d, hn, hd, ht, hi⟩ :=
      (apply_widened (.of_right a b)).2.1 (by decide) (by decide)
    exact ⟨n, d, hn, hd, ht, fun m hm => absurd ((hi m).1 hm).2 (by decide)⟩
  · exact ((apply_widened (.of_both a zero)).2.2 rfl).2

end Reckoner
