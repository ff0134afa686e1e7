import Reckoner.Decimal.Arithmetic
import Reckoner.Proofs.Rounding
import Mathlib.Tactic.Ring

namespace Reckoner.Decimal

theorem fits_room {q : ℕ} (h : Fits q) (n : ℕ) : Fits (q * tenPow (room q n)) := by
  induction n with
  | zero => rwa [room, tenPow_zero, Nat.mul_one]
  | succ n ih =>
      rw [room]
      split
      · assumption
      · exact ih

theorem not_fits_of_room_lt {q n : ℕ} (h : room q n < n) :
    ¬ Fits (q * tenPow (room q n + 1)) := by
  induction n with
  | zero => cases h
  | succ n ih =>
      rw [room] at h ⊢
      split at h
      · exact absurd h (Nat.lt_irrefl _)
      · rename_i hf
        rw [if_neg hf]
        rcases Nat.lt_or_ge (room q n) n with hlt | hge
        · exact ih hlt
        · rwa [Nat.le_antisymm (room_le q n) hge]

/-- A number as far as it has been divided out: the quotient so far, and the remainder over the
divisor. -/
structure Stands (x : ℚ) (d q r : ℕ) (scale : ℤ) : Prop where
  lt : r < d
  fits : Fits q
  scale_le : scale ≤ 28
  eq : x * 10 ^ scale = q + (r : ℚ) / d

inductive LongDivision.Ends (long : Prop) (x : ℚ) : Option LongDivision → Prop
  | some {a : LongDivision} {k : ℕ} (hs : a.scale = k) (h : RoundedEven long x a.q k) :
      Ends long x (some a)
  | none (h : limit ≤ x) : Ends long x none

/-- A divisor that can leave a remainder which spills. -/
def Long (d : ℕ) : Prop := 2 ^ 64 ≤ d

variable {x : ℚ} {d q r : ℕ} {scale : ℤ}

theorem limit_le_of_scale_le (hx : 0 ≤ x) (hs : scale ≤ 0) (h : limit ≤ x * 10 ^ scale) :
    limit ≤ x := by
  have hp : (10 : ℚ) ^ scale ≤ 1 := zpow_le_one_of_nonpos₀ (by norm_num) hs
  exact h.trans (mul_le_of_le_one_right hx hp)

namespace Stands

theorem step (h : Stands x d q r scale) (p : ℕ) : x * 10 ^ (scale + p) =
    ((q * tenPow p + r * tenPow p / d : ℕ) : ℚ) + ((r * tenPow p % d : ℕ) : ℚ) / d := by
  have hd : (d : ℚ) ≠ 0 := by exact_mod_cast (Nat.zero_lt_of_lt h.lt).ne'
  have hm : ((r * tenPow p : ℕ) : ℚ) =
      d * ((r * tenPow p / d : ℕ) : ℚ) + ((r * tenPow p % d : ℕ) : ℚ) := by
    exact_mod_cast (Nat.div_add_mod (r * tenPow p) d).symm
  calc x * 10 ^ (scale + p) = (q + (r : ℚ) / d) * 10 ^ p := by
        rw [zpow_add₀ (by norm_num), zpow_natCast, ← mul_assoc, h.eq]
    _ = ((q * tenPow p : ℕ) : ℚ) + ((r * tenPow p : ℕ) : ℚ) / d := by
        push_cast
        ring
    _ = _ := by
        rw [hm]
        push_cast
        field_simp
        ring

theorem next (h : Stands x d q r scale) {p : ℕ} (hs : scale + p ≤ 28)
    (hf : Fits (q * tenPow p + r * tenPow p / d)) :
    Stands x d (q * tenPow p + r * tenPow p / d) (r * tenPow p % d) (scale + p) :=
  ⟨Nat.mod_lt _ (Nat.zero_lt_of_lt h.lt), hf, hs, h.step p⟩

theorem le_of_not_fits (h : Stands x d q r scale) {p : ℕ}
    (hf : ¬ Fits (q * tenPow p + r * tenPow p / d)) : limit ≤ x * 10 ^ (scale + p) := by
  rw [h.step p]
  exact ((Nearest.self _).limit_le hf).trans (le_add_of_nonneg_right (by positivity))

/-- The room is for the old digits. With the new ones, which are nine at most, the quotient can pass
the mantissas, but not by much. -/
theorem lt_of_room (h : Stands x d q r scale) : q * tenPow (room q (stride scale)) +
    r * tenPow (room q (stride scale)) / d < 2 ^ 96 + 2 ^ 30 := by
  have hold := fits_room h.fits (stride scale)
  have hnine : room q (stride scale) ≤ 9 := (room_le ..).trans (Nat.min_le_left ..)
  generalize room q (stride scale) = p at hold hnine
  have hnew : r * tenPow p / d < tenPow p := by
    rw [Nat.div_lt_iff_lt_mul (Nat.zero_lt_of_lt h.lt), Nat.mul_comm]
    exact Nat.mul_lt_mul_of_pos_left h.lt (tenPow_pos p)
  have hten : tenPow p ≤ tenPow 9 := Nat.pow_le_pow_right (by decide) hnine
  have hlt : tenPow 9 < 2 ^ 30 := by decide
  omega

theorem le (h : Stands x d q r scale) : q ≤ x * 10 ^ scale := by
  rw [h.eq]
  exact le_add_of_nonneg_right (by positivity)

theorem even (h : Stands x d q r scale)
    (he : ((if d < 2 * r ∨ d = 2 * r ∧ q % 2 = 1 then q + 1 else q : ℕ) : ℚ) =
      x * 10 ^ scale + 1 / 2) :
    (if d < 2 * r ∨ d = 2 * r ∧ q % 2 = 1 then q + 1 else q) % 2 = 0 :=
  even_of_remainder h.lt (h.eq ▸ he)

theorem nearest (h : Stands x d q r scale) : Nearest (x * 10 ^ scale)
    (if d < 2 * r ∨ d = 2 * r ∧ q % 2 = 1 then q + 1 else q) :=
  h.eq ▸ nearest_of_remainder h.lt

end Stands

namespace LongDivision

theorem nearest_up {y : ℚ} {m : ℕ} (hge : 10 * m + 5 ≤ y) (hlt : y < 10 * m + 10) :
    Nearest (y / 10) (m + 1) := by
  constructor
  · push_cast; linarith
  · push_cast; linarith
  · intro he
    push_cast at he
    linarith

theorem nearest_down {y : ℚ} {m : ℕ} (hge : 10 * m ≤ y) (hle : y ≤ 10 * m + 5)
    (he : y = 10 * m + 5 → m % 2 = 0) : Nearest (y / 10) m := by
  constructor
  · linarith
  · linarith
  · exact fun h => he (by linarith)

def roundsUp (q : ℕ) (sticky : Bool) : Bool :=
  5 < q % 10 || (q % 10 == 5 && (sticky || q / 10 % 2 == 1))

theorem shorten_succ (q : ℕ) (sticky : Bool) (k : ℕ) : shorten q sticky ((k : ℤ) + 1) =
    some ⟨q / 10 + (roundsUp q sticky).toNat, k, true⟩ := by
  rw [shorten, if_neg (by omega)]
  simp [roundsUp]

theorem nearest_shorten {y : ℚ} {sticky : Bool} (hle : (q : ℚ) ≤ y) (hlt : y < q + 1)
    (hs : y ≠ q → sticky = true) : Nearest (y / 10) (q / 10 + (roundsUp q sticky).toNat) := by
  have hq : (q : ℚ) = 10 * (q / 10 : ℕ) + (q % 10 : ℕ) := by
    exact_mod_cast (Nat.div_add_mod q 10).symm
  cases hu : roundsUp q sticky with
  | true =>
      simp only [roundsUp, Bool.or_eq_true, Bool.and_eq_true, decide_eq_true_eq, beq_iff_eq] at hu
      have h5 : (5 : ℚ) ≤ (q % 10 : ℕ) := by exact_mod_cast (by omega : 5 ≤ q % 10)
      have h9 : ((q % 10 : ℕ) : ℚ) ≤ 9 := by exact_mod_cast (by omega : q % 10 ≤ 9)
      exact nearest_up (by linarith) (by linarith)
  | false =>
      simp only [roundsUp, Bool.or_eq_false_iff, Bool.and_eq_false_iff, decide_eq_false_iff_not,
        beq_eq_false_iff_ne] at hu
      rw [Bool.toNat_false, Nat.add_zero]
      have h0 : (0 : ℚ) ≤ ((q % 10 : ℕ) : ℚ) := Nat.cast_nonneg _
      -- A last digit of five is dropped only with nothing behind it.
      by_cases h5 : q % 10 = 5
      · obtain ⟨rfl, he⟩ := hu.2.resolve_left (absurd h5)
        have hy : y = q := by_contra fun h => absurd (hs h) Bool.false_ne_true
        have h5' : ((q % 10 : ℕ) : ℚ) = 5 := by exact_mod_cast h5
        exact nearest_down (by linarith) (by linarith) fun _ => by omega
      · have h4 : ((q % 10 : ℕ) : ℚ) ≤ 4 := by exact_mod_cast (by omega : q % 10 ≤ 4)
        exact nearest_down (by linarith) (by linarith) fun h => by linarith

theorem long_of_spills {p : ℕ} (h : spills d r p = true) : Long d := by
  rw [spills, decide_eq_true_eq] at h
  exact h.1

theorem even_shorten {y : ℚ} {sticky : Bool} (hle : (q : ℚ) ≤ y)
    (h : ((q / 10 + (roundsUp q sticky).toNat : ℕ) : ℚ) = y / 10 + 1 / 2) :
    y = q ∧ (sticky = true ∨ (q / 10 + (roundsUp q sticky).toNat) % 2 = 0) := by
  have hq : (q : ℚ) = 10 * (q / 10 : ℕ) + (q % 10 : ℕ) := by
    exact_mod_cast (Nat.div_add_mod q 10).symm
  have h0 : (0 : ℚ) ≤ ((q % 10 : ℕ) : ℚ) := Nat.cast_nonneg _
  cases hu : roundsUp q sticky with
  | false =>
      rw [hu, Bool.toNat_false, Nat.add_zero] at h
      linarith
  | true =>
      rw [hu, Bool.toNat_true] at h
      push_cast at h
      simp only [roundsUp, Bool.or_eq_true, Bool.and_eq_true, decide_eq_true_eq, beq_iff_eq] at hu
      have h5 : (5 : ℚ) ≤ (q % 10 : ℕ) := by exact_mod_cast (by omega : 5 ≤ q % 10)
      -- The last digit is a five with nothing behind it but what spills.
      have hy : y = q := by linarith
      have h5' : q % 10 = 5 := by
        have : ((q % 10 : ℕ) : ℚ) = 5 := by linarith
        exact_mod_cast this
      refine ⟨hy, ?_⟩
      rcases hu with hu | ⟨-, hu | hu⟩
      · omega
      · exact .inl hu
      · exact .inr (by rw [Bool.toNat_true]; omega)

/-- A quotient that rounding makes too large by one ends with a digit that rounds up again. -/
theorem nearest_shorten_of_rounded (h : Stands x d q r scale) {q' : ℕ}
    (hn : Nearest (x * 10 ^ scale) q') (hq : q' ≤ q + 1) (hf : ¬ Fits q') :
    Nearest (x * 10 ^ scale / 10) (q' / 10 + (roundsUp q' true).toNat) := by
  have hfits := h.fits
  have hq' : q' = 2 ^ 96 := by omega
  have hlt := natCast_div_lt_one h.lt
  have hqq : (q : ℚ) + 1 ≤ q' := by exact_mod_cast (by omega : q + 1 ≤ q')
  have hle := hn.le
  have hm : (q' : ℚ) = 10 * (q' / 10 : ℕ) + 6 := by
    exact_mod_cast (by omega : q' = 10 * (q' / 10) + 6)
  have hu : roundsUp q' true = true := by
    rw [hq']
    decide
  rw [hu]
  refine nearest_up ?_ ?_
  · linarith
  · rw [h.eq]
    linarith

theorem even_shorten_of_rounded (h : Stands x d q r scale) {q' : ℕ} (hq : q' ≤ q + 1)
    (hf : ¬ Fits q') : (q' / 10 + (roundsUp q' true).toNat) % 2 = 0 := by
  have hfits := h.fits
  obtain rfl : q' = 2 ^ 96 := by omega
  decide

theorem ends_shorten {long : Prop} (hx : 0 ≤ x) (hs : scale ≤ 28) {sticky : Bool}
    (hf : ¬ Fits q) (hq : q < 2 ^ 96 + 2 ^ 30) (hl : limit ≤ x * 10 ^ scale)
    (hn : Nearest (x * 10 ^ scale / 10) (q / 10 + (roundsUp q sticky).toNat))
    (he : ((q / 10 + (roundsUp q sticky).toNat : ℕ) : ℚ) = x * 10 ^ scale / 10 + 1 / 2 →
      (q / 10 + (roundsUp q sticky).toNat) % 2 = 0 ∨ long) :
    Ends long x (shorten q sticky scale) := by
  have hu := Bool.toNat_le (roundsUp q sticky)
  by_cases h1 : scale < 1
  · rw [shorten, if_pos h1]
    exact .none (limit_le_of_scale_le hx (by omega) hl)
  · obtain ⟨k, rfl⟩ := Int.eq_succ_of_zero_lt (by omega : 0 < scale)
    have hx' : x * 10 ^ ((k : ℤ) + 1) / 10 = x * 10 ^ k := by
      rw [zpow_add_one₀ (by norm_num), zpow_natCast, ← mul_assoc,
        mul_div_cancel_right₀ _ (by norm_num)]
    have hfits : Fits (q / 10 + (roundsUp q sticky).toNat) := by omega
    have hl' : limit ≤ x * 10 ^ (k + 1) := by exact_mod_cast hl
    have hk : k < 28 := by omega
    rw [hx'] at hn he
    exact (shorten_succ q sticky k) ▸ .some rfl ⟨hfits, hk.le, hn,
      fun h => (he h).imp_right fun hlong => ⟨hlong, hk, hl'⟩, .inr (.inr hl')⟩

end LongDivision

theorem scale_add_le {p : ℕ} (hs : scale ≤ 28) (hp : p ≤ stride scale) : scale + p ≤ 28 := by
  have h := stride_le scale
  omega

theorem full_of_room_eq_zero (hs : scale ≤ 28) (h : room q (stride scale) = 0) :
    scale = 28 ∨ 2 ^ 96 ≤ 10 * q := by
  rcases Nat.eq_zero_or_pos (stride scale) with hz | hp
  · rw [stride] at hz
    omega
  · have hf := not_fits_of_room_lt (h ▸ hp : room q (stride scale) < stride scale)
    rw [h, Nat.zero_add, tenPow_succ, tenPow_zero] at hf
    omega

/-- Whatever digits the division has got, it ends with the nearest number of as many places as there
is room for. -/
theorem ends_expand (hx : 0 ≤ x) (h : Stands x d q r scale) (inexact : Bool) :
    LongDivision.Ends (Long d) x (expand d q r scale inexact) := by
  have hs := h.scale_le
  fun_induction expand d q r scale inexact with
  -- Nothing is left over, and zeros are wanted at most.
  | case1 q scale inexact h0 =>
      obtain ⟨k, rfl⟩ := Int.eq_ofNat_of_zero_le h0
      have he : x * 10 ^ k = q := by simpa using h.eq
      exact .some rfl (.exact h.fits (by omega) he)
  | case2 q scale inexact h0 p hf ih =>
      have hn := h.next (p := p) (by omega)
      rw [Nat.zero_mul, Nat.zero_div, Nat.zero_mod, Nat.add_zero] at hn
      exact ih (hn hf) (hn hf).scale_le
  | case3 q scale inexact h0 p hf =>
      have hl := h.le_of_not_fits (p := p)
      rw [Nat.zero_mul, Nat.zero_div, Nat.add_zero] at hl
      exact .none (limit_le_of_scale_le hx (by omega) (hl hf))
  -- The digits in front of the point do not fit.
  | case4 q r scale inexact hr p hp =>
      have hf := not_fits_of_room_lt hp.1
      have hl := h.le_of_not_fits fun h => hf (Nat.lt_of_le_of_lt (Nat.le_add_right ..) h)
      exact .none (limit_le_of_scale_le hx (by omega) hl)
  -- No more digits fit, and the remainder rounds the quotient.
  | case5 q r scale inexact hr p hp hz q' hf =>
      have hq : q ≤ q' := by simp only [q']; split <;> omega
      have hn : Nearest (x * 10 ^ scale) q' := h.nearest
      have h0 : 0 ≤ scale := by
        by_contra h0
        exact hp ⟨by rw [hz, stride]; omega, by omega⟩
      obtain ⟨k, rfl⟩ := Int.eq_ofNat_of_zero_le h0
      refine .some rfl ⟨hf, by omega, by simpa using hn, fun he => .inl (h.even ?_), ?_⟩
      · exact_mod_cast he
      rcases full_of_room_eq_zero hs hz with hk | hfull
      · exact .inr (.inl (by omega))
      · have hfull' : (2 : ℚ) ^ 96 ≤ 10 * q := by exact_mod_cast hfull
        have hle := h.le
        rw [zpow_natCast] at hle
        rw [pow_succ, ← mul_assoc, limit]
        exact .inr (.inr (by linarith))
  | case6 q r scale inexact hr p hp hz q' hf =>
      have hq : q' ≤ q + 1 := by simp only [q']; split <;> omega
      have hn : Nearest (x * 10 ^ scale) q' := h.nearest
      have hfits := h.fits
      exact LongDivision.ends_shorten hx hs hf (by omega) (hn.limit_le hf)
        (LongDivision.nearest_shorten_of_rounded h hn hq hf)
        fun _ => .inl (LongDivision.even_shorten_of_rounded h hq hf)
  -- More digits are taken in, and the last of them is given up if they are too many.
  | case7 q r scale inexact hr p hp hz q' r' hf ih =>
      have hn := h.next (scale_add_le hs (room_le ..)) hf
      exact ih hn hn.scale_le
  | case8 q r scale inexact hr p hp hz q' r' hf =>
      have hstep : x * 10 ^ (scale + p) = q' + (r' : ℚ) / d := h.step p
      have hnn : (0 : ℚ) ≤ (r' : ℚ) / d := by positivity
      have hlt : (r' : ℚ) / d < 1 := natCast_div_lt_one (Nat.mod_lt _ (Nat.zero_lt_of_lt h.lt))
      refine LongDivision.ends_shorten hx (scale_add_le hs (room_le ..)) hf h.lt_of_room
        (h.le_of_not_fits hf) (LongDivision.nearest_shorten ?_ ?_ fun hne => ?_) fun he => ?_
      · linarith
      · linarith
      · have hr' : r' ≠ 0 := fun h0 => hne (by rw [hstep, h0]; simp)
        rw [Bool.or_eq_true_iff]
        exact .inl (bne_iff_ne.2 hr')
      · obtain ⟨hy, hs | heven⟩ := LongDivision.even_shorten (by linarith) he
        · have hr' : ¬ r' ≠ 0 := fun hne => by
            have hpos : (0 : ℚ) < (r' : ℚ) / d := by
              have hd := Nat.zero_lt_of_lt h.lt
              positivity
            linarith
          rw [Bool.or_eq_true_iff, bne_iff_ne] at hs
          exact .inr (LongDivision.long_of_spills (hs.resolve_left hr'))
        · exact .inl heven

theorem stripZeros_eq (d : ℕ × ℕ) (n : ℕ) :
    ∃ j, d.1 = (stripZeros d n).1 * tenPow j ∧ d.2 = (stripZeros d n).2 + j := by
  fun_cases stripZeros d n with
  | case1 h =>
      exact ⟨n, (Nat.div_mul_cancel (Nat.dvd_of_mod_eq_zero h.2.2)).symm,
        (Nat.sub_add_cancel h.2.1).symm⟩
  | case2 h => exact ⟨0, (Nat.mul_one _).symm, rfl⟩

theorem foldl_stripZeros_eq (ns : List ℕ) (d : ℕ × ℕ) :
    ∃ j, d.1 = (ns.foldl stripZeros d).1 * tenPow j ∧ d.2 = (ns.foldl stripZeros d).2 + j := by
  induction ns generalizing d with
  | nil => exact ⟨0, (Nat.mul_one _).symm, rfl⟩
  | cons n ns ih =>
      obtain ⟨i, hm, hk⟩ := stripZeros_eq d n
      obtain ⟨j, hm', hk'⟩ := ih (stripZeros d n)
      rw [List.foldl_cons]
      refine ⟨j + i, ?_, by omega⟩
      rw [hm, hm', Nat.mul_assoc]
      exact congrArg _ (Nat.pow_add ..).symm

theorem LongDivision.strip_eq (a : LongDivision) :
    ∃ j, a.q = a.strip.1 * tenPow j ∧ a.scale.toNat = a.strip.2 + j := by
  rw [strip]
  split
  · exact foldl_stripZeros_eq _ (a.q, a.scale.toNat)
  · exact ⟨0, (Nat.mul_one _).symm, rfl⟩

theorem LongDivision.outcomeEven_strip {long : Prop} {e : LongDivision} {k : ℕ} (s : Bool)
    (hx : 0 ≤ x) (hs : e.scale = k) (h : RoundedEven long x e.q k) :
    OutcomeEven long (withSign s x) (ofParts? (s && e.strip.1 != 0) e.strip.1 e.strip.2) := by
  obtain ⟨j, hq, hk⟩ := e.strip_eq
  have hle : e.strip.1 ≤ e.q := by
    rw [hq]
    exact Nat.le_mul_of_pos_right _ (tenPow_pos j)
  have hplaces := h.places
  have hsame : (e.q : ℚ) / 10 ^ k = e.strip.1 / 10 ^ e.strip.2 := by
    obtain rfl : k = e.strip.2 + j := by omega
    rw [hq, Nat.cast_mul, cast_tenPow, pow_add, mul_div_mul_right _ _ (by positivity)]
  rw [ofParts?, dif_pos ⟨Nat.lt_of_le_of_lt hle h.fits, by omega⟩]
  refine .some ⟨s, x, e.q, k, hx, rfl, h, ?_⟩
  rw [toRat_eq_withSign, hsame]
  by_cases h0 : e.strip.1 = 0
  · cases s <;> simp [withSign, h0]
  · rw [bne_iff_ne.2 h0, Bool.and_true]

variable {b : Decimal}

theorem toRat_div_toRat (a b : Decimal) : a.toRat / b.toRat = withSign (a.negative != b.negative)
    ((a.mantissa : ℚ) / 10 ^ a.scale / (b.mantissa / 10 ^ b.scale)) := by
  rw [a.toRat_eq_withSign, b.toRat_eq_withSign]
  cases a.negative <;> cases b.negative <;> simp [withSign, neg_div, div_neg]

theorem stands_quotient (a : Decimal) (hb : b.isZero = false) :
    Stands ((a.mantissa : ℚ) / 10 ^ a.scale / (b.mantissa / 10 ^ b.scale)) b.mantissa
      (a.mantissa / b.mantissa) (a.mantissa % b.mantissa) ((a.scale : ℤ) - b.scale) := by
  have hpos : 0 < b.mantissa := Nat.pos_of_ne_zero (beq_eq_false_iff_ne.1 hb)
  have hs := a.scale_le
  refine ⟨Nat.mod_lt _ hpos, Nat.lt_of_le_of_lt (Nat.div_le_self ..) a.fits, by omega, ?_⟩
  calc (a.mantissa : ℚ) / 10 ^ a.scale / (b.mantissa / 10 ^ b.scale) *
          10 ^ ((a.scale : ℤ) - b.scale)
      = a.mantissa / b.mantissa := by
        rw [zpow_sub₀ (by norm_num), zpow_natCast, zpow_natCast]
        field_simp
    _ = (a.mantissa / b.mantissa : ℕ) + ((a.mantissa % b.mantissa : ℕ) : ℚ) / b.mantissa :=
        natCast_div_eq a.mantissa hpos

/-- A quotient is rounded once, from the exact one. -/
theorem outcomeEven_div? (a : Decimal) (hb : b.isZero = false) :
    OutcomeEven (Long b.mantissa) (a.toRat / b.toRat) (a.div? b) := by
  have hy : (0 : ℚ) ≤ (a.mantissa : ℚ) / 10 ^ a.scale / (b.mantissa / 10 ^ b.scale) := by
    positivity
  rw [div?]
  split
  · rename_i hz
    rw [toRat_eq_zero_iff.2 hz, zero_div, ← toRat_eq_zero_iff.2 (rfl : zero.isZero = true)]
    exact .some (.self zero)
  · have h := ends_expand hy (stands_quotient a hb) false
    rw [toRat_div_toRat]
    generalize expand b.mantissa _ _ _ _ = o at h
    cases h with
    | none h =>
        refine .none ?_
        rwa [abs_withSign hy]
    | some hs h => exact LongDivision.outcomeEven_strip _ hy hs h

theorem outcome_div? (a : Decimal) (hb : b.isZero = false) :
    Outcome (a.toRat / b.toRat) (a.div? b) :=
  (outcomeEven_div? a hb).outcome

end Reckoner.Decimal
