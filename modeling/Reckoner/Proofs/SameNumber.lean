import Reckoner.Proofs.LongDivision
import Reckoner.Proofs.StoredMeaning

namespace Reckoner

namespace Decimal

theorem Nearest.unique {x : ℚ} {q q' : ℕ} (h : Nearest x q) (h' : Nearest x q')
    (he : (q : ℚ) = x + 1 / 2 → q % 2 = 0) (he' : (q' : ℚ) = x + 1 / 2 → q' % 2 = 0) :
    q = q' := by
  wlog hle : q ≤ q' generalizing q q'
  · exact (this h' h he' he (Nat.le_of_not_le hle)).symm
  rcases Nat.eq_or_lt_of_le hle with heq | hlt
  · exact heq
  · have hstep : (q : ℚ) + 1 ≤ q' := by exact_mod_cast hlt
    have hge := h.ge
    have hle' := h'.le
    have hnext : q' = q + 1 := by
      have : (q' : ℚ) = (q + 1 : ℕ) := by push_cast; linarith
      exact_mod_cast this
    -- The number lies halfway between the two, one of which is odd.
    have heven := h.even (by linarith)
    have heven' := he' (by linarith)
    omega

/-- The number lies halfway between two with as many places as the mantissa has room for, which are
not all 28. The upper one is named. -/
def Tied (x : ℚ) : Prop :=
  ∃ (k q : ℕ), k < 28 ∧ (q : ℚ) = x * 10 ^ k + 1 / 2 ∧ limit ≤ x * 10 ^ (k + 1)

namespace RoundedEven

variable {long : Prop} {x : ℚ} {q q' k k' : ℕ}

theorem strict (h : RoundedEven long x q k) (ht : long → ¬ Tied x) :
    RoundedEven False x q k where
  fits := h.fits
  places := h.places
  nearest := h.nearest
  even he := .inl <| (h.even he).resolve_right fun hl => ht hl.1 ⟨k, q, hl.2.1, he, hl.2.2⟩
  full := h.full

theorem even_of_half (h : RoundedEven False x q k) (he : (q : ℚ) = x * 10 ^ k + 1 / 2) :
    q % 2 = 0 :=
  (h.even he).resolve_right And.left

theorem eq_or_eq_of_le (h : RoundedEven False x q k) (h' : RoundedEven False x q' k')
    (hx : 0 ≤ x) (hk : k ≤ k') : (q : ℚ) = x * 10 ^ k ∨ k = k' := by
  rcases h.full with he | rfl | hl
  · exact .inl he
  · exact .inr (Nat.le_antisymm hk h'.places)
  · refine .inr (Nat.le_antisymm hk (Nat.le_of_not_lt fun hlt => ?_))
    have hp : (10 : ℚ) ^ (k + 1) ≤ 10 ^ k' := pow_le_pow_right₀ (by norm_num) hlt
    have hle : x * 10 ^ (k + 1) ≤ x * 10 ^ k' := mul_le_mul_of_nonneg_left hp hx
    exact absurd (h'.nearest.lt_limit h'.fits) (not_lt.2 (hl.trans hle))

theorem unique (h : RoundedEven False x q k) (h' : RoundedEven False x q' k') (hx : 0 ≤ x) :
    (q : ℚ) / 10 ^ k = q' / 10 ^ k' := by
  wlog hk : k ≤ k' generalizing q q' k k'
  · exact (this h' h (Nat.le_of_not_le hk)).symm
  rcases h.eq_or_eq_of_le h' hx hk with he | rfl
  · obtain ⟨i, rfl⟩ := Nat.exists_eq_add_of_le hk
    have hn := h'.nearest
    rw [pow_add, ← mul_assoc, ← he] at hn
    obtain rfl : q' = q * 10 ^ i := Nearest.eq_of_nat (by exact_mod_cast hn)
    push_cast
    rw [pow_add, mul_div_mul_right _ _ (by positivity)]
  · rw [h.nearest.unique h'.nearest h.even_of_half h'.even_of_half]

end RoundedEven

variable {long : Prop} {x : ℚ} {a a' b b' d d' : Decimal} {o o' : Option Decimal}

theorem RoundsEven.strict (h : d.RoundsEven long x) (ht : long → ¬ Tied |x|) :
    d.RoundsEven False x := by
  obtain ⟨s, y, q, k, hy, rfl, h, hd⟩ := h
  rw [abs_withSign hy] at ht
  exact ⟨s, y, q, k, hy, rfl, h.strict ht, hd⟩

theorem RoundsEven.unique (h : d.RoundsEven False x) (h' : d'.RoundsEven False x) :
    d.toRat = d'.toRat := by
  obtain ⟨s, y, q, k, hy, rfl, h, hd⟩ := h
  obtain ⟨s', y', q', k', hy', hx, h', hd'⟩ := h'
  obtain rfl : y = y' := by rw [← abs_withSign (s := s) hy, hx, abs_withSign hy']
  rw [hd, hd', ← h.unique h' hy]
  refine withSign_eq_withSign hx fun h0 => ?_
  have hzero : RoundedEven False y 0 0 := .exact (by decide) (by decide) (by simp [h0])
  simpa using h.unique hzero hy

theorem OutcomeEven.strict (h : OutcomeEven long x o) (ht : long → ¬ Tied |x|) :
    OutcomeEven False x o := by
  cases h with
  | some h => exact .some (h.strict ht)
  | none h => exact .none h

theorem OutcomeEven.unique (h : OutcomeEven False x o) (h' : OutcomeEven False x o') :
    Option.Rel (fun d d' => d.toRat = d'.toRat) o o' := by
  cases h with
  | some h =>
      cases h' with
      | some h' => exact .some (h.unique h')
      | none hl => exact absurd h.rounds.abs_lt_limit hl.not_gt
  | none hl =>
      cases h' with
      | some h' => exact absurd h'.rounds.abs_lt_limit hl.not_gt
      | none => exact .none

theorem orOverflow_same (op : Operator) (h : Option.Rel (fun d d' => d.toRat = d'.toRat) o o') :
    SameOutcome (fun d d' => d.toRat = d'.toRat) (orOverflow op o) (orOverflow op o') := by
  cases h with
  | some h => exact .ok h
  | none => exact .error _

/-- A quotient that may go up from halfway two mantissas, because bits of a remainder of a long
divisor pass for something left over. -/
def Slips (a b : Decimal) : Prop := Long b.mantissa ∧ Tied |a.toRat / b.toRat|

theorem not_slips_of_lt (h : b.mantissa < 2 ^ 64) : ¬ a.Slips b :=
  fun hs => absurd hs.1 (Nat.not_le_of_lt h)

theorem outcomeEven_quotient (hb : b.isZero = false) (h : ¬ a.Slips b) :
    OutcomeEven False (a.toRat / b.toRat) (a.div? b) :=
  (outcomeEven_div? a hb).strict fun hl ht => h ⟨hl, ht⟩

theorem congruenceOn_toRat :
    CongruenceOn (fun a b => ¬ a.Slips b) (fun a b => a.toRat = b.toRat) where
  refl _ := rfl
  neg h := by rw [toRat_neg, toRat_neg, h]
  onDecimals op := by
    intro a a' b b' ha hb hw
    cases op with
    | add =>
        have h' := outcomeEven_add? a' b'
        exact orOverflow_same _ ((outcomeEven_add? a b).unique (ha ▸ hb ▸ h'))
    | subtract =>
        have h' := outcomeEven_sub? a' b'
        exact orOverflow_same _ ((outcomeEven_sub? a b).unique (ha ▸ hb ▸ h'))
    | multiply =>
        have h' := outcomeEven_mul? a' b'
        exact orOverflow_same _ ((outcomeEven_mul? a b).unique (ha ▸ hb ▸ h'))
    | divide =>
        have hz : b.isZero = b'.isZero := by
          rw [Bool.eq_iff_iff, ← toRat_eq_zero_iff, ← toRat_eq_zero_iff, hb]
        rw [Arithmetic.onDecimals, Arithmetic.onDecimals, ← hz]
        split
        · exact .error _
        · rename_i hb0
          rw [Bool.not_eq_true] at hb0
          have h := outcomeEven_quotient hb0 (hw rfl).1
          have h' := outcomeEven_quotient (hz ▸ hb0) (hw rfl).2
          exact orOverflow_same _ (h.unique (ha ▸ hb ▸ h'))

theorem sameNumber_iff : a.sameNumber b = true ↔ a.toRat = b.toRat := by
  have hp : (10 : ℚ) ^ 28 ≠ 0 := by positivity
  rw [sameNumber, beq_iff_eq, toRat_aligned a.scale_le, toRat_aligned b.scale_le,
    div_left_inj' hp, Int.cast_inj]
  rfl

end Decimal

namespace Value

theorem same_iff_alike {v w : Value} :
    v.Same w ↔ v.Alike (fun a b => a.toRat = b.toRat) w := by
  constructor
  · intro h
    cases v with
    | decimal a =>
        cases w with
        | decimal b => exact .decimal (Decimal.sameNumber_iff.1 h)
        | integer | string | boolean => cases h
    | integer n | string s | boolean b =>
        cases w <;> simp only [Same, same, beq_iff_eq, Bool.false_eq_true] at h
        exact h ▸ .refl _
  · intro h
    cases h with
    | decimal h => exact Decimal.sameNumber_iff.2 h
    | refl v => exact .refl v

end Value

/-- Evaluation goes by what equality sees. Trees of one shape with equal values in them come to
equal values or to one and the same error, unless a division by a long divisor comes upon a tie. -/
theorem Policy.evaluate_of_same (p : Policy) {env env' : Environment}
    (hn : ∀ name, Option.Rel Value.Same (env name) (env' name)) {e e' : Expr}
    (he : e.Alike Value.Same e') (hd : p.Divides (fun a b => ¬ a.Slips b) env e)
    (hd' : p.Divides (fun a b => ¬ a.Slips b) env' e') :
    SameOutcome Value.Same (p.evaluate env e) (p.evaluate env' e') := by
  have hn' (name : String) : Option.Rel (Value.Alike fun a b => a.toRat = b.toRat)
      (env name) (env' name) := by
    have hname := hn name
    generalize env name = o at hname
    generalize env' name = o' at hname
    cases hname with
    | some h => exact .some (Value.same_iff_alike.1 h)
    | none => exact .none
  have he' := he.imp fun _ _ => Value.same_iff_alike.1
  exact (Decimal.congruenceOn_toRat.evaluateAt p hn' he' hd hd' 1).imp
    fun _ _ => Value.same_iff_alike.2

theorem Policy.third_of_same :
    let decimal (negative : Bool) (m k : ℕ) (hm : Decimal.Fits m) (hk : k ≤ 28) : Value :=
      .decimal ⟨negative, m, k, hm, hk⟩
    let one := decimal false 1 0 (by decide) (by decide)
    let one' := decimal false 100 2 (by decide) (by decide)
    let zero := decimal false 0 3 (by decide) (by decide)
    let zero' := decimal true 0 0 (by decide) (by decide)
    let three := decimal false 3 0 (by decide) (by decide)
    let three' := decimal false 30 1 (by decide) (by decide)
    let env (v : Value) : Environment := fun _ => some v
    let e (z d : Value) : Expr := .binary (.arithmetic .divide)
      (.binary (.arithmetic .subtract) (.var "x") (.literal z)) (.literal d)
    (∀ name, Option.Rel Value.Same (env one name) (env one' name)) ∧
      (e zero three).Alike Value.Same (e zero' three') ∧
      ∀ p : Policy, SameOutcome Value.Same (p.evaluate (env one) (e zero three))
        (p.evaluate (env one') (e zero' three')) := by
  intro decimal one one' zero zero' three three' env e
  have hn (name : String) : Option.Rel Value.Same (env one name) (env one' name) := .some rfl
  have he : (e zero three).Alike Value.Same (e zero' three') :=
    .binary _ (.binary _ (.var _) (.literal rfl)) (.literal rfl)
  have hd (p : Policy) (v z : Value) {d : Decimal} (h : d.mantissa < 2 ^ 64) :
      p.Divides (fun a b => ¬ a.Slips b) (env v) (e z (.decimal d)) := by
    refine ⟨⟨trivial, fun _ _ _ => ⟨trivial, fun _ _ ho => by cases ho⟩⟩,
      fun _ _ _ => ⟨trivial, fun w hw _ a b _ hb => ?_⟩⟩
    cases hw
    cases hb
    exact Decimal.not_slips_of_lt h
  exact ⟨hn, he, fun p => p.evaluate_of_same hn he (hd p one zero (by decide))
    (hd p one' zero' (by decide))⟩

/-- A half between two quotients goes to the even one, but up if the divisor is written with many
zeros. -/
theorem Policy.tied_quotient_goes_up :
    let x : Decimal := ⟨false, 15845632502852867518708790601, 0, by decide, by decide⟩
    let two : Decimal := ⟨false, 2, 0, by decide, by decide⟩
    let two' : Decimal := ⟨false, 200000000000000000000000, 23, by decide, by decide⟩
    let env (y : Decimal) : Environment := fun name => some (.decimal (if name = "y" then y else x))
    let e : Expr := .binary (.arithmetic .divide) (.var "x") (.var "y")
    let p : Policy := ⟨false, 128⟩
    (∀ name, Option.Rel Value.Same (env two name) (env two' name)) ∧ e.Alike Value.Same e ∧
      p.evaluate (env two) e =
        .ok (.decimal ⟨false, 7922816251426433759354395300, 0, by decide, by decide⟩) ∧
      p.evaluate (env two') e =
        .ok (.decimal ⟨false, 7922816251426433759354395301, 0, by decide, by decide⟩) ∧
      ¬ SameOutcome Value.Same (p.evaluate (env two) e) (p.evaluate (env two') e) := by
  intro x two two' env e p
  have h : p.evaluate (env two) e =
      .ok (.decimal ⟨false, 7922816251426433759354395300, 0, by decide, by decide⟩) :=
    (p.evaluate_eq_unlimited (env two) (by decide)).trans (by decide +kernel)
  have h' : p.evaluate (env two') e =
      .ok (.decimal ⟨false, 7922816251426433759354395301, 0, by decide, by decide⟩) :=
    (p.evaluate_eq_unlimited (env two') (by decide)).trans (by decide +kernel)
  refine ⟨fun name => .some ?_, .binary _ (.var _) (.var _), h, h', fun hs => ?_⟩
  · by_cases hy : name = "y"
    · rw [if_pos hy, if_pos hy]
      exact (by decide +kernel : two.sameNumber two' = true)
    · rw [if_neg hy, if_neg hy]
      exact .refl _
  · rw [h, h'] at hs
    cases hs with
    | ok hs => cases hs

end Reckoner
