import Reckoner.Proofs.ExactNumber
import Reckoner.Value.Conversion

namespace Reckoner.Value

/-- Why a value is no integer. A decimal with a fraction is refused for it, however large it is. -/
inductive NoInteger : Value → ConversionError → Prop
  | kind {v : Value} (h : v.number? = none) : NoInteger v (.kindMismatch .integer v.kind)
  | fraction {d : Decimal} (h : ∀ z : ℤ, d.toRat ≠ z) : NoInteger (.decimal d) (.notIntegral d)
  | range {d : Decimal} {z : ℤ} (h : d.toRat = z) (hz : ¬ Integer.Fits z) :
      NoInteger (.decimal d) (.outOfRange .long (.decimal d))

variable {v : Value} {d : Decimal}

theorem toInteger_of_toRat {z : ℤ} (h : d.toRat = z) : (decimal d).toInteger =
    match Integer.ofInt? z with
    | some n => .ok n
    | none => .error (.outOfRange .long (.decimal d)) := by
  obtain ⟨hw, rfl⟩ := Decimal.toRat_eq_intCast_iff.1 h
  exact if_pos hw

theorem toInteger_of_fraction (h : ∀ z : ℤ, d.toRat ≠ z) :
    (decimal d).toInteger = .error (.notIntegral d) := by
  have hw : ¬ d.isWhole = true := fun hw => by
    obtain ⟨z, hz⟩ := Decimal.isWhole_iff.1 hw
    exact h z hz
  exact if_neg hw

theorem toInteger_eq_ok_iff {n : Integer} :
    v.toInteger = .ok n ↔ v.number? = some (n.val : ℚ) := by
  cases v with
  | string | boolean => exact ⟨nofun, nofun⟩
  | integer m =>
      simp only [toInteger, number?, Except.ok.injEq, Option.some.injEq, Int.cast_inj]
      exact Signed.ext_iff
  | decimal d =>
      rw [number?, Option.some.injEq]
      constructor
      · intro h
        by_cases hz : ∃ z : ℤ, d.toRat = z
        · obtain ⟨z, hz⟩ := hz
          rw [toInteger_of_toRat hz] at h
          split at h
          · rename_i hi
            cases h
            rw [hz, Signed.ofInt?_eq_some_iff.1 hi]
          · cases h
        · rw [toInteger_of_fraction (not_exists.1 hz)] at h
          cases h
      · intro h
        have hi : Integer.ofInt? n.val = some n := Signed.ofInt?_val n
        rw [toInteger_of_toRat h, hi]

theorem toInteger_eq_error_iff {e : ConversionError} :
    v.toInteger = .error e ↔ v.NoInteger e := by
  constructor
  · intro h
    cases v with
    | integer => cases h
    | string | boolean => cases h; exact .kind rfl
    | decimal d =>
        by_cases hz : ∃ z : ℤ, d.toRat = z
        · obtain ⟨z, hz⟩ := hz
          rw [toInteger_of_toRat hz] at h
          split at h
          · cases h
          · rename_i hi
            cases h
            exact .range hz (Signed.ofInt?_eq_none_iff.1 hi)
        · have hf := not_exists.1 hz
          rw [toInteger_of_fraction hf] at h
          cases h
          exact .fraction hf
  · intro h
    cases h with
    | kind h =>
        cases v with
        | integer | decimal => cases h
        | string | boolean => rfl
    | fraction h => exact toInteger_of_fraction h
    | @range _ z h hz =>
        have hi : Integer.ofInt? z = none := Signed.ofInt?_eq_none_iff.2 hz
        rw [toInteger_of_toRat h, hi]

theorem toShort_of_ok {n : Integer} (h : v.toInteger = .ok n) : v.toShort =
    match ShortInteger.ofInt? n.val with
    | some k => .ok k
    | none => .error (.outOfRange .short (.integer n)) := by
  rw [toShort, h]
  rfl

theorem toShort_of_error {e : ConversionError} (h : v.toInteger = .error e) :
    v.toShort = .error e := by
  rw [toShort, h]
  rfl

theorem toShort_eq_ok_iff {k : ShortInteger} : v.toShort = .ok k ↔ v.toInteger = .ok k.widen := by
  cases h : v.toInteger with
  | error e =>
      rw [toShort_of_error h]
      exact ⟨nofun, nofun⟩
  | ok n =>
      have hk : ShortInteger.ofInt? n.val = some k ↔ n = k.widen :=
        Signed.ofInt?_eq_some_iff.trans (eq_comm.trans (Signed.ext_iff (y := k.widen)).symm)
      rw [toShort_of_ok h, Except.ok.injEq, ← hk]
      cases ShortInteger.ofInt? n.val with
      | none => exact ⟨nofun, nofun⟩
      | some k' => rw [Except.ok.injEq, Option.some.injEq]

theorem toShort_eq_error_iff {e : ConversionError} : v.toShort = .error e ↔
    v.toInteger = .error e ∨ ∃ n : Integer, v.toInteger = .ok n ∧ ¬ ShortInteger.Fits n.val ∧
      e = .outOfRange .short (.integer n) := by
  cases h : v.toInteger with
  | error e' =>
      rw [toShort_of_error h]
      simp
  | ok n =>
      have hf : ShortInteger.ofInt? n.val = none ↔ ¬ ShortInteger.Fits n.val :=
        Signed.ofInt?_eq_none_iff
      simp only [toShort_of_ok h, Except.ok.injEq, exists_eq_left', ← hf]
      cases ShortInteger.ofInt? n.val with
      | none => simp [eq_comm]
      | some k => simp

/-- Conversions keep the number exactly, or fail for what is wrong with it. -/
structure ConvertsExactly (v : Value) : Prop where
  integer : ∀ n : Integer, v.toInteger = .ok n ↔ v.number? = some (n.val : ℚ)
  noInteger : ∀ e, v.toInteger = .error e ↔ v.NoInteger e
  short : ∀ k : ShortInteger, v.toShort = .ok k ↔ v.toInteger = .ok k.widen
  noShort : ∀ e, v.toShort = .error e ↔ v.toInteger = .error e ∨
    ∃ n : Integer, v.toInteger = .ok n ∧ ¬ ShortInteger.Fits n.val ∧
      e = .outOfRange .short (.integer n)
  /-- A number is the same number as a decimal, which any number can become. -/
  decimal : ∀ q : ℚ, v.number? = some q ↔ ∃ d, v.toDecimal = .ok d ∧ d.toRat = q
  noDecimal : ∀ e, v.toDecimal = .error e ↔
    v.number? = none ∧ e = .kindMismatch .decimal v.kind
  /-- An integer survives being a decimal in between. -/
  widened : ∀ n, v = .integer n → ∃ d, v.toDecimal = .ok d ∧ (Value.decimal d).toInteger = .ok n
  text : ∀ s, v.toText = .ok s ↔ v = .string s
  noText : ∀ e, v.toText = .error e ↔ v.kind ≠ .string ∧ e = .kindMismatch .string v.kind
  bool : ∀ b, v.toBool = .ok b ↔ v = .boolean b
  noBool : ∀ e, v.toBool = .error e ↔ v.kind ≠ .boolean ∧ e = .kindMismatch .boolean v.kind

theorem convertsExactly (v : Value) : v.ConvertsExactly where
  integer _ := toInteger_eq_ok_iff
  noInteger _ := toInteger_eq_error_iff
  short _ := toShort_eq_ok_iff
  noShort _ := toShort_eq_error_iff
  decimal q := by
    cases v with
    | integer n => simp [toDecimal, number?, Decimal.toRat_ofInteger]
    | decimal d => simp [toDecimal, number?]
    | string | boolean => exact ⟨nofun, nofun⟩
  noDecimal e := by
    cases v with
    | integer | decimal => exact ⟨nofun, nofun⟩
    | string | boolean => simp [toDecimal, number?, eq_comm]
  widened n hn := by
    subst hn
    refine ⟨.ofInteger n, rfl, toInteger_eq_ok_iff.2 ?_⟩
    rw [number?, Decimal.toRat_ofInteger]
  text s := by cases v <;> simp [toText]
  noText e := by cases v <;> simp [toText, kind, eq_comm]
  bool b := by cases v <;> simp [toBool]
  noBool e := by cases v <;> simp [toBool, kind, eq_comm]

/-- The least integer with as many zeros behind its point as there is room for, and its neighbour
below, which is too large whatever its places are. -/
example :
    let low : Decimal := ⟨true, 0x80000000_00000000 * tenPow 9, 9, by decide, by decide⟩
    let beyond : Decimal := ⟨true, 0x80000000_00000001 * tenPow 9, 9, by decide, by decide⟩
    (Value.decimal low).toInteger = .ok ⟨-0x80000000_00000000, by decide⟩ ∧
      (Value.decimal beyond).toInteger = .error (.outOfRange .long (.decimal beyond)) := by
  decide

end Reckoner.Value
