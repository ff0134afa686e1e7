import Reckoner.Proofs.Congruence
import Reckoner.Proofs.StoredForm

namespace Reckoner

namespace Decimal

/-- The same digits, and the same sign unless they are all zeros. -/
structure SameDigits (a b : Decimal) : Prop where
  mantissa : a.mantissa = b.mantissa
  scale : a.scale = b.scale
  negative : a.isZero = false → a.negative = b.negative

theorem sameDigits_restored (d : Decimal) : d.restored.SameDigits d := by
  refine ⟨rfl, rfl, fun hz => ?_⟩
  have hm : (d.mantissa != 0) = true := by simpa [isZero, restored] using hz
  rw [restored, hm, Bool.and_true]

theorem units_of_isZero {d : Decimal} (h : d.isZero = true) : d.units = 0 := by
  have hm : d.mantissa = 0 := by simpa [isZero] using h
  simp [units, signed, hm]

namespace SameDigits

variable {a a' b b' : Decimal} (op : Operator)

theorem isZero_eq (h : a.SameDigits b) : a.isZero = b.isZero := by
  rw [isZero, isZero, h.mantissa]

theorem eq_of_isZero (h : a.SameDigits b) (hz : a.isZero = false) : a = b :=
  Decimal.ext (h.negative hz) h.mantissa h.scale

theorem sameNumber (h : a.SameDigits b) : a.sameNumber b = true := by
  rw [Decimal.sameNumber, beq_iff_eq]
  cases hz : a.isZero with
  | false => rw [h.eq_of_isZero hz]
  | true => rw [units_of_isZero hz, units_of_isZero (h.isZero_eq ▸ hz)]

theorem refl (d : Decimal) : d.SameDigits d := ⟨rfl, rfl, fun _ => rfl⟩

theorem neg (h : a.SameDigits b) : a.neg.SameDigits b.neg :=
  ⟨h.mantissa, h.scale, fun hz => congrArg Bool.not (h.negative hz)⟩

theorem sum (ha : a.SameDigits a') (hb : b.SameDigits b') :
    SameOutcome SameDigits (orOverflow op (a.add? b)) (orOverflow op (a'.add? b')) := by
  rw [Decimal.add?, Decimal.add?, ← ha.isZero_eq, ← hb.isZero_eq]
  cases hza : a.isZero with
  | true => exact .ok hb
  | false =>
      cases hzb : b.isZero with
      | true => exact .ok ha
      | false =>
          rw [ha.eq_of_isZero hza, hb.eq_of_isZero hzb]
          exact .refl refl _

theorem difference (ha : a.SameDigits a') (hb : b.SameDigits b') :
    SameOutcome SameDigits (orOverflow op (a.sub? b)) (orOverflow op (a'.sub? b')) := by
  rw [Decimal.sub?, Decimal.sub?, ← ha.isZero_eq, ← hb.isZero_eq]
  split
  · exact .ok hb
  · exact sum op ha hb.neg

theorem product (ha : a.SameDigits a') (hb : b.SameDigits b') :
    SameOutcome SameDigits (orOverflow op (a.mul? b)) (orOverflow op (a'.mul? b')) := by
  cases hz : a.isZero || b.isZero with
  | true =>
      rw [Decimal.mul?, Decimal.mul?, ← ha.isZero_eq, ← hb.isZero_eq, hz]
      exact .ok (refl zero)
  | false =>
      obtain ⟨hza, hzb⟩ := Bool.or_eq_false_iff.1 hz
      rw [ha.eq_of_isZero hza, hb.eq_of_isZero hzb]
      exact .refl refl _

theorem quotient (ha : a.SameDigits a') (b : Decimal) :
    SameOutcome SameDigits (orOverflow op (a.div? b)) (orOverflow op (a'.div? b)) := by
  cases hz : a.isZero with
  | true =>
      rw [Decimal.div?, Decimal.div?, ← ha.isZero_eq, hz]
      exact .ok (refl zero)
  | false =>
      rw [ha.eq_of_isZero hz]
      exact .refl refl _

end SameDigits

/-- No operation looks at the sign of a zero, but for what it gives on with a zero. -/
theorem congruence_sameDigits : Congruence SameDigits where
  refl := .refl
  neg := .neg
  onDecimals op := by
    intro a a' b b' ha hb
    cases op with
    | add => exact SameDigits.sum _ ha hb
    | subtract => exact SameDigits.difference _ ha hb
    | multiply => exact SameDigits.product _ ha hb
    | divide =>
        rw [Arithmetic.onDecimals, Arithmetic.onDecimals, ← hb.isZero_eq]
        cases hz : b.isZero with
        | true => exact .error _
        | false =>
            rw [← hb.eq_of_isZero hz]
            exact SameDigits.quotient _ ha b

end Decimal

namespace Value

def Same (v w : Value) : Prop := v.same w = true

theorem alike_restored (v : Value) : v.restored.Alike Decimal.SameDigits v := by
  cases v with
  | decimal d => exact .decimal d.sameDigits_restored
  | integer | string | boolean => exact .refl _

theorem Same.refl (v : Value) : v.Same v := by
  cases v <;> simp [Same, same, Decimal.sameNumber]

theorem same_of_alike {v w : Value} (h : v.Alike Decimal.SameDigits w) : v.Same w := by
  cases h with
  | decimal h => exact h.sameNumber
  | refl v => exact .refl v

end Value

namespace Expr

theorem Alike.imp {R R' : Value → Value → Prop} {e e' : Expr} (h : e.Alike R e')
    (hR : ∀ v w, R v w → R' v w) : e.Alike R' e' := by
  induction h with
  | literal h => exact .literal (hR _ _ h)
  | var name => exact .var name
  | grouping _ ih => exact .grouping ih
  | binary op _ _ ihl ihr => exact .binary op ihl ihr
  | unary op _ ih => exact .unary op ih

theorem alike_restored (e : Expr) : e.restored.Alike (Value.Alike Decimal.SameDigits) e := by
  induction e with
  | literal v => exact .literal v.alike_restored
  | var name => exact .var name
  | grouping inner ih => exact .grouping ih
  | binary op left right ihl ihr => exact .binary op ihl ihr
  | unary op operand ih => exact .unary op ih

/-- A stored tree keeps its meaning. It comes back where its brackets keep to those that may stand
open at once, all its literals equal, and whatever it comes to is equal too. -/
theorem ofStored?_keeps_meaning (e : Expr) (h : e.toJson.depth ≤ Json.maxRoom) :
    ∃ e', ofStored? e.toJson.compact = some e' ∧ e'.Alike Value.Same e ∧
      ∀ (p : Policy) (env : Environment),
        SameOutcome Value.Same (p.evaluate env e') (p.evaluate env e) := by
  have hs : ofStored? e.toJson.compact = some e.restored := by
    rw [depth_toJson] at h
    rw [ofStored?, Json.ofText?_compact e.plain_toJson]
    exact (e.ofJson?_toJson Json.maxRoom).trans (if_pos h)
  have ha := e.alike_restored
  refine ⟨_, hs, ha.imp fun _ _ => Value.same_of_alike, fun p env => ?_⟩
  have hn (name : String) :
      Option.Rel (Value.Alike Decimal.SameDigits) (env name) (env name) := by
    cases env name with
    | none => exact .none
    | some v => exact .some (.refl v)
  exact (Decimal.congruence_sameDigits.evaluateAt p hn ha 1).imp fun _ _ => Value.same_of_alike

theorem negative_zero_comes_back :
    let zero (negative : Bool) : Value := .decimal ⟨negative, 0, 2, by decide, by decide⟩
    let e : Expr := .unary .negate
      (.binary (.arithmetic .subtract) (.literal (zero true)) (.var "\"\n"))
    let e' : Expr := .unary .negate
      (.binary (.arithmetic .subtract) (.literal (zero false)) (.var "\"\n"))
    e.toJson.depth ≤ Json.maxRoom ∧ e ≠ e' ∧ ofStored? e.toJson.compact = some e' ∧
      e'.Alike Value.Same e ∧ ∀ (p : Policy) (env : Environment),
        SameOutcome Value.Same (p.evaluate env e') (p.evaluate env e) := by
  intro zero e e'
  have hd : e.toJson.depth ≤ Json.maxRoom := by decide
  have he : ofStored? e.toJson.compact = some e' := by decide +kernel
  obtain ⟨e'', hs, ha, hp⟩ := ofStored?_keeps_meaning e hd
  obtain rfl : e'' = e' := Option.some.inj (hs.symm.trans he)
  exact ⟨hd, by decide, he, ha, hp⟩

end Expr

end Reckoner
