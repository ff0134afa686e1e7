import Reckoner.Proofs.ExactInteger
import Reckoner.Proofs.LongDivision

namespace Reckoner

namespace Arithmetic

/-- The result over all numbers, of which division by zero alone has none. -/
def onNumbers? (op : Arithmetic) (x y : ℚ) : Option ℚ :=
  match op with
  | add => some (x + y)
  | subtract => some (x - y)
  | multiply => some (x * y)
  | divide => if y = 0 then none else some (x / y)

theorem onNumbers?_eq_none_iff {op : Arithmetic} {x y : ℚ} :
    op.onNumbers? x y = none ↔ op = divide ∧ y = 0 := by
  cases op <;> simp [onNumbers?]

/-- What decimals make of the exact result. -/
inductive Comes (op : Arithmetic) (x y : ℚ) : Except EvalError Decimal → Prop
  | value {z : ℚ} {d : Decimal} (hz : op.onNumbers? x y = some z) (h : d.Rounds z) :
      Comes op x y (.ok d)
  | overflow {z : ℚ} (hz : op.onNumbers? x y = some z) (h : Decimal.limit ≤ |z|) :
      Comes op x y (.error (.overflow (.binary (.arithmetic op))))
  | division (hz : op.onNumbers? x y = none) : Comes op x y (.error .divisionByZero)

variable {op : Arithmetic} {x y : ℚ}

theorem comes_orOverflow {z : ℚ} (hz : op.onNumbers? x y = some z) {o : Option Decimal}
    (h : Decimal.Outcome z o) : op.Comes x y (orOverflow (.binary (.arithmetic op)) o) := by
  cases h with
  | some h => exact .value hz h
  | none h => exact .overflow hz h

theorem comes_onDecimals (op : Arithmetic) (a b : Decimal) :
    op.Comes a.toRat b.toRat (op.onDecimals a b) := by
  cases op with
  | add => exact comes_orOverflow rfl (a.outcome_add? b)
  | subtract => exact comes_orOverflow rfl (a.outcome_sub? b)
  | multiply => exact comes_orOverflow rfl (a.outcome_mul? b)
  | divide =>
      rw [onDecimals]
      split
      · rename_i hb
        exact .division (if_pos (Decimal.toRat_eq_zero_iff.2 hb))
      · rename_i hb
        have hy : ¬ b.toRat = 0 := fun hy => hb (Decimal.toRat_eq_zero_iff.1 hy)
        have hz : onNumbers? divide a.toRat b.toRat = some (a.toRat / b.toRat) := if_neg hy
        exact comes_orOverflow hz (Decimal.outcome_div? a (Bool.eq_false_iff.2 hb))

variable {o : Except EvalError Decimal}

theorem Comes.division_iff (h : op.Comes x y o) :
    o = .error .divisionByZero ↔ op = divide ∧ y = 0 := by
  rw [← onNumbers?_eq_none_iff (x := x)]
  cases h with
  | value hz _ => simp [hz]
  | overflow hz _ => simp [hz]
  | division hz => simp [hz]

theorem Comes.overflow_iff (h : op.Comes x y o) :
    o = .error (.overflow (.binary (.arithmetic op))) ↔
      ∃ z, op.onNumbers? x y = some z ∧ Decimal.limit ≤ |z| := by
  cases h with
  | @value z d hz h =>
      have hlt := h.abs_lt_limit
      simp [hz, hlt]
  | overflow hz h => simp [hz, h]
  | division hz => simp [hz]

theorem Comes.error {e : EvalError} (h : op.Comes x y (.error e)) :
    e = .divisionByZero ∨ e = .overflow (.binary (.arithmetic op)) := by
  cases h with
  | overflow => exact .inr rfl
  | division => exact .inl rfl

theorem onIntegers_error {a b : Integer} {e : EvalError} (h : op.onIntegers a b = .error e) :
    e = .divisionByZero ∨ e = .overflow (.binary (.arithmetic op)) := by
  rw [op.onIntegers_eq] at h
  cases hz : op.ideal? a.val b.val with
  | none =>
      rw [hz] at h
      cases h
      exact .inl rfl
  | some z =>
      simp only [hz] at h
      cases hi : Integer.ofInt? z with
      | some n => rw [hi] at h; cases h
      | none =>
          rw [hi] at h
          cases h
          exact .inr rfl

theorem onIntegers_division_iff (op : Arithmetic) (a b : Integer) :
    op.onIntegers a b = .error .divisionByZero ↔ op = divide ∧ b.val = 0 := by
  rw [← ideal?_eq_none_iff, op.onIntegers_eq]
  cases hz : op.ideal? a.val b.val with
  | none => simp
  | some z =>
      dsimp only
      cases Integer.ofInt? z <;> simp [orOverflow]

theorem onIntegers_overflow_iff (op : Arithmetic) (a b : Integer) :
    op.onIntegers a b = .error (.overflow (.binary (.arithmetic op))) ↔
      ∃ z, op.ideal? a.val b.val = some z ∧ ¬ Integer.Fits z := by
  rw [op.onIntegers_eq]
  cases hz : op.ideal? a.val b.val with
  | none => simp
  | some z =>
      have hfit : ¬ Integer.Fits z ↔ Integer.ofInt? z = none := Signed.ofInt?_eq_none_iff.symm
      simp only [Option.some.injEq, exists_eq_left', hfit]
      cases Integer.ofInt? z <;> simp [orOverflow]

end Arithmetic

theorem Value.number_cases {l r : Value} {x y : ℚ} (hl : l.number? = some x)
    (hr : r.number? = some y) :
    (∃ a b, l = .integer a ∧ r = .integer b) ∨ l.kind = .decimal ∨ r.kind = .decimal := by
  cases l with
  | string | boolean => cases hl
  | decimal => exact .inr (.inl rfl)
  | integer a =>
      cases r with
      | string | boolean => cases hr
      | decimal => exact .inr (.inr rfl)
      | integer b => exact .inl ⟨a, b, rfl, rfl⟩

namespace BinaryOperator

def numericPairs : List (Kind × Kind) :=
  [(.integer, .integer), (.decimal, .decimal), (.integer, .decimal), (.decimal, .integer)]

def row : BinaryOperator → List (Kind × Kind)
  | arithmetic .add | arithmetic .subtract => numericPairs ++ [(.string, .string)]
  | arithmetic .multiply | arithmetic .divide => numericPairs
  | connective _ => [(.boolean, .boolean)]

def arithmetic? : BinaryOperator → Option Arithmetic
  | arithmetic op => some op
  | connective _ => none

def onIntegers? (op : BinaryOperator) (a b : Integer) : Option (Except EvalError Value) :=
  op.arithmetic?.map fun op => .integer <$> op.onIntegers a b

def onDecimals? (op : BinaryOperator) (a b : Decimal) : Option (Except EvalError Value) :=
  op.arithmetic?.map fun op => .decimal <$> op.onDecimals a b

/-- The rows for truth values and for strings are tried first, and then any operator that is not
logical goes to the arithmetic of its operands. A connective would have no result there. -/
def dispatch? (op : BinaryOperator) (l r : Value) : Option (Except EvalError Value) :=
  let mismatch := some (.error (.typeMismatch op l.kind r.kind))
  match op, l, r with
  | connective .and, .boolean a, .boolean b => some (.ok (.boolean (a && b)))
  | connective .or, .boolean a, .boolean b => some (.ok (.boolean (a || b)))
  | arithmetic .add, .string a, .string b => some (.ok (.string (a ++ b)))
  | arithmetic .subtract, .string a, .string b => some (.ok (.string (Text.remove a b)))
  | op, l, r =>
      if op.isLogical then mismatch
      else
        match l, r with
        | .integer a, .integer b => op.onIntegers? a b
        | .decimal a, .decimal b => op.onDecimals? a b
        | .integer a, .decimal b => op.onDecimals? (.ofInteger a) b
        | .decimal a, .integer b => op.onDecimals? a (.ofInteger b)
        | _, _ => mismatch

variable {op : BinaryOperator} {l r : Value}

theorem dispatch?_eq (op : BinaryOperator) (l r : Value) :
    op.dispatch? l r = some (op.apply l r) := by
  cases op with
  | connective op => cases op <;> cases l <;> cases r <;> rfl
  | arithmetic op => cases op <;> cases l <;> cases r <;> rfl

theorem mem_row_iff {kl kr : Kind} : (kl, kr) ∈ op.row ↔ ∃ k, op.kind? kl kr = some k := by
  rw [← Option.isSome_iff_exists]
  cases op with
  | connective op => cases op <;> cases kl <;> cases kr <;> decide
  | arithmetic op => cases op <;> cases kl <;> cases kr <;> decide

theorem apply_of_not_mem (h : (l.kind, r.kind) ∉ op.row) :
    op.apply l r = .error (.typeMismatch op l.kind r.kind) := by
  refine apply_of_kind?_eq_none (Option.eq_none_iff_forall_ne_some.2 fun k hk => ?_)
  exact h (mem_row_iff.2 ⟨k, hk⟩)

theorem row_cases (h : (l.kind, r.kind) ∈ op.row) :
    (∃ o x y, op = arithmetic o ∧ l.number? = some x ∧ r.number? = some y) ∨
      l.number? = none ∧ r.number? = none ∧ ∃ v, op.apply l r = .ok v := by
  obtain ⟨k, hk⟩ := mem_row_iff.1 h
  cases op with
  | connective op =>
      cases l <;> cases r <;> cases hk
      exact .inr ⟨rfl, rfl, _, rfl⟩
  | arithmetic op =>
      cases l <;> cases r
      case integer.integer | integer.decimal | decimal.integer | decimal.decimal =>
        exact .inl ⟨op, _, _, rfl, rfl, rfl⟩
      case string.string =>
        cases op <;> cases hk <;> exact .inr ⟨rfl, rfl, _, rfl⟩
      all_goals cases op <;> cases hk

theorem apply_eq_onDecimals (op : Arithmetic) {x y : ℚ} (hl : l.number? = some x)
    (hr : r.number? = some y) (hd : l.kind = .decimal ∨ r.kind = .decimal) :
    ∃ o, op.Comes x y o ∧ (arithmetic op).apply l r = .decimal <$> o := by
  cases l <;> cases r <;> cases hl <;> cases hr
  case integer.integer => rcases hd with hd | hd <;> cases hd
  case integer.decimal a b =>
    rw [← Decimal.toRat_ofInteger]
    exact ⟨_, op.comes_onDecimals (.ofInteger a) b, rfl⟩
  case decimal.integer a b =>
    rw [← Decimal.toRat_ofInteger]
    exact ⟨_, op.comes_onDecimals a (.ofInteger b), rfl⟩
  case decimal.decimal a b => exact ⟨_, op.comes_onDecimals a b, rfl⟩

theorem apply_division_iff (op : Arithmetic) {x y : ℚ} (hl : l.number? = some x)
    (hr : r.number? = some y) :
    (arithmetic op).apply l r = .error .divisionByZero ↔ op = .divide ∧ y = 0 := by
  rcases Value.number_cases hl hr with ⟨a, b, rfl, rfl⟩ | hd
  · cases hr
    rw [Int.cast_eq_zero, ← op.onIntegers_division_iff a b]
    exact map_eq_error_iff
  · obtain ⟨o, ho, ha⟩ := apply_eq_onDecimals op hl hr hd
    rw [ha, map_eq_error_iff, ho.division_iff]

theorem apply_error (op : Arithmetic) {x y : ℚ} (hl : l.number? = some x)
    (hr : r.number? = some y) {e : EvalError} (h : (arithmetic op).apply l r = .error e) :
    e = .divisionByZero ∨ e = .overflow (.binary (arithmetic op)) := by
  rcases Value.number_cases hl hr with ⟨a, b, rfl, rfl⟩ | hd
  · exact Arithmetic.onIntegers_error (map_eq_error_iff.1 h)
  · obtain ⟨o, ho, ha⟩ := apply_eq_onDecimals op hl hr hd
    rw [ha, map_eq_error_iff] at h
    exact (h ▸ ho).error

theorem error_of_mem (h : (l.kind, r.kind) ∈ op.row) {e : EvalError}
    (he : op.apply l r = .error e) : ∃ o x y, op = arithmetic o ∧ l.number? = some x ∧
      r.number? = some y ∧ (e = .divisionByZero ∨ e = .overflow (.binary op)) := by
  rcases row_cases h with ⟨o, x, y, rfl, hl, hr⟩ | ⟨-, -, v, hv⟩
  · exact ⟨o, x, y, rfl, hl, hr, apply_error o hl hr he⟩
  · cases he.symm.trans hv

/-- Everything that can come of an operator and two values, and when it does. -/
structure Classified (op : BinaryOperator) (l r : Value) : Prop where
  mismatch : ∀ o kl kr, op.apply l r = .error (.typeMismatch o kl kr) ↔
    (l.kind, r.kind) ∉ op.row ∧ o = op ∧ kl = l.kind ∧ kr = r.kind
  division : (l.kind, r.kind) ∈ op.row → (op.apply l r = .error .divisionByZero ↔
    op = arithmetic .divide ∧ r.number? = some 0)
  overflow : ∀ o, op.apply l r = .error (.overflow o) → o = .binary op ∧
    ∃ a x y, op = arithmetic a ∧ l.number? = some x ∧ r.number? = some y
  integers : ∀ o a b, op = arithmetic o → l = .integer a → r = .integer b →
    (op.apply l r = .error (.overflow (.binary op)) ↔
      ∃ z, o.ideal? a.val b.val = some z ∧ ¬ Integer.Fits z)
  decimals : ∀ o x y, op = arithmetic o → l.number? = some x → r.number? = some y →
    l.kind = .decimal ∨ r.kind = .decimal →
    (op.apply l r = .error (.overflow (.binary op)) ↔
      ∃ z, o.onNumbers? x y = some z ∧ Decimal.limit ≤ |z|)
  total : (l.kind, r.kind) ∈ op.row → l.isNumeric = false → ∃ v, op.apply l r = .ok v
  errors : ∀ e, op.apply l r = .error e →
    (∃ o kl kr, e = .typeMismatch o kl kr) ∨ e = .divisionByZero ∨ ∃ o, e = .overflow o
  /-- In the order of the rows no connective comes to arithmetic. -/
  reached : op.dispatch? l r = some (op.apply l r)

theorem classified (op : BinaryOperator) (l r : Value) : op.Classified l r where
  mismatch o kl kr := by
    constructor
    · intro h
      by_cases hm : (l.kind, r.kind) ∈ op.row
      · obtain ⟨_, _, _, _, _, _, he | he⟩ := error_of_mem hm h <;> cases he
      · rw [apply_of_not_mem hm] at h
        cases h
        exact ⟨hm, rfl, rfl, rfl⟩
    · rintro ⟨hm, rfl, rfl, rfl⟩
      exact apply_of_not_mem hm
  division hm := by
    rcases row_cases hm with ⟨o, x, y, rfl, hl, hr⟩ | ⟨-, hr, v, hv⟩
    · rw [apply_division_iff o hl hr, hr, Option.some.injEq, arithmetic.injEq]
    · simp [hv, hr]
  overflow o h := by
    by_cases hm : (l.kind, r.kind) ∈ op.row
    · obtain ⟨a, x, y, ho, hl, hr, he | he⟩ := error_of_mem hm h
      · cases he
      · cases he
        exact ⟨rfl, a, x, y, ho, hl, hr⟩
    · rw [apply_of_not_mem hm] at h
      cases h
  integers o a b ho hl hr := by
    subst ho hl hr
    rw [← o.onIntegers_overflow_iff]
    exact map_eq_error_iff
  decimals o x y ho hl hr hd := by
    subst ho
    obtain ⟨z, hz, ha⟩ := apply_eq_onDecimals o hl hr hd
    rw [ha, map_eq_error_iff, hz.overflow_iff]
  total hm hn := by
    rcases row_cases hm with ⟨_, _, _, _, hl, _⟩ | ⟨-, -, hv⟩
    · cases l with
      | integer | decimal => cases hn
      | string | boolean => cases hl
    · exact hv
  errors e he := by
    by_cases hm : (l.kind, r.kind) ∈ op.row
    · obtain ⟨_, _, _, _, _, _, h⟩ := error_of_mem hm he
      exact .inr (h.imp_right fun h => ⟨_, h⟩)
    · rw [apply_of_not_mem hm] at he
      cases he
      exact .inl ⟨_, _, _, rfl⟩
  reached := dispatch?_eq op l r

/-- The kinds are asked first, then the divisor, whatever the scale and the sign of its zero, and
the range last. -/
example :
    let zero : Value := .decimal ⟨true, 0, 28, by decide, by decide⟩
    let least : Value := .integer ⟨-0x80000000_00000000, by decide⟩
    let divide : BinaryOperator := .arithmetic .divide
    divide.apply (.string "a") zero = .error (.typeMismatch divide .string .decimal) ∧
      divide.apply least zero = .error .divisionByZero ∧
      divide.apply least (.integer ⟨-1, by decide⟩) = .error (.overflow (.binary divide)) := by
  decide

end BinaryOperator

end Reckoner
