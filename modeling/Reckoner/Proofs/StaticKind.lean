import Reckoner.Proofs.Reach

namespace Reckoner

def BinaryOperator.kind? : BinaryOperator → Kind → Kind → Option Kind
  | arithmetic _, .integer, .integer => some .integer
  | arithmetic _, .integer, .decimal => some .decimal
  | arithmetic _, .decimal, .integer => some .decimal
  | arithmetic _, .decimal, .decimal => some .decimal
  | arithmetic .add, .string, .string => some .string
  | arithmetic .subtract, .string, .string => some .string
  | connective _, .boolean, .boolean => some .boolean
  | _, _, _ => none

def UnaryOperator.kind? : UnaryOperator → Kind → Option Kind
  | negate, .integer => some .integer
  | negate, .decimal => some .decimal
  | negate, _ => none

/-- The kind of a tree by the kinds of its literals and names alone. -/
def Expr.kind? (env : Environment) : Expr → Option Kind
  | literal v => some v.kind
  | var name => (env name).map Value.kind
  | grouping inner => inner.kind? env
  | unary op operand => operand.kind? env >>= op.kind?
  | binary op left right => do op.kind? (← left.kind? env) (← right.kind? env)

def EvalError.isNumeric : EvalError → Bool
  | divisionByZero | overflow _ => true
  | typeMismatch .. | unaryTypeMismatch .. | unboundVariable _ | depthLimitExceeded _ => false

/-- A value of the kind, or a failure of its numbers. -/
def Kind.Admits (k : Kind) : Except EvalError Value → Prop
  | .ok v => v.kind = k
  | .error e => e.isNumeric = true

namespace Kind

variable {k : Kind}

theorem Admits.bind {k' : Kind} {x : Except EvalError Value} (hx : k.Admits x)
    {f : Value → Except EvalError Value} (hf : ∀ v, v.kind = k → k'.Admits (f v)) :
    k'.Admits (x >>= f) := by
  cases x with
  | ok v => exact hf v hx
  | error e => exact hx

theorem admits_orOverflow {α : Type} (f : α → Value) (hf : ∀ a, (f a).kind = k) (op : Operator)
    (o : Option α) : k.Admits (f <$> orOverflow op o) := by
  cases o with
  | none => rfl
  | some a => exact hf a

theorem admits_onIntegers (op : Arithmetic) (a b : Integer) :
    integer.Admits (.integer <$> op.onIntegers a b) := by
  cases op with
  | add | subtract | multiply => exact admits_orOverflow Value.integer (fun _ => rfl) _ _
  | divide =>
      simp only [Arithmetic.onIntegers]
      split
      · rfl
      · exact admits_orOverflow Value.integer (fun _ => rfl) _ _

theorem admits_onDecimals (op : Arithmetic) (a b : Decimal) :
    decimal.Admits (.decimal <$> op.onDecimals a b) := by
  cases op with
  | add | subtract | multiply => exact admits_orOverflow Value.decimal (fun _ => rfl) _ _
  | divide =>
      simp only [Arithmetic.onDecimals]
      split
      · rfl
      · exact admits_orOverflow Value.decimal (fun _ => rfl) _ _

end Kind

namespace BinaryOperator

variable {op : BinaryOperator} {l r : Value}

theorem admits_apply {k : Kind} (h : op.kind? l.kind r.kind = some k) :
    k.Admits (op.apply l r) := by
  cases op with
  | connective op =>
      cases l <;> cases r <;> cases h
      rfl
  | arithmetic op =>
      cases l <;> cases r
      case integer.integer => cases h; exact Kind.admits_onIntegers ..
      case integer.decimal | decimal.integer | decimal.decimal =>
        cases h; exact Kind.admits_onDecimals ..
      case string.string => cases op <;> cases h <;> rfl
      all_goals cases op <;> cases h

theorem apply_of_kind?_eq_none (h : op.kind? l.kind r.kind = none) :
    op.apply l r = .error (.typeMismatch op l.kind r.kind) := by
  cases op with
  | connective op => cases l <;> cases r <;> first | rfl | cases h
  | arithmetic op => cases l <;> cases r <;> first | rfl | cases op <;> first | rfl | cases h

theorem kind?_of_apply {v : Value} (h : op.apply l r = .ok v) :
    op.kind? l.kind r.kind = some v.kind := by
  cases hk : op.kind? l.kind r.kind with
  | none => rw [apply_of_kind?_eq_none hk] at h; cases h
  | some k =>
      have ha := admits_apply hk
      rw [h] at ha
      exact congrArg some ha.symm

theorem kind?_of_decided {b : Bool} (h : op.decided? l = some b) {k k' : Kind}
    (hk : op.kind? l.kind k = some k') : k' = .boolean := by
  cases op with
  | arithmetic op => cases h
  | connective op =>
      cases l with
      | integer | decimal | string => cases op <;> cases h
      | boolean b' => cases k <;> cases hk; rfl

end BinaryOperator

namespace UnaryOperator

variable {op : UnaryOperator} {v : Value}

theorem admits_apply {k : Kind} (h : op.kind? v.kind = some k) : k.Admits (op.apply v) := by
  cases op with
  | negate =>
      cases v with
      | integer n => cases h; exact Kind.admits_orOverflow Value.integer (fun _ => rfl) _ _
      | decimal d => cases h; rfl
      | string | boolean => cases h

theorem apply_of_kind?_eq_none (h : op.kind? v.kind = none) :
    op.apply v = .error (.unaryTypeMismatch op v.kind) := by
  cases op with
  | negate =>
      cases v with
      | integer | decimal => cases h
      | string | boolean => rfl

theorem kind?_of_apply {w : Value} (h : op.apply v = .ok w) : op.kind? v.kind = some w.kind := by
  cases hk : op.kind? v.kind with
  | none => rw [apply_of_kind?_eq_none hk] at h; cases h
  | some k =>
      have ha := admits_apply hk
      rw [h] at ha
      exact congrArg some ha.symm

end UnaryOperator

namespace Policy

variable {p : Policy} {env : Environment}

theorem admits_unlimited {e : Expr} {k : Kind} (h : e.kind? env = some k) :
    k.Admits (p.unlimited env e) := by
  induction e generalizing k with
  | literal v => exact Option.some.inj h
  | var name =>
      obtain ⟨v, hv, rfl⟩ := Option.map_eq_some_iff.1 h
      simp only [unlimited, hv]
      rfl
  | grouping inner ih => exact ih h
  | unary op operand ih =>
      obtain ⟨k', hk', hop⟩ := Option.bind_eq_some_iff.1 h
      refine (ih hk').bind fun v hv => ?_
      exact UnaryOperator.admits_apply (hv ▸ hop)
  | binary op left right ihl ihr =>
      obtain ⟨kl, hl, h⟩ := Option.bind_eq_some_iff.1 h
      obtain ⟨kr, hr, hop⟩ := Option.bind_eq_some_iff.1 h
      refine (ihl hl).bind fun v hv => ?_
      subst hv
      cases hs : p.settles op v with
      | true =>
          obtain ⟨hp, hd⟩ := Bool.and_eq_true_iff.1 hs
          obtain ⟨b, hb⟩ := Option.isSome_iff_exists.1 hd
          -- What settles a connective is a truth value, as the whole would be.
          rw [BinaryOperator.kind?_of_decided hb hop]
          simp only [link, hp, hb]
          rfl
      | false =>
          rw [link_of_not_settles hs]
          refine (ihr hr).bind fun r hr => ?_
          exact BinaryOperator.admits_apply (hr ▸ hop)

theorem kind?_of_unlimited (hp : p.shortCircuit = false) {e : Expr} {v : Value}
    (h : p.unlimited env e = .ok v) : e.kind? env = some v.kind := by
  induction e generalizing v with
  | literal w => cases h; rfl
  | var name =>
      cases hn : env name with
      | none => rw [unlimited, hn] at h; cases h
      | some w =>
          rw [unlimited, hn] at h
          cases h
          exact congrArg (Option.map Value.kind) hn
  | grouping inner ih => exact ih h
  | unary op operand ih =>
      obtain ⟨w, hw, hop⟩ := exists_of_bind_eq_ok h
      rw [Expr.kind?, ih hw]
      exact UnaryOperator.kind?_of_apply hop
  | binary op left right ihl ihr =>
      obtain ⟨l, hl, hlink⟩ := exists_of_bind_eq_ok h
      have hs : p.settles op l = false := by simp [settles, hp]
      rw [link_of_not_settles hs] at hlink
      obtain ⟨r, hr, hop⟩ := exists_of_bind_eq_ok hlink
      rw [Expr.kind?, ihl hl, ihr hr]
      exact BinaryOperator.kind?_of_apply hop

/-- Kinds are static. A tree that has one comes to a value of it, or fails by its numbers or its
depth; a tree that has none comes to no value if all of it is evaluated. -/
theorem evaluate_of_kind? (p : Policy) (env : Environment) (e : Expr) :
    (∀ k, e.kind? env = some k →
      (∃ v, p.evaluate env e = .ok v ∧ v.kind = k) ∨
        p.evaluate env e = .error .divisionByZero ∨
        (∃ op, p.evaluate env e = .error (.overflow op)) ∨
        p.evaluate env e = .error (.depthLimitExceeded p.maxDepth)) ∧
    (e.kind? env = none → p.shortCircuit = false → ∀ v, p.evaluate env e ≠ .ok v) := by
  rw [evaluate, evaluateAt_eq_limited, limited]
  constructor
  · intro k hk
    have ha := admits_unlimited (p := p) hk
    split
    · exact .inr (.inr (.inr rfl))
    · cases hu : p.unlimited env e with
      | ok v => exact .inl ⟨v, rfl, by rwa [hu] at ha⟩
      | error err =>
          rw [hu] at ha
          cases err with
          | divisionByZero => exact .inr (.inl rfl)
          | overflow op => exact .inr (.inr (.inl ⟨op, rfl⟩))
          | typeMismatch | unaryTypeMismatch | unboundVariable | depthLimitExceeded => cases ha
  · intro hk hp v h
    split at h
    · cases h
    · rw [kind?_of_unlimited hp h] at hk
      cases hk

theorem kind?_of_sum_and_alternative :
    let env : Environment := fun _ => some (.decimal ⟨false, 25, 1, by decide, by decide⟩)
    let one : Expr := .literal (.integer ⟨1, by decide⟩)
    let sum : Expr := .binary (.arithmetic .add) one (.var "x")
    let alternative : Expr := .binary (.connective .or) (.literal (.boolean true)) one
    let eager : Policy := ⟨false, 2⟩
    sum.kind? env = some .decimal ∧
      ((∃ v, eager.evaluate env sum = .ok v ∧ v.kind = .decimal) ∨
        eager.evaluate env sum = .error .divisionByZero ∨
        (∃ op, eager.evaluate env sum = .error (.overflow op)) ∨
        eager.evaluate env sum = .error (.depthLimitExceeded 2)) ∧
      alternative.kind? env = none ∧ (∀ v, eager.evaluate env alternative ≠ .ok v) ∧
      Policy.evaluate ⟨true, 2⟩ env alternative = .ok (.boolean true) := by
  intro env one sum alternative eager
  have hs : sum.kind? env = some .decimal := rfl
  have ha : alternative.kind? env = none := rfl
  refine ⟨hs, (evaluate_of_kind? eager env sum).1 .decimal hs, ha,
    (evaluate_of_kind? eager env alternative).2 ha rfl, ?_⟩
  rw [evaluate, evaluateAt_eq_limited]
  rfl

end Policy

end Reckoner
