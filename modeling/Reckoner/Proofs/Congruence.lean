import Reckoner.Proofs.Reach
import Reckoner.Value.Conversion

namespace Reckoner

inductive SameOutcome {ε α : Type} (R : α → α → Prop) : Except ε α → Except ε α → Prop
  | ok {a b : α} (h : R a b) : SameOutcome R (.ok a) (.ok b)
  | error (e : ε) : SameOutcome R (.error e) (.error e)

namespace SameOutcome

variable {ε α β : Type} {R R' : α → α → Prop} {S : β → β → Prop} {x y : Except ε α}

theorem refl (hR : ∀ a, R a a) (x : Except ε α) : SameOutcome R x x := by
  cases x with
  | ok a => exact .ok (hR a)
  | error e => exact .error e

theorem imp (h : SameOutcome R x y) (hR : ∀ a b, R a b → R' a b) : SameOutcome R' x y := by
  cases h with
  | ok h => exact .ok (hR _ _ h)
  | error e => exact .error e

theorem bind_of (h : SameOutcome R x y) {f g : α → Except ε β}
    (hf : ∀ a b, x = .ok a → y = .ok b → R a b → SameOutcome S (f a) (g b)) :
    SameOutcome S (x >>= f) (y >>= g) := by
  cases h with
  | ok h => exact hf _ _ rfl rfl h
  | error e => exact .error e

theorem bind (h : SameOutcome R x y) {f g : α → Except ε β}
    (hf : ∀ a b, R a b → SameOutcome S (f a) (g b)) : SameOutcome S (x >>= f) (y >>= g) :=
  h.bind_of fun a b _ _ => hf a b

theorem map (h : SameOutcome R x y) {f : α → β} (hf : ∀ a b, R a b → S (f a) (f b)) :
    SameOutcome S (f <$> x) (f <$> y) := by
  cases h with
  | ok h => exact .ok (hf _ _ h)
  | error e => exact .error e

end SameOutcome

structure Decimal.Congruence (S : Decimal → Decimal → Prop) : Prop where
  refl : ∀ d, S d d
  neg : ∀ {a b}, S a b → S a.neg b.neg
  onDecimals : ∀ (op : Arithmetic) {a a' b b'}, S a a' → S b b' →
    SameOutcome S (op.onDecimals a b) (op.onDecimals a' b')

/-- Decimals may be exchanged for related ones in all arithmetic, as long as all is well with what
is divided. -/
structure Decimal.CongruenceOn (well S : Decimal → Decimal → Prop) : Prop where
  refl : ∀ d, S d d
  neg : ∀ {a b}, S a b → S a.neg b.neg
  onDecimals : ∀ (op : Arithmetic) {a a' b b'}, S a a' → S b b' →
    (op = .divide → well a b ∧ well a' b') →
    SameOutcome S (op.onDecimals a b) (op.onDecimals a' b')

def BinaryOperator.Divides (well : Decimal → Decimal → Prop) (op : BinaryOperator) (l r : Value) :
    Prop :=
  op = .arithmetic .divide → ∀ a b, l.toDecimal = .ok a → r.toDecimal = .ok b → well a b

/-- All is well with every division that evaluation comes to, however deep it may go. -/
def Policy.Divides (p : Policy) (well : Decimal → Decimal → Prop) (env : Environment) :
    Expr → Prop
  | .literal _ | .var _ => True
  | .grouping inner => p.Divides well env inner
  | .unary _ operand => p.Divides well env operand
  | .binary op left right => p.Divides well env left ∧
      ∀ v, p.unlimited env left = .ok v → p.settles op v = false →
        p.Divides well env right ∧ ∀ w, p.unlimited env right = .ok w → op.Divides well v w

theorem Policy.divides_of_forall (p : Policy) {well : Decimal → Decimal → Prop}
    (h : ∀ a b, well a b) (env : Environment) (e : Expr) : p.Divides well env e := by
  induction e with
  | literal | var => exact trivial
  | grouping inner ih => exact ih
  | unary op operand ih => exact ih
  | binary op left right ihl ihr =>
      exact ⟨ihl, fun v _ _ => ⟨ihr, fun w _ _ a b _ _ => h a b⟩⟩

inductive Value.Alike (S : Decimal → Decimal → Prop) : Value → Value → Prop
  | decimal {a b : Decimal} (h : S a b) : Alike S (.decimal a) (.decimal b)
  | refl (v : Value) : Alike S v v

inductive Expr.Alike (R : Value → Value → Prop) : Expr → Expr → Prop
  | literal {v w : Value} (h : R v w) : Alike R (.literal v) (.literal w)
  | var (name : String) : Alike R (.var name) (.var name)
  | grouping {inner inner' : Expr} (h : Alike R inner inner') :
      Alike R (.grouping inner) (.grouping inner')
  | binary (op : BinaryOperator) {left left' right right' : Expr} (hl : Alike R left left')
      (hr : Alike R right right') : Alike R (.binary op left right) (.binary op left' right')
  | unary (op : UnaryOperator) {operand operand' : Expr} (h : Alike R operand operand') :
      Alike R (.unary op operand) (.unary op operand')

theorem Expr.Alike.isBinary_eq {R : Value → Value → Prop} {e e' : Expr} (h : e.Alike R e') :
    e.isBinary = e'.isBinary := by
  cases h <;> rfl

namespace Decimal.CongruenceOn

variable {well S : Decimal → Decimal → Prop}

theorem decided?_eq {v w : Value} (h : v.Alike S w) (op : BinaryOperator) :
    op.decided? v = op.decided? w := by
  cases h with
  | decimal h => rcases op with _ | (_ | _) <;> rfl
  | refl v => rfl

variable (hS : CongruenceOn well S)

include hS

theorem map_onDecimals (op : Arithmetic) {a a' b b' : Decimal} (ha : S a a') (hb : S b b')
    (hw : op = .divide → well a b) (hw' : op = .divide → well a' b') :
    SameOutcome (Value.Alike S) (Value.decimal <$> op.onDecimals a b)
      (Value.decimal <$> op.onDecimals a' b') :=
  (hS.onDecimals op ha hb fun h => ⟨hw h, hw' h⟩).map fun _ _ => .decimal

theorem apply_binary (op : BinaryOperator) {l l' r r' : Value} (hl : l.Alike S l')
    (hr : r.Alike S r') (hw : op.Divides well l r) (hw' : op.Divides well l' r') :
    SameOutcome (Value.Alike S) (op.apply l r) (op.apply l' r') := by
  cases op with
  | connective op =>
      cases hl with
      | decimal hl =>
          cases hr with
          | decimal hr => exact .error _
          | refl r => cases r <;> exact .error _
      | refl l =>
          cases hr with
          | decimal hr => cases l <;> exact .error _
          | refl r => exact .refl .refl _
  | arithmetic op =>
      have div {l r : Value} {a b : Decimal} (hw : (BinaryOperator.arithmetic op).Divides well l r)
          (ha : l.toDecimal = .ok a) (hb : r.toDecimal = .ok b) : op = .divide → well a b :=
        fun ho => hw (congrArg _ ho) a b ha hb
      cases hl with
      | decimal hl =>
          cases hr with
          | decimal hr => exact hS.map_onDecimals op hl hr (div hw rfl rfl) (div hw' rfl rfl)
          | refl r =>
              cases r with
              | integer n =>
                  exact hS.map_onDecimals op hl (hS.refl _) (div hw rfl rfl) (div hw' rfl rfl)
              | decimal d =>
                  exact hS.map_onDecimals op hl (hS.refl d) (div hw rfl rfl) (div hw' rfl rfl)
              | string | boolean => exact .error _
      | refl l =>
          cases hr with
          | decimal hr =>
              cases l with
              | integer n =>
                  exact hS.map_onDecimals op (hS.refl _) hr (div hw rfl rfl) (div hw' rfl rfl)
              | decimal d =>
                  exact hS.map_onDecimals op (hS.refl d) hr (div hw rfl rfl) (div hw' rfl rfl)
              | string | boolean => exact .error _
          | refl r => exact .refl .refl _

theorem apply_unary (op : UnaryOperator) {v w : Value} (h : v.Alike S w) :
    SameOutcome (Value.Alike S) (op.apply v) (op.apply w) := by
  cases h with
  | decimal h => cases op; exact .ok (.decimal (hS.neg h))
  | refl v => exact .refl .refl _

theorem link (p : Policy) (op : BinaryOperator) {v v' : Value} (h : v.Alike S v')
    {f f' : Unit → Except EvalError Value}
    (hf : p.settles op v = false → SameOutcome (Value.Alike S) (f ()) (f' ()))
    (hw : p.settles op v = false → ∀ r, f () = .ok r → op.Divides well v r)
    (hw' : p.settles op v' = false → ∀ r, f' () = .ok r → op.Divides well v' r) :
    SameOutcome (Value.Alike S) (p.link op v f) (p.link op v' f') := by
  have hd := decided?_eq h op
  have hs : p.settles op v' = p.settles op v := by rw [Policy.settles, Policy.settles, hd]
  cases hv : p.settles op v with
  | true =>
      rw [Policy.link, Policy.link, ← hd]
      split
      · exact .ok (.refl _)
      · rename_i hn
        simp_all [Policy.settles]
  | false =>
      rw [Policy.link_of_not_settles hv, Policy.link_of_not_settles (hs.trans hv)]
      exact (hf hv).bind_of fun r r' hr hr' ha =>
        hS.apply_binary op h ha (hw hv r hr) (hw' (hs.trans hv) r' hr')

/-- What is alike at the leaves of two trees, and in their names, is alike in what they come to. -/
theorem evaluateAt (p : Policy) {env env' : Environment}
    (hn : ∀ name, Option.Rel (Value.Alike S) (env name) (env' name)) {e e' : Expr}
    (h : e.Alike (Value.Alike S) e') (hw : p.Divides well env e) (hw' : p.Divides well env' e')
    (depth : Nat) :
    SameOutcome (Value.Alike S) (p.evaluateAt env depth e) (p.evaluateAt env' depth e') := by
  induction h generalizing depth with
  | @literal v w hv =>
      rw [Policy.evaluateAt, Policy.evaluateAt]
      split
      · exact .error _
      · exact .ok hv
  | var name =>
      rw [Policy.evaluateAt, Policy.evaluateAt]
      split
      · exact .error _
      · have hn := hn name
        generalize env name = o at hn
        generalize env' name = o' at hn
        cases hn with
        | some hv => exact .ok hv
        | none => exact .error _
  | grouping h ih =>
      rw [Policy.evaluateAt, Policy.evaluateAt]
      split
      · exact .error _
      · exact ih hw hw' (depth + 1)
  | unary op h ih =>
      rw [Policy.evaluateAt, Policy.evaluateAt]
      split
      · exact .error _
      · exact (ih hw hw' (depth + 1)).bind fun _ _ => hS.apply_unary op
  | @binary op left left' right right' hl hr ihl ihr =>
      by_cases hd : p.maxDepth < depth
      · rw [p.evaluateAt_of_lt env hd, p.evaluateAt_of_lt env' hd]
        exact .error _
      · have hleft : Policy.leftDepth depth left = Policy.leftDepth depth left' := by
          rw [Policy.leftDepth, Policy.leftDepth, hl.isBinary_eq]
        rw [p.evaluateAt_binary env hd, p.evaluateAt_binary env' hd, hleft]
        refine (ihl hw.1 hw'.1 _).bind_of fun v v' hv hv' ha => ?_
        have hr := hw.2 v (p.unlimited_of_evaluateAt env hv)
        have hr' := hw'.2 v' (p.unlimited_of_evaluateAt env' hv')
        -- Both runs skip the right operand, or neither does.
        have hs : p.settles op v' = p.settles op v := by
          rw [Policy.settles, Policy.settles, decided?_eq ha op]
        exact hS.link p op ha (fun h => ihr (hr h).1 (hr' (hs.trans h)).1 (depth + 1))
          (fun h w hw => (hr h).2 w (p.unlimited_of_evaluateAt env hw))
          (fun h w hw => (hr' h).2 w (p.unlimited_of_evaluateAt env' hw))

end Decimal.CongruenceOn

theorem Decimal.Congruence.evaluateAt {S : Decimal → Decimal → Prop} (hS : Congruence S)
    (p : Policy) {env env' : Environment}
    (hn : ∀ name, Option.Rel (Value.Alike S) (env name) (env' name)) {e e' : Expr}
    (h : e.Alike (Value.Alike S) e') (depth : Nat) :
    SameOutcome (Value.Alike S) (p.evaluateAt env depth e) (p.evaluateAt env' depth e') := by
  have hon : CongruenceOn (fun _ _ => True) S :=
    ⟨hS.refl, hS.neg, fun op _ _ _ _ ha hb _ => hS.onDecimals op ha hb⟩
  exact hon.evaluateAt p hn h (p.divides_of_forall (fun _ _ => trivial) env e)
    (p.divides_of_forall (fun _ _ => trivial) env' e') depth

end Reckoner
