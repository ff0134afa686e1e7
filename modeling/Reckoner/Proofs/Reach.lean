import Reckoner.Except
import Reckoner.Proofs.PostOrder

namespace Reckoner

theorem orOverflow_ne_depthLimit {α : Type} (op : Operator) (o : Option α) (n : Nat) :
    orOverflow op o ≠ .error (.depthLimitExceeded n) := by
  cases o <;> exact nofun

theorem Arithmetic.onIntegers_ne_depthLimit (op : Arithmetic) (a b : Integer) (n : Nat) :
    op.onIntegers a b ≠ .error (.depthLimitExceeded n) := by
  cases op with
  | add | subtract | multiply => exact orOverflow_ne_depthLimit _ _ _
  | divide =>
      simp only [onIntegers]
      split
      · exact nofun
      · exact orOverflow_ne_depthLimit _ _ _

theorem Arithmetic.onDecimals_ne_depthLimit (op : Arithmetic) (a b : Decimal) (n : Nat) :
    op.onDecimals a b ≠ .error (.depthLimitExceeded n) := by
  cases op with
  | add | subtract | multiply => exact orOverflow_ne_depthLimit _ _ _
  | divide =>
      simp only [onDecimals]
      split
      · exact nofun
      · exact orOverflow_ne_depthLimit _ _ _

theorem BinaryOperator.apply_ne_depthLimit (op : BinaryOperator) (l r : Value) (n : Nat) :
    op.apply l r ≠ .error (.depthLimitExceeded n) := by
  unfold apply
  split
  · exact mt map_eq_error_iff.1 (Arithmetic.onIntegers_ne_depthLimit _ _ _ n)
  · exact mt map_eq_error_iff.1 (Arithmetic.onDecimals_ne_depthLimit _ _ _ n)
  · exact mt map_eq_error_iff.1 (Arithmetic.onDecimals_ne_depthLimit _ _ _ n)
  · exact mt map_eq_error_iff.1 (Arithmetic.onDecimals_ne_depthLimit _ _ _ n)
  · rename_i op a b
    cases op.onStrings? a b <;> exact nofun
  · exact nofun
  · exact nofun

theorem UnaryOperator.apply_ne_depthLimit (op : UnaryOperator) (v : Value) (n : Nat) :
    op.apply v ≠ .error (.depthLimitExceeded n) := by
  unfold apply
  split
  · exact mt map_eq_error_iff.1 (orOverflow_ne_depthLimit _ _ _)
  · exact nofun
  · exact nofun

namespace Policy

variable (p : Policy) (env : Environment)

/-- Evaluation as it goes where no depth is too deep. -/
def unlimited (e : Expr) : Except EvalError Value :=
  match e with
  | .literal v => .ok v
  | .var name =>
      match env name with
      | some v => .ok v
      | none => .error (.unboundVariable name)
  | .grouping inner => unlimited inner
  | .unary op operand => do op.apply (← unlimited operand)
  | .binary op left right => do p.link op (← unlimited left) fun _ => unlimited right

/-- Whether an operation has its value without its right operand. -/
def settles (op : BinaryOperator) (v : Value) : Bool := p.shortCircuit && (op.decided? v).isSome

/-- The deepest depth that evaluation comes to: not that of operands behind an error, nor of those
that it skips. -/
def reach (depth : Nat) (e : Expr) : Nat :=
  match e with
  | .literal _ | .var _ => depth
  | .grouping inner => reach (depth + 1) inner
  | .unary _ operand => reach (depth + 1) operand
  | .binary op left right =>
      let n := reach (leftDepth depth left) left
      match p.unlimited env left with
      | .ok v => if p.settles op v then n else max n (reach (depth + 1) right)
      | .error _ => n

section

variable {p : Policy} {env : Environment} {left : Expr}

theorem reach_of_error {e : EvalError} (h : p.unlimited env left = .error e) (depth : Nat)
    (op : BinaryOperator) (right : Expr) :
    p.reach env depth (.binary op left right) = p.reach env (leftDepth depth left) left := by
  rw [reach, h]

theorem reach_of_settles {op : BinaryOperator} {v : Value} (h : p.unlimited env left = .ok v)
    (hs : p.settles op v = true) (depth : Nat) (right : Expr) :
    p.reach env depth (.binary op left right) = p.reach env (leftDepth depth left) left := by
  rw [reach, h]
  exact if_pos hs

theorem reach_of_not_settles {op : BinaryOperator} {v : Value} (h : p.unlimited env left = .ok v)
    (hs : p.settles op v = false) (depth : Nat) (right : Expr) :
    p.reach env depth (.binary op left right) =
      max (p.reach env (leftDepth depth left) left) (p.reach env (depth + 1) right) := by
  rw [reach, h]
  simp [hs]

theorem link_of_settles {op : BinaryOperator} {v : Value} (h : p.settles op v = true) :
    ∃ b, ∀ f, p.link op v f = .ok (.boolean b) := by
  obtain ⟨hs, hd⟩ := Bool.and_eq_true_iff.1 h
  obtain ⟨b, hb⟩ := Option.isSome_iff_exists.1 hd
  exact ⟨b, fun f => by simp [link, hs, hb]⟩

theorem link_of_not_settles {op : BinaryOperator} {v : Value} (h : p.settles op v = false)
    (f : Unit → Except EvalError Value) : p.link op v f = f () >>= op.apply v := by
  rw [settles] at h
  rw [link]
  cases hs : p.shortCircuit with
  | false => rfl
  | true =>
      have hd : op.decided? v = none := by simpa [hs] using h
      simp [hd]

theorem unlimited_binary {v : Value} (h : p.unlimited env left = .ok v) (op : BinaryOperator)
    (right : Expr) :
    p.unlimited env (.binary op left right) = p.link op v fun _ => p.unlimited env right := by
  rw [unlimited, h]
  rfl

end

theorem le_leftDepth (depth : Nat) (left : Expr) : depth ≤ leftDepth depth left := by
  rw [leftDepth]
  split <;> omega

theorem reach_left_le (depth : Nat) (op : BinaryOperator) (left right : Expr) :
    p.reach env (leftDepth depth left) left ≤ p.reach env depth (.binary op left right) := by
  cases h : p.unlimited env left with
  | error e => exact Nat.le_of_eq (reach_of_error h depth op right).symm
  | ok v =>
      cases hs : p.settles op v with
      | true => exact Nat.le_of_eq (reach_of_settles h hs depth right).symm
      | false =>
          rw [reach_of_not_settles h hs]
          exact Nat.le_max_left ..

theorem le_reach (depth : Nat) (e : Expr) : depth ≤ p.reach env depth e := by
  induction e generalizing depth with
  | literal | var => exact Nat.le_refl depth
  | grouping inner ih => exact Nat.le_of_succ_le (ih (depth + 1))
  | unary op operand ih => exact Nat.le_of_succ_le (ih (depth + 1))
  | binary op left right ihl _ =>
      have hl := Nat.le_trans (le_leftDepth depth left) (ihl (leftDepth depth left))
      exact Nat.le_trans hl (p.reach_left_le env depth op left right)

theorem leftDepth_le (depth : Nat) (left : Expr) : leftDepth depth left ≤ depth + 1 := by
  rw [leftDepth]
  split <;> omega

theorem leftDepth_mono {depth depth' : Nat} (h : depth ≤ depth') (left : Expr) :
    leftDepth depth left ≤ leftDepth depth' left := by
  rw [leftDepth, leftDepth]
  split
  · exact h
  · exact Nat.succ_le_succ h

theorem reach_mono {depth depth' : Nat} (h : depth ≤ depth') (e : Expr) :
    p.reach env depth e ≤ p.reach env depth' e := by
  induction e generalizing depth depth' with
  | literal | var => exact h
  | grouping inner ih => exact ih (Nat.succ_le_succ h)
  | unary op operand ih => exact ih (Nat.succ_le_succ h)
  | binary op left right ihl ihr =>
      have hl := ihl (leftDepth_mono h left)
      have hr := ihr (Nat.add_le_add_right h 1)
      simp only [reach]
      split
      · split
        · exact hl
        · omega
      · exact hl

theorem reach_lt (depth : Nat) (e : Expr) : p.reach env depth e < depth + e.depth := by
  induction e generalizing depth with
  | literal | var => exact Nat.lt_succ_self depth
  | grouping inner ih =>
      have h := ih (depth + 1)
      simp only [reach, Expr.depth]
      omega
  | unary op operand ih =>
      have h := ih (depth + 1)
      simp only [reach, Expr.depth]
      omega
  | binary op left right ihl ihr =>
      have hl := ihl (leftDepth depth left)
      have hr := ihr (depth + 1)
      have hd := leftDepth_le depth left
      simp only [reach, Expr.depth]
      split
      · split <;> omega
      · omega

def limited (depth : Nat) (e : Expr) : Except EvalError Value :=
  if p.maxDepth < p.reach env depth e then .error (.depthLimitExceeded p.maxDepth)
  else p.unlimited env e

theorem limited_of_lt {depth : Nat} {e : Expr} (h : p.maxDepth < p.reach env depth e) :
    p.limited env depth e = .error (.depthLimitExceeded p.maxDepth) := if_pos h

theorem limited_of_le {depth : Nat} {e : Expr} (h : p.reach env depth e ≤ p.maxDepth) :
    p.limited env depth e = p.unlimited env e := if_neg (Nat.not_lt.2 h)

theorem evaluateAt_eq_limited_of {depth : Nat} {e : Expr}
    (h : ¬ p.maxDepth < depth → p.evaluateAt env depth e = p.limited env depth e) :
    p.evaluateAt env depth e = p.limited env depth e := by
  by_cases hd : p.maxDepth < depth
  · rw [evaluateAt_of_lt p env hd,
      limited_of_lt p env (Nat.lt_of_lt_of_le hd (p.le_reach env depth e))]
  · exact h hd

theorem limited_binary (depth : Nat) (op : BinaryOperator) (left right : Expr) :
    (p.limited env (leftDepth depth left) left >>= fun v =>
      p.link op v fun _ => p.limited env (depth + 1) right) =
      p.limited env depth (.binary op left right) := by
  rcases Nat.lt_or_ge p.maxDepth (p.reach env (leftDepth depth left) left) with hl | hl
  · have hle := p.reach_left_le env depth op left right
    rw [limited_of_lt p env hl, limited_of_lt p env (Nat.lt_of_lt_of_le hl hle)]
    rfl
  rw [limited_of_le p env hl]
  cases h : p.unlimited env left with
  | error e =>
      have hb := reach_of_error h depth op right
      rw [limited_of_le p env (Nat.le_trans (Nat.le_of_eq hb) hl), unlimited, h]
      rfl
  | ok v =>
      change p.link op v (fun _ => p.limited env (depth + 1) right) = _
      cases hs : p.settles op v with
      | true =>
          have hb := reach_of_settles h hs depth right
          obtain ⟨b, hv⟩ := link_of_settles hs
          rw [limited_of_le p env (Nat.le_trans (Nat.le_of_eq hb) hl), unlimited_binary h, hv, hv]
      | false =>
          have hb := reach_of_not_settles h hs depth right
          rw [link_of_not_settles hs]
          rcases Nat.lt_or_ge p.maxDepth (p.reach env (depth + 1) right) with hr | hr
          · have hlt : p.maxDepth < p.reach env depth (.binary op left right) := by
              rw [hb]
              exact Nat.lt_of_lt_of_le hr (Nat.le_max_right ..)
            rw [limited_of_lt p env hr, limited_of_lt p env hlt]
            rfl
          · have hle : p.reach env depth (.binary op left right) ≤ p.maxDepth := by
              rw [hb]
              exact Nat.max_le.2 ⟨hl, hr⟩
            rw [limited_of_le p env hr, limited_of_le p env hle, unlimited_binary h,
              link_of_not_settles hs]

/-- The limit strikes where the reach goes beyond it, and it changes nothing elsewhere. -/
theorem evaluateAt_eq_limited (depth : Nat) (e : Expr) :
    p.evaluateAt env depth e = p.limited env depth e := by
  induction e generalizing depth with
  | literal v => rw [evaluateAt, limited, reach, unlimited]
  | var name => cases h : env name <;> rw [evaluateAt, limited, reach, unlimited, h]
  | grouping inner ih =>
      refine p.evaluateAt_eq_limited_of env fun h => ?_
      rw [evaluateAt_grouping p env h, ih]
      rfl
  | unary op operand ih =>
      refine p.evaluateAt_eq_limited_of env fun h => ?_
      rw [evaluateAt_unary p env h, ih, limited, limited, reach, unlimited]
      split <;> rfl
  | binary op left right ihl ihr =>
      refine p.evaluateAt_eq_limited_of env fun h => ?_
      simp only [evaluateAt_binary p env h, ihl, ihr, limited_binary]

theorem unlimited_of_evaluateAt {depth : Nat} {e : Expr} {v : Value}
    (h : p.evaluateAt env depth e = .ok v) : p.unlimited env e = .ok v := by
  rw [evaluateAt_eq_limited] at h
  rcases Nat.lt_or_ge p.maxDepth (p.reach env depth e) with hlt | hge
  · rw [limited_of_lt p env hlt] at h
    cases h
  · rwa [limited_of_le p env hge] at h

theorem evaluate_of_reach_le {e : Expr} (h : p.reach env 1 e ≤ p.maxDepth) :
    p.evaluate env e = p.unlimited env e := by
  rw [evaluate, evaluateAt_eq_limited, limited_of_le p env h]

theorem evaluate_eq_unlimited {e : Expr} (h : e.depth ≤ p.maxDepth) :
    p.evaluate env e = p.unlimited env e := by
  have hr := p.reach_lt env 1 e
  exact p.evaluate_of_reach_le env (by omega)

theorem unlimited_ne_depthLimit (e : Expr) (n : Nat) :
    p.unlimited env e ≠ .error (.depthLimitExceeded n) := by
  induction e with
  | literal v => exact nofun
  | var name =>
      rw [unlimited]
      cases env name <;> exact nofun
  | grouping inner ih => exact ih
  | unary op operand ih => exact bind_ne_error ih fun v => op.apply_ne_depthLimit v n
  | binary op left right ihl ihr =>
      refine bind_ne_error ihl fun v => ?_
      cases hs : p.settles op v with
      | true =>
          obtain ⟨b, hv⟩ := link_of_settles hs
          rw [hv]
          exact nofun
      | false =>
          rw [link_of_not_settles hs]
          exact bind_ne_error ihr fun r => op.apply_ne_depthLimit v r n

theorem evaluate_eq_depthLimit {e : Expr} (h : p.maxDepth < p.reach env 1 e) :
    p.evaluate env e = .error (.depthLimitExceeded p.maxDepth) := by
  rw [evaluate, evaluateAt_eq_limited, limited_of_lt p env h]

theorem evaluate_eq_depthLimit_iff (e : Expr) :
    (∃ n, p.evaluate env e = .error (.depthLimitExceeded n)) ↔ p.maxDepth < p.reach env 1 e := by
  constructor
  · rintro ⟨n, h⟩
    rcases Nat.lt_or_ge p.maxDepth (p.reach env 1 e) with hr | hr
    · exact hr
    · rw [p.evaluate_of_reach_le env hr] at h
      exact absurd h (p.unlimited_ne_depthLimit env e n)
  · exact fun h => ⟨_, p.evaluate_eq_depthLimit env h⟩

end Policy

end Reckoner
