import Reckoner.Proofs.ExactInteger
import Reckoner.Proofs.Levels
import Reckoner.Proofs.ShortCircuit

namespace Reckoner.Policy

/-- What is wrong at the root of a tree whose operands have values: a name stands for nothing, or
the operator does not take such operands, or has no result of them. -/
inductive Fault (p : Policy) (env : Environment) : Expr → EvalError → Prop
  | unbound {name : String} (h : env name = none) : Fault p env (.var name) (.unboundVariable name)
  | unary {op : UnaryOperator} {operand : Expr} {v : Value} {err : EvalError}
      (hv : p.evaluate env operand = .ok v) (h : op.apply v = .error err) :
      Fault p env (.unary op operand) err
  | binary {op : BinaryOperator} {left right : Expr} {v w : Value} {err : EvalError}
      (hl : p.evaluate env left = .ok v) (hr : p.evaluate env right = .ok w)
      (h : op.apply v w = .error err) : Fault p env (.binary op left right) err

section

variable {p : Policy} {env : Environment} {e s : Expr} {v w : Value} {depth : Nat}

theorem evaluateAt_of_le {depth' : Nat} (hle : depth ≤ depth')
    (h : p.evaluateAt env depth' e = .ok v) : p.evaluateAt env depth e = .ok v := by
  rw [evaluateAt_eq_limited] at h ⊢
  rcases Nat.lt_or_ge p.maxDepth (p.reach env depth' e) with hlt | hge
  · rw [limited_of_lt p env hlt] at h
    cases h
  · rw [limited_of_le p env hge] at h
    rw [limited_of_le p env (Nat.le_trans (p.reach_mono env hle e) hge)]
    exact h

theorem evaluate_of_levels_le (env : Environment) (h : e.levels ≤ p.maxDepth) :
    p.evaluate env e = p.unlimited env e := by
  have hr := p.reach_lt_levels env 1 e
  exact p.evaluate_of_reach_le env (by omega)

variable (hp : p.shortCircuit = false)

include hp

theorem link_of_not_shortCircuit (op : BinaryOperator) (v : Value)
    (f : Unit → Except EvalError Value) : p.link op v f = f () >>= op.apply v :=
  link_of_not_settles (by rw [settles, hp, Bool.false_and]) f

theorem exists_operands {op : BinaryOperator} {left right : Expr}
    (h : p.evaluateAt env depth (.binary op left right) = .ok v) :
    ∃ l r, p.evaluateAt env depth left = .ok l ∧ p.evaluateAt env depth right = .ok r ∧
      op.apply l r = .ok v := by
  rw [evaluateAt_binary p env (not_lt_of_evaluateAt h)] at h
  obtain ⟨l, hl, hlink⟩ := exists_of_bind_eq_ok h
  rw [link_of_not_shortCircuit hp] at hlink
  obtain ⟨r, hr, hv⟩ := exists_of_bind_eq_ok hlink
  exact ⟨l, r, evaluateAt_of_le (le_leftDepth depth left) hl,
    evaluateAt_of_le (Nat.le_succ depth) hr, hv⟩

omit hp in
theorem exists_operand {op : UnaryOperator} {operand : Expr}
    (h : p.evaluateAt env depth (.unary op operand) = .ok v) :
    ∃ w, p.evaluateAt env depth operand = .ok w ∧ op.apply w = .ok v := by
  rw [evaluateAt_unary p env (not_lt_of_evaluateAt h)] at h
  obtain ⟨w, hw, hv⟩ := exists_of_bind_eq_ok h
  exact ⟨w, evaluateAt_of_le (Nat.le_succ depth) hw, hv⟩

theorem exists_of_subtree (h : p.evaluateAt env depth e = .ok v) (hs : s ∈ e.subtrees) :
    ∃ w, p.evaluateAt env depth s = .ok w := by
  induction e generalizing v with
  | literal | var =>
      rw [Expr.subtrees, List.mem_singleton] at hs
      exact hs ▸ ⟨v, h⟩
  | grouping inner ih =>
      rw [Expr.subtrees, List.mem_append, List.mem_singleton] at hs
      rcases hs with hs | rfl
      · rw [evaluateAt_grouping p env (not_lt_of_evaluateAt h)] at h
        exact ih (evaluateAt_of_le (Nat.le_succ depth) h) hs
      · exact ⟨v, h⟩
  | unary op operand ih =>
      rw [Expr.subtrees, List.mem_append, List.mem_singleton] at hs
      rcases hs with hs | rfl
      · obtain ⟨w, hw, _⟩ := exists_operand h
        exact ih hw hs
      · exact ⟨v, h⟩
  | binary op left right ihl ihr =>
      rw [Expr.subtrees, List.mem_append, List.mem_append, List.mem_singleton] at hs
      obtain ⟨l, r, hl, hr, _⟩ := exists_operands hp h
      rcases hs with (hs | hs) | rfl
      · exact ihl hl hs
      · exact ihr hr hs
      · exact ⟨v, h⟩

theorem not_fault_of_evaluate (h : p.evaluate env e = .ok v) (err : EvalError) :
    ¬ p.Fault env e err := by
  intro hf
  cases hf with
  | unbound hn =>
      rw [evaluate, evaluateAt_eq_postOrder, postOrder, hn] at h
      split at h <;> cases h
  | unary hv ho =>
      obtain ⟨w, hw, hv'⟩ := exists_operand h
      cases hv.symm.trans hw
      cases ho.symm.trans hv'
  | binary hl hr ho =>
      obtain ⟨l, r, hl', hr', hv⟩ := exists_operands hp h
      cases hl.symm.trans hl'
      cases hr.symm.trans hr'
      cases ho.symm.trans hv

theorem exists_of_not_fault (hl : e.levels ≤ p.maxDepth)
    (hf : ∀ s ∈ e.subtrees, ∀ err, ¬ p.Fault env s err) : ∃ v, p.evaluate env e = .ok v := by
  have he := evaluate_of_levels_le env hl
  induction e with
  | literal v => exact ⟨v, he⟩
  | var name =>
      cases hn : env name with
      | some v =>
          refine ⟨v, ?_⟩
          rw [he, unlimited, hn]
      | none => exact absurd (.unbound hn) (hf _ (List.mem_singleton_self _) _)
  | grouping inner ih =>
      have hi : inner.levels ≤ p.maxDepth := Nat.le_of_succ_le hl
      have hi' := evaluate_of_levels_le env hi
      rw [Expr.subtrees, List.forall_mem_append] at hf
      obtain ⟨v, hv⟩ := ih hi hf.1 hi'
      refine ⟨v, ?_⟩
      rw [he, unlimited, ← hi', hv]
  | unary op operand ih =>
      have hi : operand.levels ≤ p.maxDepth := Nat.le_of_succ_le hl
      have hi' := evaluate_of_levels_le env hi
      rw [Expr.subtrees, List.forall_mem_append, List.forall_mem_singleton] at hf
      obtain ⟨v, hv⟩ := ih hi hf.1 hi'
      cases ho : op.apply v with
      | ok w =>
          refine ⟨w, ?_⟩
          rw [he, unlimited, ← hi', hv]
          exact ho
      | error err => exact absurd (.unary hv ho) (hf.2 err)
  | binary op left right ihl ihr =>
      have hil : left.levels ≤ p.maxDepth := by
        rw [Expr.levels] at hl
        split at hl <;> omega
      have hir : right.levels ≤ p.maxDepth := by
        rw [Expr.levels] at hl
        omega
      have hil' := evaluate_of_levels_le env hil
      have hir' := evaluate_of_levels_le env hir
      rw [Expr.subtrees, List.forall_mem_append, List.forall_mem_append,
        List.forall_mem_singleton] at hf
      obtain ⟨v, hv⟩ := ihl hil hf.1.1 hil'
      obtain ⟨w, hw⟩ := ihr hir hf.1.2 hir'
      cases ho : op.apply v w with
      | ok x =>
          refine ⟨x, ?_⟩
          rw [he, unlimited_binary (hil' ▸ hv), link_of_not_shortCircuit hp, ← hir', hw]
          exact ho
      | error err => exact absurd (.binary hv hw ho) (hf.2 err)

theorem levels_le_of_evaluate (h : p.evaluate env e = .ok v) : e.levels ≤ p.maxDepth := by
  rcases Nat.lt_or_ge p.maxDepth (p.reach env 1 e) with hlt | hge
  · rw [p.evaluate_eq_depthLimit env hlt] at h
    cases h
  · rw [p.evaluate_of_reach_le env hge] at h
    have hr := reach_of_unlimited hp h 1
    omega

end

/-- Without shortcuts no error is lost: where the whole has a value, each part has one by itself,
and each name in it stands for one. What is wrong anywhere in a tree is an error of the whole, and
but for the depth limit nothing else is. -/
theorem evaluate_eager (n : Nat) (env : Environment) (e : Expr) :
    let p : Policy := ⟨false, n⟩
    (∀ v, p.evaluate env e = .ok v →
      (∀ s ∈ e.subtrees, ∃ w, p.evaluate env s = .ok w) ∧
        ∀ name, .var name ∈ e.subtrees → ∃ w, env name = some w) ∧
    ((∃ err, p.evaluate env e = .error err) ↔
      n < e.levels ∨ ∃ s ∈ e.subtrees, ∃ err, p.Fault env s err) := by
  intro p
  have hp : p.shortCircuit = false := rfl
  have hparts : ∀ v, p.evaluate env e = .ok v → ∀ s ∈ e.subtrees, ∃ w, p.evaluate env s = .ok w :=
    fun v h s hs => exists_of_subtree hp h hs
  refine ⟨fun v h => ⟨hparts v h, fun name hn => ?_⟩, ?_, ?_⟩
  · obtain ⟨w, hw⟩ := hparts v h _ hn
    cases hb : env name with
    | some b => exact ⟨b, rfl⟩
    | none => exact absurd (.unbound hb) (not_fault_of_evaluate hp hw _)
  · rintro ⟨err, herr⟩
    rcases Nat.lt_or_ge n e.levels with hl | hl
    · exact .inl hl
    by_cases hf : ∃ s ∈ e.subtrees, ∃ err, p.Fault env s err
    · exact .inr hf
    · have hno : ∀ s ∈ e.subtrees, ∀ err, ¬ p.Fault env s err :=
        fun s hs err h => hf ⟨s, hs, err, h⟩
      obtain ⟨v, hv⟩ := exists_of_not_fault hp hl hno
      cases hv.symm.trans herr
  · intro h
    cases he : p.evaluate env e with
    | error err => exact ⟨err, rfl⟩
    | ok v =>
        rcases h with hl | ⟨s, hs, err, hf⟩
        · exact absurd (levels_le_of_evaluate hp he) (Nat.not_le.2 hl)
        · obtain ⟨w, hw⟩ := hparts v he s hs
          exact absurd hf (not_fault_of_evaluate hp hw err)

theorem zero_divisor_behind_false :
    let env : Environment := fun name => if name = "x" then some (.boolean true) else none
    let no : Expr := .literal (.boolean false)
    let sound : Expr := .binary (.connective .or) (.var "x") no
    let quotient : Expr := .binary (.arithmetic .divide) (.literal (.integer ⟨1, by decide⟩))
      (.literal (.integer ⟨0, by decide⟩))
    let e (right : Expr) : Expr := .binary (.connective .and) no (.grouping right)
    let p : Policy := ⟨false, 9⟩
    (p.evaluate env (e sound) = .ok (.boolean false) ∧
      (∃ w, p.evaluate env sound = .ok w) ∧ ∃ w, env "x" = some w) ∧
    p.Fault env quotient .divisionByZero ∧ ∃ err, p.evaluate env (e quotient) = .error err := by
  intro env no sound quotient e p
  have hv : p.evaluate env (e sound) = .ok (.boolean false) := by
    rw [evaluate, evaluateAt_eq_postOrder]
    rfl
  have hf : p.Fault env quotient .divisionByZero := by
    refine .binary (v := .integer ⟨1, by decide⟩) (w := .integer ⟨0, by decide⟩) ?_ ?_ rfl <;>
      rw [evaluate, evaluateAt_eq_postOrder] <;> rfl
  obtain ⟨hs, hn⟩ := (evaluate_eager 9 env (e sound)).1 _ hv
  exact ⟨⟨hv, hs sound (by simp [e, sound, Expr.subtrees]),
    hn "x" (by simp [e, sound, Expr.subtrees])⟩, hf,
    (evaluate_eager 9 env (e quotient)).2.2
      (.inr ⟨quotient, by simp [e, quotient, Expr.subtrees], _, hf⟩)⟩

end Reckoner.Policy
