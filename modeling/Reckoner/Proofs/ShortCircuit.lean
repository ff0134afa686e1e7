import Reckoner.Proofs.StaticKind

namespace Reckoner

def Expr.connects : Expr → Bool
  | literal _ | var _ => false
  | grouping inner => inner.connects
  | unary _ operand => operand.connects
  | binary op left right => op.isLogical || left.connects || right.connects

theorem BinaryOperator.eq_of_decided {op : BinaryOperator} {l r v : Value} {b : Bool}
    (h : op.decided? l = some b) (ha : op.apply l r = .ok v) : v = .boolean b := by
  cases op with
  | arithmetic op => cases h
  | connective op =>
      cases l with
      | integer | decimal | string => cases op <;> cases h
      | boolean a =>
          cases r with
          | integer | decimal | string => cases ha
          | boolean a' => cases op <;> cases a <;> cases h <;> cases ha <;> rfl

namespace Policy

variable {n : Nat} {env : Environment}

theorem link_of_eager {op : BinaryOperator} {l v : Value} {f f' : Unit → Except EvalError Value}
    (hf : ∀ r, f () = .ok r → f' () = .ok r) (h : link ⟨false, n⟩ op l f = .ok v) :
    link ⟨true, n⟩ op l f' = .ok v := by
  obtain ⟨r, hr, ha⟩ : ∃ r, f () = .ok r ∧ op.apply l r = .ok v := exists_of_bind_eq_ok h
  cases hd : op.decided? l with
  | some b =>
      rw [BinaryOperator.eq_of_decided hd ha]
      simp only [link, hd, if_true]
  | none =>
      have hs : settles ⟨true, n⟩ op l = false := by simp [settles, hd]
      rw [link_of_not_settles hs, hf r hr]
      exact ha

theorem not_lt_of_evaluateAt {p : Policy} {depth : Nat} {e : Expr} {v : Value}
    (h : p.evaluateAt env depth e = .ok v) : ¬ p.maxDepth < depth := by
  intro hd
  rw [evaluateAt_of_lt p env hd] at h
  cases h

theorem evaluateAt_of_eager {depth : Nat} {e : Expr} {v : Value}
    (h : evaluateAt ⟨false, n⟩ env depth e = .ok v) :
    evaluateAt ⟨true, n⟩ env depth e = .ok v := by
  induction e generalizing depth v with
  | literal w => rwa [evaluateAt] at h ⊢
  | var name => rwa [evaluateAt] at h ⊢
  | grouping inner ih =>
      have hd := not_lt_of_evaluateAt h
      rw [evaluateAt_grouping ⟨false, n⟩ env hd] at h
      rw [evaluateAt_grouping ⟨true, n⟩ env hd]
      exact ih h
  | unary op operand ih =>
      have hd := not_lt_of_evaluateAt h
      rw [evaluateAt_unary ⟨false, n⟩ env hd] at h
      obtain ⟨w, hw, hop⟩ := exists_of_bind_eq_ok h
      rw [evaluateAt_unary ⟨true, n⟩ env hd, ih hw]
      exact hop
  | binary op left right ihl ihr =>
      have hd := not_lt_of_evaluateAt h
      rw [evaluateAt_binary ⟨false, n⟩ env hd] at h
      obtain ⟨l, hl, hlink⟩ := exists_of_bind_eq_ok h
      rw [evaluateAt_binary ⟨true, n⟩ env hd, ihl hl]
      change link ⟨true, n⟩ op l (fun _ => evaluateAt ⟨true, n⟩ env (depth + 1) right) = .ok v
      exact link_of_eager (fun r hr => ihr hr) hlink

theorem postOrder_eq_eager {e : Expr} (he : e.connects = false) (depth : Nat) :
    postOrder ⟨true, n⟩ env depth e = postOrder ⟨false, n⟩ env depth e := by
  induction e generalizing depth with
  | literal v => rw [postOrder, postOrder]
  | var name => rw [postOrder, postOrder]
  | grouping inner ih => rw [postOrder, postOrder, ih he]
  | unary op operand ih => rw [postOrder, postOrder, ih he]
  | binary op left right ihl ihr =>
      simp only [Expr.connects, Bool.or_eq_false_iff] at he
      obtain ⟨⟨ho, hl⟩, hr⟩ := he
      cases op with
      | arithmetic op => rw [postOrder, postOrder, ihl hl, ihr hr]
      | connective op => cases ho

/-- Shortcuts change no value that there is without them. Where they change anything, then, there is
an error without them; and where there are no connectives, they change nothing at all. -/
theorem evaluate_shortCircuit (n : Nat) (env : Environment) (e : Expr) :
    (∀ v, evaluate ⟨false, n⟩ env e = .ok v → evaluate ⟨true, n⟩ env e = .ok v) ∧
    (evaluate ⟨true, n⟩ env e ≠ evaluate ⟨false, n⟩ env e →
      ∃ err, evaluate ⟨false, n⟩ env e = .error err) ∧
    (e.connects = false → evaluate ⟨true, n⟩ env e = evaluate ⟨false, n⟩ env e) := by
  have hv : ∀ v, evaluate ⟨false, n⟩ env e = .ok v → evaluate ⟨true, n⟩ env e = .ok v :=
    fun v => evaluateAt_of_eager
  refine ⟨hv, ?_, ?_⟩
  · intro hne
    cases h : evaluate ⟨false, n⟩ env e with
    | ok v => exact absurd ((hv v h).trans h.symm) hne
    | error err => exact ⟨err, rfl⟩
  · intro he
    rw [evaluate, evaluate, evaluateAt_eq_postOrder, evaluateAt_eq_postOrder]
    exact postOrder_eq_eager he 1

theorem alternative_past_division :
    let env : Environment := fun _ => none
    let yes : Expr := .literal (.boolean true)
    let no : Expr := .literal (.boolean false)
    let quotient : Expr := .binary (.arithmetic .divide) (.literal (.integer ⟨1, by decide⟩))
      (.literal (.integer ⟨0, by decide⟩))
    let alternative : Expr := .binary (.connective .or) yes quotient
    let conjunction : Expr := .binary (.connective .and) no yes
    evaluate ⟨false, 2⟩ env conjunction = .ok (.boolean false) ∧
      evaluate ⟨true, 2⟩ env conjunction = .ok (.boolean false) ∧
      evaluate ⟨true, 3⟩ env alternative = .ok (.boolean true) ∧
      evaluate ⟨true, 3⟩ env alternative ≠ evaluate ⟨false, 3⟩ env alternative ∧
      (∃ err, evaluate ⟨false, 3⟩ env alternative = .error err) ∧
      quotient.connects = false ∧
      evaluate ⟨true, 2⟩ env quotient = evaluate ⟨false, 2⟩ env quotient := by
  intro env yes no quotient alternative conjunction
  have hc : evaluate ⟨false, 2⟩ env conjunction = .ok (.boolean false) := by
    rw [evaluate, evaluateAt_eq_postOrder]
    rfl
  have ha : evaluate ⟨true, 3⟩ env alternative = .ok (.boolean true) := by
    rw [evaluate, evaluateAt_eq_postOrder]
    rfl
  have hn : evaluate ⟨true, 3⟩ env alternative ≠ evaluate ⟨false, 3⟩ env alternative := by
    have hf : evaluate ⟨false, 3⟩ env alternative = .error .divisionByZero := by
      rw [evaluate, evaluateAt_eq_postOrder]
      rfl
    rw [ha, hf]
    intro h
    cases h
  exact ⟨hc, (evaluate_shortCircuit 2 env conjunction).1 _ hc, ha, hn,
    (evaluate_shortCircuit 3 env alternative).2.1 hn, rfl,
    (evaluate_shortCircuit 2 env quotient).2.2 rfl⟩

end Policy

end Reckoner
