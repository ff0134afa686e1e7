import Mathlib.Logic.Function.Basic
import Reckoner.Proofs.LineReply

namespace Reckoner

namespace Expr

def substitute (e : Expr) (name : String) (other : Expr) : Expr :=
  match e with
  | literal v => literal v
  | var x => if x = name then other else var x
  | grouping inner => grouping (substitute inner name other)
  | binary op left right => binary op (substitute left name other) (substitute right name other)
  | unary op operand => unary op (substitute operand name other)

theorem isBinary_substitute (e : Expr) (name : String) (other : Expr) :
    (e.substitute name (.grouping other)).isBinary = e.isBinary := by
  cases e with
  | var x =>
      rw [substitute]
      split <;> rfl
  | literal | grouping | binary | unary => rfl

end Expr

namespace Policy

variable {p : Policy} {env : Environment} {name : String} {e : Expr} {v : Value}

theorem leftDepth_substitute (depth : Nat) (left : Expr) :
    leftDepth depth (left.substitute name (.grouping e)) = leftDepth depth left := by
  rw [leftDepth, leftDepth, Expr.isBinary_substitute]

theorem unlimited_substitute (h : p.unlimited env e = .ok v) (f : Expr) :
    p.unlimited env (f.substitute name (.grouping e)) =
      p.unlimited (Function.update env name (some v)) f := by
  induction f with
  | literal w => rfl
  | var x =>
      by_cases hx : x = name
      · rw [Expr.substitute, if_pos hx, unlimited, unlimited, h, hx, Function.update_self]
      · rw [Expr.substitute, if_neg hx, unlimited, unlimited, Function.update_of_ne hx]
  | grouping inner ih => exact ih
  | unary op operand ih => rw [Expr.substitute, unlimited, unlimited, ih]
  | binary op left right ihl ihr => rw [Expr.substitute, unlimited, unlimited, ihl, ihr]

/-- A value lies no deeper than the tree that it comes of. -/
theorem reach_le_reach_substitute (h : p.unlimited env e = .ok v) (depth : Nat) (f : Expr) :
    p.reach (Function.update env name (some v)) depth f ≤
      p.reach env depth (f.substitute name (.grouping e)) := by
  induction f generalizing depth with
  | literal w => exact Nat.le_refl depth
  | var x => exact p.le_reach env depth _
  | grouping inner ih => exact ih (depth + 1)
  | unary op operand ih => exact ih (depth + 1)
  | binary op left right ihl ihr =>
      have hl := ihl (leftDepth depth left)
      have hr := ihr (depth + 1)
      -- Both walks see one and the same left value, and skip the same right operands.
      simp only [Expr.substitute, reach, unlimited_substitute h, leftDepth_substitute]
      split
      · split
        · exact hl
        · omega
      · exact hl

theorem unlimited_of_evaluate (h : p.evaluate env e = .ok v) : p.unlimited env e = .ok v := by
  rw [evaluate, evaluateAt_eq_limited, limited] at h
  split at h
  · cases h
  · exact h

theorem evaluate_update (h : p.evaluate env e = .ok v) {f : Expr}
    (hd : ¬ ∃ n, p.evaluate env (f.substitute name (.grouping e)) =
      .error (.depthLimitExceeded n)) :
    p.evaluate (Function.update env name (some v)) f =
      p.evaluate env (f.substitute name (.grouping e)) := by
  have hv := unlimited_of_evaluate h
  have hs := Nat.not_lt.1 (mt (p.evaluate_eq_depthLimit_iff env _).2 hd)
  have hf := Nat.le_trans (reach_le_reach_substitute hv 1 f) hs
  rw [p.evaluate_of_reach_le _ hf, p.evaluate_of_reach_le _ hs, unlimited_substitute hv]

end Policy

theorem Session.environment_assign (s : Session) (name : String) (v : Value) :
    (s.assign name v).environment = Function.update s.environment name (some v) := by
  funext x
  rw [Function.update_apply]
  exact s.assigned.find?_insert name v x

namespace Calculator

/-- A name stands for the expression that it was assigned: with the name bound to the value, an
expression comes to what it comes to with the assigned one, in parentheses, in place of the name.
That the assigned one mentions the name itself makes no difference. Only the depth limit can tell
the two apart. -/
theorem evaluate_substitute (c : Calculator) (env : Environment) (name : String) (e : Expr)
    (v : Value) (h : c.evaluate env e = .ok v) :
    (∀ f, (∃ n, c.evaluate env (f.substitute name (.grouping e)) =
        .error (.eval (.depthLimitExceeded n))) ∨
      c.evaluate (Function.update env name (some v)) f =
        c.evaluate env (f.substitute name (.grouping e))) ∧
    ∀ (s : Session) (text : String), s.calculator = c → s.environment = env →
      c.parse text = .ok (.assignment name e) →
      ∃ s', s.line text = .ok (⟨some name, v⟩, s') ∧ s'.calculator = c ∧
        s'.environment = Function.update env name (some v) := by
  constructor
  · intro f
    by_cases hd : ∃ n, c.settings.policy.evaluate env (f.substitute name (.grouping e)) =
        .error (.depthLimitExceeded n)
    · obtain ⟨n, hn⟩ := hd
      refine .inl ⟨n, ?_⟩
      rw [evaluate, hn]
      rfl
    · refine .inr ?_
      rw [evaluate, evaluate, Policy.evaluate_update (mapError_eq_ok_iff.1 h) hd]
  · rintro s text rfl rfl hp
    exact ⟨s.assign name v, Session.line_of_ok hp h, rfl, s.environment_assign name v⟩

theorem square_of_itself :
    let two : Value := .integer ⟨2, by decide⟩
    let four : Value := .integer ⟨4, by decide⟩
    let s : Session := (Session.start standard).assign "x" two
    let square : Expr := .binary (.arithmetic .multiply) (.var "x") (.var "x")
    let f : Expr := .binary (.arithmetic .subtract) (.var "x") (.unary .negate (.var "x"))
    standard.evaluate s.environment square = .ok four ∧
      standard.parse "x = x * x" = .ok (.assignment "x" square) ∧
      standard.evaluate (Function.update s.environment "x" (some four)) f =
        standard.evaluate s.environment (f.substitute "x" (.grouping square)) ∧
      ∃ s', s.line "x = x * x" = .ok (⟨some "x", four⟩, s') ∧ s'.calculator = standard ∧
        s'.environment = Function.update s.environment "x" (some four) := by
  intro two four s square f
  have hv : standard.evaluate s.environment square = .ok four := by decide +kernel
  have hp : standard.parse "x = x * x" = .ok (.assignment "x" square) := by decide +kernel
  have hf : standard.evaluate s.environment (f.substitute "x" (.grouping square)) =
      .ok (.integer ⟨8, by decide⟩) := by decide +kernel
  obtain ⟨hs, hl⟩ := standard.evaluate_substitute s.environment "x" square four hv
  refine ⟨hv, hp, ?_, hl s "x = x * x" rfl rfl hp⟩
  refine (hs f).resolve_left ?_
  rintro ⟨n, hn⟩
  cases hf.symm.trans hn

end Calculator

end Reckoner
