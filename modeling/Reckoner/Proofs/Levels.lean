import Reckoner.Proofs.Reach

namespace Reckoner

namespace Expr

def chainOperands (e : Expr) : List Expr := (e.spine []).1 :: (e.spine []).2.map Prod.snd

theorem chainOperands_binary (op : BinaryOperator) (left right : Expr) :
    (binary op left right).chainOperands = left.chainOperands ++ [right] := by
  have hs : left.spine [(op, right)] = ((left.spine []).1, (left.spine []).2 ++ [(op, right)]) :=
    left.spine_append [] [(op, right)]
  simp [chainOperands, spine, hs]

/-- The levels that the evaluation of all of a tree takes. A chain takes one more than its deepest
operand, however long it is. -/
def levels : Expr → Nat
  | literal _ | var _ => 1
  | grouping inner => inner.levels + 1
  | unary _ operand => operand.levels + 1
  | binary _ left right =>
      max (if left.isBinary then left.levels else left.levels + 1) (right.levels + 1)

theorem levels_binary (op : BinaryOperator) (left right : Expr) :
    (binary op left right).levels =
      ((binary op left right).chainOperands.map levels).foldl max 0 + 1 := by
  rw [chainOperands_binary, List.map_append, List.foldl_append]
  induction left generalizing op right with
  | binary op' l r ihl ihr =>
      rw [levels, isBinary, if_pos rfl, ihl op' r, chainOperands_binary, List.map_append,
        List.foldl_append]
      exact Nat.succ_max_succ ..
  | literal | var | grouping | unary =>
      simp only [levels, isBinary, chainOperands, spine, Bool.false_eq_true, if_false,
        List.map_cons, List.map_nil, List.foldl_cons, List.foldl_nil]
      omega

theorem levels_le_depth (e : Expr) : e.levels ≤ e.depth := by
  induction e with
  | literal | var => exact Nat.le_refl 1
  | grouping inner ih => exact Nat.succ_le_succ ih
  | unary op operand ih => exact Nat.succ_le_succ ih
  | binary op left right ihl ihr =>
      rw [levels, depth]
      split <;> omega

end Expr

namespace Policy

variable {p q : Policy} {env : Environment}

theorem leftDepth_add_levels (depth : Nat) (left : Expr) :
    leftDepth depth left + left.levels =
      depth + if left.isBinary then left.levels else left.levels + 1 := by
  rw [leftDepth]
  split <;> omega

theorem reach_lt_levels (p : Policy) (env : Environment) (depth : Nat) (e : Expr) :
    p.reach env depth e < depth + e.levels := by
  induction e generalizing depth with
  | literal | var => exact Nat.lt_succ_self depth
  | grouping inner ih =>
      have h := ih (depth + 1)
      rw [reach, Expr.levels]
      omega
  | unary op operand ih =>
      have h := ih (depth + 1)
      rw [reach, Expr.levels]
      omega
  | binary op left right ihl ihr =>
      have hl := ihl (leftDepth depth left)
      have hr := ihr (depth + 1)
      rw [leftDepth_add_levels] at hl
      simp only [reach, Expr.levels]
      split
      · split <;> omega
      · omega

theorem reach_of_unlimited (hp : p.shortCircuit = false) {e : Expr} {v : Value}
    (h : p.unlimited env e = .ok v) (depth : Nat) :
    p.reach env depth e + 1 = depth + e.levels := by
  induction e generalizing v depth with
  | literal | var => rfl
  | grouping inner ih =>
      have hi := ih h (depth + 1)
      rw [reach, Expr.levels]
      omega
  | unary op operand ih =>
      obtain ⟨w, hw, _⟩ := exists_of_bind_eq_ok h
      have hi := ih hw (depth + 1)
      rw [reach, Expr.levels]
      omega
  | binary op left right ihl ihr =>
      obtain ⟨l, hl, hlink⟩ := exists_of_bind_eq_ok h
      have hs : p.settles op l = false := by simp [settles, hp]
      rw [link_of_not_settles hs] at hlink
      obtain ⟨r, hr, _⟩ := exists_of_bind_eq_ok hlink
      have hil := ihl hl (leftDepth depth left)
      have hir := ihr hr (depth + 1)
      rw [leftDepth_add_levels] at hil
      rw [reach_of_not_settles hl hs, Expr.levels]
      omega

section

variable (h : p.shortCircuit = q.shortCircuit) (env)

include h

theorem unlimited_congr (e : Expr) : p.unlimited env e = q.unlimited env e := by
  induction e with
  | literal v => rfl
  | var name => rfl
  | grouping inner ih => exact ih
  | unary op operand ih => rw [unlimited, unlimited, ih]
  | binary op left right ihl ihr =>
      rw [unlimited, unlimited, ihl, ihr]
      simp only [link, h]

theorem reach_congr (depth : Nat) (e : Expr) : p.reach env depth e = q.reach env depth e := by
  induction e generalizing depth with
  | literal | var => rfl
  | grouping inner ih => exact ih (depth + 1)
  | unary op operand ih => exact ih (depth + 1)
  | binary op left right ihl ihr =>
      have hs (v : Value) : p.settles op v = q.settles op v := by rw [settles, settles, h]
      simp only [reach, ihl, ihr, unlimited_congr env h, hs]

end

/-- The depth limit is on the levels of a tree, and not on the length of its chains: where it allows
for them it does not strike, and where it does not, nothing is evaluated to the end. To raise the
limit changes nothing but its own failures. -/
theorem evaluate_within_levels (p : Policy) (env : Environment) (e : Expr) :
    (e.isBinary = true → e.levels = (e.chainOperands.map Expr.levels).foldl max 0 + 1) ∧
      e.levels ≤ e.depth ∧
      (e.levels ≤ p.maxDepth → ∀ n, p.evaluate env e ≠ .error (.depthLimitExceeded n)) ∧
      (p.maxDepth < e.levels → p.shortCircuit = false → ∀ v, p.evaluate env e ≠ .ok v) ∧
      ∀ n, p.maxDepth ≤ n → Policy.evaluate ⟨p.shortCircuit, n⟩ env e = p.evaluate env e ∨
        p.evaluate env e = .error (.depthLimitExceeded p.maxDepth) := by
  refine ⟨?_, e.levels_le_depth, ?_, ?_, ?_⟩
  · intro hb
    cases e with
    | binary op left right => exact Expr.levels_binary op left right
    | literal | var | grouping | unary => cases hb
  · intro hl n hn
    have hr := p.reach_lt_levels env 1 e
    have hlt := (p.evaluate_eq_depthLimit_iff env e).1 ⟨n, hn⟩
    omega
  · intro hl hp v hv
    rcases Nat.lt_or_ge p.maxDepth (p.reach env 1 e) with hlt | hle
    · rw [p.evaluate_eq_depthLimit env hlt] at hv
      cases hv
    · rw [p.evaluate_of_reach_le env hle] at hv
      have hr := reach_of_unlimited hp hv 1
      omega
  · intro n hn
    let q : Policy := ⟨p.shortCircuit, n⟩
    have hq : q.shortCircuit = p.shortCircuit := rfl
    rcases Nat.lt_or_ge p.maxDepth (p.reach env 1 e) with hlt | hle
    · exact .inr (p.evaluate_eq_depthLimit env hlt)
    · have hle' : q.reach env 1 e ≤ q.maxDepth := by
        rw [reach_congr env hq]
        exact Nat.le_trans hle hn
      refine .inl ?_
      rw [q.evaluate_of_reach_le env hle', p.evaluate_of_reach_le env hle, unlimited_congr env hq]

theorem levels_of_group_in_chain :
    let n : Expr := .literal (.integer ⟨1, by decide⟩)
    let group : Expr := .grouping (.binary (.arithmetic .subtract) n n)
    let e : Expr := .binary (.arithmetic .subtract) (.binary (.arithmetic .add) n
      (.binary (.arithmetic .multiply) n group)) n
    let noNames : Environment := fun _ => none
    e.levels = 5 ∧ e.depth = 6 ∧
      e.levels = ([n, .binary (.arithmetic .multiply) n group, n].map Expr.levels).foldl max 0 + 1 ∧
      (∀ k, Policy.evaluate ⟨false, 5⟩ noNames e ≠ .error (.depthLimitExceeded k)) ∧
      (∀ v, Policy.evaluate ⟨false, 4⟩ noNames e ≠ .ok v) ∧
      (Policy.evaluate ⟨false, 9⟩ noNames e = Policy.evaluate ⟨false, 5⟩ noNames e ∨
        Policy.evaluate ⟨false, 5⟩ noNames e = .error (.depthLimitExceeded 5)) := by
  intro n group e noNames
  obtain ⟨hc, _, h5, _, h9⟩ := evaluate_within_levels ⟨false, 5⟩ noNames e
  obtain ⟨_, _, _, h4, _⟩ := evaluate_within_levels ⟨false, 4⟩ noNames e
  exact ⟨rfl, rfl, hc rfl, h5 (by decide), h4 (by decide) rfl, h9 9 (by decide)⟩

end Policy

end Reckoner
