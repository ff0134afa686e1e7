import Reckoner.Proofs.InfixForm
import Reckoner.Proofs.Levels

namespace Reckoner

namespace Expr

theorem rank_of_not_isBinary {e : Expr} (h : e.isBinary = false) : 5 ≤ e.rank := by
  cases e with
  | binary => cases h
  | literal | var | grouping | unary => simp [rank]

/-- From one nesting to the next there are four ranks of operators to go through, and the form that
nests. What binds more tightly has fewer of them before it. -/
theorem levels_add_rank_le {e : Expr} (h : e.Canonical) :
    e.levels + min e.rank 5 ≤ 5 * e.nest + 6 := by
  induction e with
  | literal | var => exact Nat.le_refl 6
  | grouping inner ih =>
      have hi := ih h
      have hr := inner.rank_pos
      simp only [levels, rank, nest]
      omega
  | unary op operand ih =>
      have hi := ih h.2
      have hr := h.1
      simp only [levels, rank, nest]
      omega
  | binary op left right ihl ihr =>
      obtain ⟨⟨hle, hlt⟩, hcl, hcr⟩ := h
      have hl := ihl hcl
      have hr := ihr hcr
      have hop := op.rank_le
      simp only [levels, nest]
      cases hb : left.isBinary with
      | true =>
          -- A left operand that goes on with a chain takes no level of its own.
          rw [if_pos rfl, rank]
          omega
      | false =>
          have h5 := rank_of_not_isBinary hb
          rw [if_neg Bool.false_ne_true, rank]
          omega

theorem levels_le_of_canonical {e : Expr} (h : e.Canonical) : e.levels ≤ 5 * (e.nest + 1) := by
  have hl := levels_add_rank_le h
  have hr := e.rank_pos
  omega

def zero : Expr := literal (.integer ⟨0, by decide⟩)

def rungs (e : Expr) : Expr :=
  binary (.connective .or) zero (binary (.connective .and) zero
    (binary (.arithmetic .add) zero (binary (.arithmetic .multiply) zero e)))

/-- A tree with so many parentheses inside of each other, and all ranks of operators around each of
them. -/
def ladder : Nat → Expr
  | 0 => rungs zero
  | n + 1 => rungs (grouping (ladder n))

theorem canonical_binary_zero (op : BinaryOperator) {right : Expr} (h : right.Canonical)
    (hr : op.rank < right.rank) : (binary op zero right).Canonical :=
  ⟨⟨Nat.le_trans op.rank_le (by decide), hr⟩, trivial, h⟩

theorem canonical_rungs {e : Expr} (hr : 5 ≤ e.rank) (h : e.Canonical) : (rungs e).Canonical := by
  have hm := canonical_binary_zero (.arithmetic .multiply) h hr
  have ha := canonical_binary_zero (.arithmetic .add) hm (Nat.lt_succ_self 3)
  have hn := canonical_binary_zero (.connective .and) ha (Nat.lt_succ_self 2)
  exact canonical_binary_zero (.connective .or) hn (Nat.lt_succ_self 1)

theorem nest_rungs (e : Expr) : (rungs e).nest = e.nest := by
  simp [rungs, zero, nest]

theorem chain_rungs (e : Expr) : (rungs e).chain = max 1 e.chain := by
  simp only [rungs, zero, chain, run]
  omega

theorem canonical_ladder (n : Nat) : (ladder n).Canonical := by
  induction n with
  | zero => exact canonical_rungs (by decide) trivial
  | succ n ih => exact canonical_rungs (Nat.le_succ 5) ih

theorem nest_ladder (n : Nat) : (ladder n).nest = n := by
  induction n with
  | zero => rfl
  | succ n ih => rw [ladder, nest_rungs, nest, ih]

theorem chain_ladder (n : Nat) : (ladder n).chain = 1 := by
  induction n with
  | zero => rfl
  | succ n ih => rw [ladder, chain_rungs, chain, ih, Nat.max_self]

theorem stands_yield_zero : ∀ s ∈ zero.yield, s.Stands := by
  have hz : Value.Written (.integer ⟨0, by decide⟩) := Int.le_refl 0
  intro s hs
  rw [List.mem_singleton.1 hs]
  exact Symbol.stands_number hz rfl (Token.numberValue?_integer hz)

theorem stands_yield_binary (op : BinaryOperator) {left right : Expr}
    (hl : ∀ s ∈ left.yield, s.Stands) (hr : ∀ s ∈ right.yield, s.Stands) :
    ∀ s ∈ (binary op left right).yield, s.Stands := by
  intro s hs
  rcases List.mem_append.1 hs with hs | hs
  · exact hl s hs
  rcases List.mem_cons.1 hs with rfl | hs
  · exact @Symbol.stands_mark (.operator op) _ rfl
  · exact hr s hs

theorem stands_yield_grouping {inner : Expr} (h : ∀ s ∈ inner.yield, s.Stands) :
    ∀ s ∈ (grouping inner).yield, s.Stands := by
  intro s hs
  simp only [yield, List.cons_append, List.mem_cons, List.mem_append, List.not_mem_nil,
    or_false] at hs
  rcases hs with rfl | hs | rfl
  · exact @Symbol.stands_mark .leftParen _ rfl
  · exact h s hs
  · exact @Symbol.stands_mark .rightParen _ rfl

theorem stands_yield_rungs {e : Expr} (h : ∀ s ∈ e.yield, s.Stands) :
    ∀ s ∈ (rungs e).yield, s.Stands := by
  have hz := stands_yield_zero
  exact stands_yield_binary _ hz (stands_yield_binary _ hz (stands_yield_binary _ hz
    (stands_yield_binary _ hz h)))

theorem stands_yield_ladder (n : Nat) : ∀ s ∈ (ladder n).yield, s.Stands := by
  induction n with
  | zero => exact stands_yield_rungs stands_yield_zero
  | succ n ih => exact stands_yield_rungs (stands_yield_grouping ih)

end Expr

namespace Policy

variable (p : Policy) (env : Environment)

theorem reach_binary_zero (depth : Nat) (op : BinaryOperator) (right : Expr) :
    p.reach env depth (.binary op .zero right) = p.reach env (depth + 1) right := by
  have hd (v : Integer) : op.decided? (.integer v) = none := by
    rcases op with _ | (_ | _) <;> rfl
  have hs : p.settles op (.integer ⟨0, by decide⟩) = false := by simp [settles, hd]
  rw [reach_of_not_settles rfl hs]
  exact Nat.max_eq_right (p.le_reach env (depth + 1) right)

theorem reach_rungs (depth : Nat) (e : Expr) :
    p.reach env depth (.rungs e) = p.reach env (depth + 4) e := by
  rw [Expr.rungs, reach_binary_zero, reach_binary_zero, reach_binary_zero, reach_binary_zero]

theorem reach_ladder (depth n : Nat) : p.reach env depth (.ladder n) = depth + 5 * n + 4 := by
  induction n generalizing depth with
  | zero => exact p.reach_rungs env depth .zero
  | succ n ih =>
      rw [Expr.ladder, reach_rungs, reach, ih]
      omega

end Policy

namespace Statement

theorem ofText_ladder (n : Nat) :
    ofText ⟨n, 1⟩ (expression (.ladder n)).infixForm = .ok (expression (.ladder n)) := by
  have hs : ∀ s ∈ (expression (.ladder n)).yield, s.Stands := Expr.stands_yield_ladder n
  obtain ⟨ts, q, h, hy⟩ := exists_tiles_infixForm hs
  exact ofText_of_tiles h (by simp) (Expr.canonical_ladder n) (Expr.nest_ladder n).le
    (Expr.chain_ladder n).le hy

/-- What is read with so much nesting is evaluated with five times one more levels, and with fewer
than that not all of it is, even with chains of a single operator. -/
theorem evaluate_of_ofText (depth : Nat) :
    (∀ length text s, ofText ⟨depth, length⟩ text = .ok s →
      ∀ (p : Policy) env, 5 * (depth + 1) ≤ p.maxDepth →
        ∀ n, p.evaluate env s.expr ≠ .error (.depthLimitExceeded n)) ∧
    ∃ text s, ofText ⟨depth, 1⟩ text = .ok s ∧
      ∀ (p : Policy) env, p.maxDepth < 5 * (depth + 1) →
        p.evaluate env s.expr = .error (.depthLimitExceeded p.maxDepth) := by
  constructor
  · intro length text s h p env hp n hn
    obtain ⟨_, _, _, _, _, ⟨hc, _⟩, hd, _⟩ := exists_tiles_of_ofText h
    have hl := Expr.levels_le_of_canonical hc
    have hr := p.reach_lt_levels env 1 s.expr
    have hlt := (p.evaluate_eq_depthLimit_iff env s.expr).1 ⟨n, hn⟩
    simp only at hd
    omega
  · refine ⟨_, _, ofText_ladder depth, fun p env hp => p.evaluate_eq_depthLimit env ?_⟩
    rw [expr, p.reach_ladder]
    omega

theorem ladder_of_one :
    let text := "0||0&&0+0*(0||0&&0+0*0)"
    let noNames : Environment := fun _ => none
    ofText ⟨1, 1⟩ text = .ok (expression (.ladder 1)) ∧
      (∀ n, Policy.evaluate ⟨false, 10⟩ noNames (.ladder 1) ≠ .error (.depthLimitExceeded n)) ∧
      ∃ text s, ofText ⟨1, 1⟩ text = .ok s ∧
        Policy.evaluate ⟨false, 9⟩ noNames s.expr = .error (.depthLimitExceeded 9) := by
  intro text noNames
  have h : ofText ⟨1, 1⟩ text = .ok (expression (.ladder 1)) := by decide +kernel
  obtain ⟨within, text', s, hs, beyond⟩ := evaluate_of_ofText 1
  exact ⟨h, within 1 text _ h ⟨false, 10⟩ noNames (by decide),
    text', s, hs, beyond ⟨false, 9⟩ noNames (by decide)⟩

end Statement

end Reckoner
