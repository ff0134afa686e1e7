import Reckoner.Proofs.Canonical

namespace Reckoner

/-- What is on the stack and what is behind it once the last symbol of an operand has been read: the
operations down its right are still waiting. -/
def Expr.spread : Expr → List Frame → List Frame × Expr
  | binary op left right, fs => right.spread (.operation op left (left.run op.rank + 1) :: fs)
  | e, fs => (fs, e)

namespace Progress

def floor : List Frame → Nat
  | [] | .group _ :: _ => 1
  | .negation :: _ => 5
  | .operation op _ _ :: _ => op.rank + 1

def Settled : List Frame → Prop
  | .negation :: _ => False
  | _ => True

def settle (fs : List Frame) (e : Expr) : Progress :=
  match e with
  | .binary .. => after (e.spread fs).1 (e.spread fs).2
  | _ => complete fs e

theorem complete_of_settled {fs : List Frame} (h : Settled fs) (e : Expr) :
    complete fs e = after fs e := by
  cases fs with
  | nil => rfl
  | cons f fs =>
      cases f with
      | negation => exact h.elim
      | group | operation => rfl

theorem settle_of_settled (fs : List Frame) (h : Settled fs) (e : Expr) :
    settle fs e = after (e.spread fs).1 (e.spread fs).2 := by
  cases e with
  | binary => rfl
  | literal | var | grouping | unary => exact complete_of_settled h _

theorem settled_of_floor {fs : List Frame} (h : floor fs ≤ 4) : Settled fs := by
  cases fs with
  | nil => trivial
  | cons f fs =>
      cases f with
      | negation => simp [floor] at h
      | group | operation => trivial

theorem join_of_floor_le {k : Nat} {fs : List Frame} (h : floor fs ≤ k) (e : Expr) (n : Nat) :
    join k fs e n = (fs, e, n) := by
  cases fs with
  | nil => rfl
  | cons f fs =>
      cases f with
      | operation op left number => exact if_pos h
      | negation | group => rfl

/-- Joining what an operand was spread over gives it back, with the length of its chain. -/
theorem join_spread {k : Nat} (hk : k ≤ 4) {e : Expr} (hc : e.Canonical) (hr : k ≤ e.rank)
    (fs : List Frame) (n : Nat) :
    join k (e.spread fs).1 (e.spread fs).2 n =
      join k fs e (if e.rank = k then e.run k else n) := by
  induction e generalizing fs n with
  | literal | var | grouping | unary =>
      rw [if_neg (by simp only [Expr.rank]; omega)]
      rfl
  | binary op left right _ ihr =>
      obtain ⟨⟨_, hlt⟩, _, hcr⟩ := hc
      have hop : k ≤ op.rank := hr
      rw [Expr.spread, ihr hcr (by omega), if_neg (by omega), join, if_neg (by omega)]
      by_cases he : op.rank = k
      · subst he
        simp [Expr.rank, Expr.run]
      · simp [Expr.rank, he]

section

variable (limits : Limits) (fs : List Frame) {t : Token}

theorem enter_of_le {f : Frame} (h : fs.countP Frame.nests + 1 ≤ limits.maxDepth) (p : Nat) :
    enter limits p fs f = .ok (before (f :: fs)) := if_neg (by omega)

theorem stepBefore_value {v : Value} (h : t.symbol = .ofValue v) :
    stepBefore limits fs t = .ok (complete fs (.literal v)) := by
  have hk : t.kind = v.kind.tokenKind := congrArg Symbol.kind h
  have hv : t.literal = some v := congrArg Symbol.literal h
  cases v <;> simp [stepBefore, hk, hv, Value.kind, Kind.tokenKind]

theorem stepBefore_name {name : String} (h : t.symbol = .ofName name) :
    stepBefore limits fs t = .ok (complete fs (.var name)) := by
  obtain ⟨hk, hn⟩ := Token.lexeme_of_symbol h
  simp [stepBefore, hk, hn]

theorem stepBefore_minus (h : t.symbol = .minus) :
    stepBefore limits fs t = enter limits t.position fs .negation := by
  have hk : t.kind = .operator (.arithmetic .subtract) := congrArg Symbol.kind h
  simp [stepBefore, hk]

theorem stepBefore_leftParen (h : t.symbol = .leftParen) :
    stepBefore limits fs t = enter limits t.position fs (.group t.position) := by
  have hk : t.kind = .leftParen := congrArg Symbol.kind h
  simp [stepBefore, hk]

theorem stepAfter_operator {op : BinaryOperator} (h : t.symbol = .ofOperator op) {left : Expr}
    (hc : left.Canonical) (hr : op.rank ≤ left.rank) (hf : floor fs ≤ op.rank)
    (hl : left.run op.rank + 1 ≤ limits.maxChainLength) :
    stepAfter limits (left.spread fs).1 (left.spread fs).2 t =
      .ok (before (.operation op left (left.run op.rank + 1) :: fs)) := by
  have hk : t.kind = .operator op := congrArg Symbol.kind h
  have hn : (if left.rank = op.rank then left.run op.rank else 0) = left.run op.rank := by
    by_cases he : left.rank = op.rank
    · exact if_pos he
    · rw [if_neg he, Expr.run_of_rank_ne he]
  have hj := join_spread op.rank_le hc hr fs 0
  rw [hn, join_of_floor_le hf] at hj
  simp only [stepAfter, hk, hj]
  exact if_neg (by omega)

theorem stepAfter_rightParen (h : t.symbol = .rightParen) {inner : Expr} (hc : inner.Canonical)
    (p : Nat) :
    stepAfter limits (inner.spread (.group p :: fs)).1 (inner.spread (.group p :: fs)).2 t =
      .ok (complete fs (.grouping inner)) := by
  have hk : t.kind = .rightParen := congrArg Symbol.kind h
  have hj := join_spread (Nat.zero_le 4) hc (Nat.zero_le _) (.group p :: fs) 0
  simp only [stepAfter, hk, hj, join]

end

/-- Behind any forms that can take it, an operand within the limits is read as it stands. -/
theorem foldlM_yield (limits : Limits) {e : Expr} (hc : e.Canonical)
    (hl : e.chain ≤ limits.maxChainLength) (fs : List Frame) (hf : floor fs ≤ e.rank)
    (hd : fs.countP Frame.nests + e.nest ≤ limits.maxDepth) {ts : List Token}
    (hts : ts.map Token.symbol = e.yield) :
    ts.foldlM (step limits) (before fs) = .ok (settle fs e) := by
  -- Over all forms that can wait, since the parts of a tree are read behind more of them.
  induction e generalizing fs ts with
  | literal v =>
      obtain ⟨t, rfl, ht⟩ := List.map_eq_singleton_iff.1 hts
      rw [List.foldlM_cons, step, stepBefore_value limits fs ht]
      rfl
  | var name =>
      obtain ⟨t, rfl, ht⟩ := List.map_eq_singleton_iff.1 hts
      rw [List.foldlM_cons, step, stepBefore_name limits fs ht]
      rfl
  | unary op operand ih =>
      cases op with
      | negate =>
          obtain ⟨t, us, rfl, ht, hu⟩ := List.map_eq_cons_iff.1 hts
          simp only [Expr.nest] at hd
          rw [List.foldlM_cons, step, stepBefore_minus limits fs ht,
            enter_of_le limits fs (by omega)]
          have hs := ih hc.2 hl (.negation :: fs) hc.1
            (by simp only [List.countP_cons, Frame.nests, if_true]; omega) hu
          refine hs.trans ?_
          cases operand with
          | binary op' => exact absurd (Nat.le_trans hc.1 op'.rank_le) (by decide)
          | literal | var | grouping | unary => rfl
  | grouping inner ih =>
      obtain ⟨t, us, rfl, ht, hu⟩ := List.map_eq_cons_iff.1 hts
      obtain ⟨vs, ws, rfl, hv, hw⟩ := List.map_eq_append_iff.1 hu
      obtain ⟨u, rfl, hx⟩ := List.map_eq_singleton_iff.1 hw
      have hi : inner.Canonical := hc
      simp only [Expr.nest] at hd
      rw [List.foldlM_cons, step, stepBefore_leftParen limits fs ht,
        enter_of_le limits fs (by omega)]
      have hs := ih hi hl (.group t.position :: fs) inner.rank_pos
        (by simp only [List.countP_cons, Frame.nests, if_true]; omega) hv
      change (vs ++ [u]).foldlM (step limits) (before (.group t.position :: fs)) = _
      rw [List.foldlM_append, hs, settle_of_settled (.group t.position :: fs) trivial]
      change [u].foldlM (step limits) (after _ _) = _
      rw [List.foldlM_cons, step, stepAfter_rightParen limits fs hx hi]
      rfl
  | binary op left right ihl ihr =>
      obtain ⟨⟨hle, hlt⟩, hcl, hcr⟩ := hc
      obtain ⟨us, ws, rfl, hu, hw⟩ := List.map_eq_append_iff.1 hts
      obtain ⟨t, vs, rfl, ht, hv⟩ := List.map_eq_cons_iff.1 hw
      have hop : floor fs ≤ op.rank := hf
      simp only [Expr.nest] at hd
      simp only [Expr.chain] at hl
      have hs := ihl hcl (by omega) fs (by omega) (by omega) hu
      rw [List.foldlM_append, hs,
        settle_of_settled fs (settled_of_floor (Nat.le_trans hop op.rank_le))]
      change (t :: vs).foldlM (step limits) (after _ _) = _
      rw [List.foldlM_cons, step, stepAfter_operator limits fs ht hcl hle hop (by omega)]
      have hs' := ihr hcr (by omega) (.operation op left (left.run op.rank + 1) :: fs) hlt
        (by simp only [List.countP_cons, Frame.nests]; simp; omega) hv
      rwa [settle_of_settled (.operation op left (left.run op.rank + 1) :: fs) trivial] at hs'

end Progress

theorem Expr.ofTokens_of_yield {limits : Limits} {e : Expr} (hc : e.Canonical)
    (hd : e.nest ≤ limits.maxDepth) (hl : e.chain ≤ limits.maxChainLength) (stop : Nat)
    {ts : List Token} (hts : ts.map Token.symbol = e.yield) :
    Expr.ofTokens limits stop ts = .ok e := by
  have hs := Progress.foldlM_yield limits hc hl [] e.rank_pos (by simpa using hd) hts
  rw [Progress.settle_of_settled [] trivial] at hs
  have hj := Progress.join_spread (Nat.zero_le 4) hc (Nat.zero_le _) [] 0
  rw [Expr.ofTokens, hs]
  change Progress.finish stop (.after _ _) = _
  simp only [Progress.finish, hj, Progress.join]

end Reckoner
