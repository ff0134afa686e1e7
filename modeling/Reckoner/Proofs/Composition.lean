import Reckoner.Proofs.DepthLimit
import Reckoner.Proofs.PrefixForm

namespace Reckoner

namespace Token

theorem exists_tiles_grouping {text gap : List Char} {ts : List Token} {q : Nat}
    (h : Tiles 0 text ts q gap) (hg : ∀ x ∈ gap, Text.isBlank x = true) (p : Nat)
    (rest : List Char) : ∃ us q', Tiles p ('(' :: (text ++ ')' :: rest)) us q' rest ∧
      us.map Token.symbol = .leftParen :: ts.map Token.symbol ++ [.rightParen] := by
  let o : Token := ⟨.leftParen, "(", p, none⟩
  let x : Token := ⟨.rightParen, ")", q + o.stop + Text.width gap, none⟩
  have hf : o.Formed ∧ x.Formed := ⟨.mark rfl _, .mark rfl _⟩
  have hx : Tiles (q + o.stop) (gap ++ (x.lexeme.toList ++ rest)) [x] x.stop rest :=
    .cons hg hf.2 rfl (fun _ _ => rfl) (.nil ..)
  rw [show x.lexeme.toList ++ rest = ')' :: rest by simp [x]] at hx
  have hc : Expr.Closes (')' :: rest) := by
    rintro _ ⟨⟩
    exact .inr rfl
  -- What is inside moves on by the one parenthesis, and ends at the other.
  have hin := ((h.shift o.stop).append fun y hy k => hc.continues k y hy).trans hx
  rw [Nat.zero_add] at hin
  have ho : '(' :: (text ++ ')' :: rest) = o.lexeme.toList ++ (text ++ ')' :: rest) := by simp [o]
  refine ⟨_, _, .cons_adjacent hf.1 ho (fun _ _ => rfl) hin, ?_⟩
  rw [List.map_cons, List.map_append, List.map_map]
  rfl

end Token

theorem Statement.ofText_binary_grouping {limits : Limits} {a b : String} {ea eb : Expr}
    (op : BinaryOperator) (ha : ofText limits a = .ok (.expression ea))
    (hb : ofText limits b = .ok (.expression eb)) (hna : ea.nest < limits.maxDepth)
    (hnb : eb.nest < limits.maxDepth) (hl : 0 < limits.maxChainLength) :
    ofText limits ("(" ++ a ++ ")" ++ op.symbol ++ "(" ++ b ++ ")") =
      .ok (.expression (.binary op (.grouping ea) (.grouping eb))) := by
  obtain ⟨ta, qa, ga, hta, hga, ⟨hca, hya⟩, _, hla⟩ := exists_tiles_of_ofText ha
  obtain ⟨tb, qb, gb, htb, hgb, ⟨hcb, hyb⟩, _, hlb⟩ := exists_tiles_of_ofText hb
  simp only [expr, yield] at hca hya hla hcb hyb hlb
  obtain ⟨ua, pa, hua, hsa⟩ := Token.exists_tiles_grouping hta hga 0
    (op.symbol.toList ++ '(' :: (b.toList ++ [')']))
  let o : Token := ⟨.operator op, op.symbol, pa, none⟩
  obtain ⟨ub, pb, hub, hsb⟩ := Token.exists_tiles_grouping htb hgb o.stop []
  have ho : Token.Tiles pa (op.symbol.toList ++ '(' :: (b.toList ++ [')'])) (o :: ub) pb [] :=
    .cons_adjacent (.mark rfl pa) rfl (fun _ _ => rfl) hub
  have ht := hua.trans ho
  rw [show '(' :: (a.toList ++ ')' :: (op.symbol.toList ++ '(' :: (b.toList ++ [')']))) =
    ("(" ++ a ++ ")" ++ op.symbol ++ "(" ++ b ++ ")").toList by simp] at ht
  refine ofText_of_tiles ht (by simp) ?canonical ?nest ?chain ?symbols
  case canonical =>
    have hr : op.rank < 6 := Nat.lt_of_le_of_lt op.rank_le (by decide)
    exact ⟨⟨Nat.le_of_lt hr, hr⟩, hca, hcb⟩
  case nest => exact Nat.max_le.2 ⟨hna, hnb⟩
  case chain => exact Nat.max_le.2 ⟨hl, Nat.max_le.2 ⟨hla, hlb⟩⟩
  case symbols =>
    rw [List.map_append, List.map_cons, hsa, hsb, ← hya, ← hyb]
    rfl

theorem Policy.evaluate_binary_grouping (p : Policy) (env : Environment)
    (hs : p.shortCircuit = false) (op : BinaryOperator) (left right : Expr)
    (h : p.reach env 1 (.binary op (.grouping left) (.grouping right)) ≤ p.maxDepth) :
    p.evaluate env (.binary op (.grouping left) (.grouping right)) =
      p.evaluate env left >>= fun l => p.evaluate env right >>= fun r => op.apply l r := by
  have hl : p.reach env 1 left ≤ p.maxDepth := by
    have hm : p.reach env 1 left ≤ p.reach env 3 left := p.reach_mono env (by decide) left
    have hle := p.reach_left_le env 1 op (.grouping left) (.grouping right)
    exact Nat.le_trans hm (Nat.le_trans hle h)
  rw [p.evaluate_of_reach_le env h, p.evaluate_of_reach_le env hl]
  -- The reach takes in the right operand only where the left one has a value.
  cases hv : p.unlimited env left with
  | error e =>
      rw [unlimited, unlimited, hv]
      rfl
  | ok v =>
      have hg : p.unlimited env (.grouping left) = .ok v := hv
      have hn : p.settles op v = false := by rw [settles, hs, Bool.false_and]
      have hr : p.reach env 1 right ≤ p.maxDepth := by
        have hm : p.reach env 1 right ≤ p.reach env 3 right := p.reach_mono env (by decide) right
        rw [reach_of_not_settles hg hn] at h
        exact Nat.le_trans hm (Nat.le_trans (Nat.le_max_right ..) h)
      rw [unlimited_binary hg, link_of_not_settles hn,
        p.evaluate_of_reach_le env hr]
      rfl

namespace Calculator

variable (c : Calculator)

/-- Two texts in parentheses with an operator between them are read as the operation on what each
of them is read as, and evaluated to it. -/
theorem parse_composed (a b : String) (ea eb : Expr) (op : BinaryOperator)
    (ha : c.parse a = .ok (.expression ea)) (hb : c.parse b = .ok (.expression eb))
    (hna : ea.nest < c.settings.maxDepth.toNat) (hnb : eb.nest < c.settings.maxDepth.toNat) :
    let text := "(" ++ a ++ ")" ++ op.symbol ++ "(" ++ b ++ ")"
    c.parse text = .ok (.expression (.binary op (.grouping ea) (.grouping eb))) ∧
    (c.settings.shortCircuit = false → ∀ env,
      (∃ n, c.evaluateText env none text = .error (.eval (.depthLimitExceeded n))) ∨
      c.evaluateText env none text = do
        let l ← c.evaluateText env none a
        let r ← c.evaluateText env none b
        (op.apply l r).mapError .eval) := by
  intro text
  have hp : c.parse text = .ok (.expression (.binary op (.grouping ea) (.grouping eb))) :=
    Statement.ofText_binary_grouping op ha hb hna hnb c.usable.maxChainLength_pos
  refine ⟨hp, fun hs env => ?_⟩
  rw [c.evaluateText_of_parse env hp, c.evaluateText_of_parse env ha,
    c.evaluateText_of_parse env hb]
  simp only [Statement.expr]
  let p := c.settings.policy
  let e : Expr := .binary op (.grouping ea) (.grouping eb)
  rcases Nat.lt_or_ge p.maxDepth (p.reach env 1 e) with h | h
  · refine .inl ⟨p.maxDepth, ?_⟩
    rw [p.evaluate_eq_depthLimit env h]
    rfl
  · refine .inr ?_
    rw [p.evaluate_binary_grouping env hs op ea eb h, mapError_bind]
    simp only [mapError_bind]
    rfl

theorem product_of_sum_and_negation :
    let c : Calculator := ⟨{ maxDepth := 4 }, by decide⟩
    let env : Environment := fun name => if name = "x" then some (.integer ⟨5, by decide⟩) else none
    let sum : Expr := .binary (.arithmetic .add) (.literal (.integer ⟨1, by decide⟩))
      (.literal (.integer ⟨2, by decide⟩))
    let op : BinaryOperator := .arithmetic .multiply
    c.parse "1 + 2" = .ok (.expression sum) ∧
      c.parse " -x " = .ok (.expression (.unary .negate (.var "x"))) ∧
      sum.nest < c.settings.maxDepth.toNat ∧
      (Expr.unary .negate (.var "x")).nest < c.settings.maxDepth.toNat ∧
      c.settings.shortCircuit = false ∧
      c.parse "(1 + 2)*( -x )" = .ok (.expression
        (.binary op (.grouping sum) (.grouping (.unary .negate (.var "x"))))) ∧
      c.evaluateText env none "(1 + 2)*( -x )" = (do
        let l ← c.evaluateText env none "1 + 2"
        let r ← c.evaluateText env none " -x "
        (op.apply l r).mapError .eval) := by
  intro c env sum op
  have ha : c.parse "1 + 2" = .ok (.expression sum) := by decide +kernel
  have hb : c.parse " -x " = .ok (.expression (.unary .negate (.var "x"))) := by decide +kernel
  have hv : c.evaluateText env none "(1 + 2)*( -x )" = .ok (.integer ⟨-15, by decide⟩) := by
    decide +kernel
  have h := c.parse_composed "1 + 2" " -x " _ _ op ha hb (by decide) (by decide)
  have ht : "(" ++ "1 + 2" ++ ")" ++ op.symbol ++ "(" ++ " -x " ++ ")" = "(1 + 2)*( -x )" := by
    decide +kernel
  simp only [ht] at h
  obtain ⟨hp, he⟩ := h
  refine ⟨ha, hb, by decide, by decide, rfl, hp, (he rfl env).resolve_left ?_⟩
  rintro ⟨n, hn⟩
  cases hv.symm.trans hn

end Calculator

end Reckoner
