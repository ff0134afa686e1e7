import Reckoner.Calculator
import Reckoner.Proofs.ParseGrammar
import Reckoner.Proofs.Reach

namespace Reckoner

namespace Expr

def minuses : Nat → Expr
  | 0 => literal (.integer ⟨1, by decide⟩)
  | n + 1 => unary .negate (minuses n)

theorem canonical_minuses (n : Nat) : (minuses n).Canonical := by
  induction n with
  | zero => trivial
  | succ n ih =>
      refine ⟨?_, ih⟩
      cases n <;> simp [minuses, rank]

theorem nest_minuses (n : Nat) : (minuses n).nest = n := by
  induction n with
  | zero => rfl
  | succ n ih => rw [minuses, nest, ih]

theorem chain_minuses (n : Nat) : (minuses n).chain = 0 := by
  induction n with
  | zero => rfl
  | succ n ih => rw [minuses, chain, ih]

theorem reach_minuses (p : Policy) (env : Environment) (depth n : Nat) :
    p.reach env depth (minuses n) = depth + n := by
  induction n generalizing depth with
  | zero => rfl
  | succ n ih =>
      rw [minuses, Policy.reach, ih]
      omega

end Expr

namespace Token

theorem Tiles.cons_adjacent {t : Token} {q : Nat} {text rest tail : List Char} {ts : List Token}
    (ht : t.Formed) (hs : text = t.lexeme.toList ++ rest)
    (hb : ∀ x ∈ rest.head?, t.kind.continues x = false) (h : Tiles t.stop rest ts q tail) :
    Tiles t.position text (t :: ts) q tail := by
  subst hs
  exact @Tiles.cons _ _ [] _ _ _ _ (by simp) ht rfl hb h

theorem tiles_minuses (n p : Nat) : ∃ ts q,
    Tiles p (List.replicate n '-' ++ ['1']) ts q [] ∧
      ts.map Token.symbol = (Expr.minuses n).yield := by
  induction n generalizing p with
  | zero =>
      let t : Token := ⟨.number, "1", p, some (.integer ⟨1, by decide⟩)⟩
      have ht : t.Formed := @Formed.number '1' [] _ (by decide) (by simp) (by decide +kernel) p
      exact ⟨[t], t.stop, .cons_adjacent ht (by simp [t]) (by simp) (.nil ..), rfl⟩
  | succ n ih =>
      let t : Token := ⟨.operator (.arithmetic .subtract), "-", p, none⟩
      have ht : t.Formed := .mark rfl p
      obtain ⟨ts, q, h, hy⟩ := ih t.stop
      refine ⟨t :: ts, q, .cons_adjacent ht (by simp [t, List.replicate_succ]) ?_ h, ?_⟩
      · exact fun _ _ => rfl
      · rw [List.map_cons, hy]
        rfl

end Token

theorem Statement.ofText_of_tiles {limits : Limits} {text : String} {ts : List Token} {q : Nat}
    {gap : List Char} {r : Statement} (h : Token.Tiles 0 text.toList ts q gap)
    (hg : ∀ x ∈ gap, Text.isBlank x = true) (hc : r.expr.Canonical)
    (hd : r.expr.nest ≤ limits.maxDepth) (hl : r.expr.chain ≤ limits.maxChainLength)
    (hy : ts.map Token.symbol = r.yield) : ofText limits text = .ok r := by
  have hb : ∀ t ∈ ts, t.isEnding = false := fun t ht => Token.isEnding_of_formed (h.formed t ht)
  refine ofText_eq_ok_iff.2 ⟨_, Token.tokenize_of_ok (Token.scan_of_tiles h hg), ?_⟩
  cases r with
  | expression e =>
      have hn : ∀ x a rest, ts = x :: a :: rest →
          ¬ (x.kind = .identifier ∧ a.kind = .assign) := by
        rintro x a rest rfl ⟨_, ha⟩
        have hm : a.symbol ∈ e.yield := by
          change _ = e.yield at hy
          simp [← hy]
        exact Expr.kind_ne_assign_of_mem_yield hm ha
      rw [ofTokens_expression limits hb hn, Expr.ofTokens_of_yield hc hd hl _ hy]
      rfl
  | assignment name e =>
      obtain ⟨x, us, rfl, hx, hu⟩ := List.map_eq_cons_iff.1 hy
      obtain ⟨a, rest, rfl, ha, hr⟩ := List.map_eq_cons_iff.1 hu
      obtain ⟨hk, hname⟩ := Token.lexeme_of_symbol hx
      rw [ofTokens_assignment limits hb hk (congrArg Symbol.kind ha), hname,
        Expr.ofTokens_of_yield hc hd hl _ hr]
      rfl

namespace Calculator

variable (c : Calculator) (env : Environment)

theorem evaluateText_of_parse {text : String} {s : Statement} (h : c.parse text = .ok s) :
    c.evaluateText env none text = (c.settings.policy.evaluate env s.expr).mapError .eval := by
  rw [evaluateText, h]
  change c.evaluateTo env none s.expr = _
  rw [evaluateTo, evaluate]
  cases c.settings.policy.evaluate env s.expr <;> rfl

theorem evaluateText_eq_depthLimit_iff {text : String} {s : Statement}
    (h : c.parse text = .ok s) (n : Nat) :
    c.evaluateText env none text = .error (.eval (.depthLimitExceeded n)) ↔
      c.settings.policy.evaluate env s.expr = .error (.depthLimitExceeded n) := by
  rw [c.evaluateText_of_parse env h]
  cases c.settings.policy.evaluate env s.expr with
  | ok v => exact ⟨nofun, nofun⟩
  | error e => simp [Except.mapError]

theorem parse_minuses :
    c.parse (String.ofList (List.replicate c.settings.maxDepth.toNat '-' ++ ['1'])) =
      .ok (.expression (.minuses c.settings.maxDepth.toNat)) := by
  obtain ⟨ts, q, h, hy⟩ := Token.tiles_minuses c.settings.maxDepth.toNat 0
  rw [← String.toList_ofList (l := List.replicate _ '-' ++ _)] at h
  refine Statement.ofText_of_tiles h (by simp) (Expr.canonical_minuses _) ?_ ?_ hy
  · exact Nat.le_of_eq (Expr.nest_minuses _)
  · rw [Statement.expr, Expr.chain_minuses]
    exact Nat.zero_le _

/-- The one limit is for two depths. What is read within it is evaluated within it where the
evaluation reaches no deeper, and whatever the limit is, some text within it is not. -/
theorem depthLimit_iff_reach :
    (∀ env text s, c.parse text = .ok s →
      ((∃ n, c.evaluateText env none text = .error (.eval (.depthLimitExceeded n))) ↔
        c.settings.maxDepth.toNat < c.settings.policy.reach env 1 s.expr)) ∧
    ∃ text s, c.parse text = .ok s ∧ ∀ env, c.evaluateText env none text =
      .error (.eval (.depthLimitExceeded c.settings.maxDepth.toNat)) := by
  constructor
  · intro env text s h
    simp only [c.evaluateText_eq_depthLimit_iff env h]
    exact c.settings.policy.evaluate_eq_depthLimit_iff env s.expr
  · refine ⟨_, _, c.parse_minuses, fun env => ?_⟩
    rw [c.evaluateText_eq_depthLimit_iff env c.parse_minuses]
    refine c.settings.policy.evaluate_eq_depthLimit env ?_
    rw [Statement.expr, Expr.reach_minuses]
    exact Nat.lt_add_of_pos_left Nat.one_pos

/-- Two pairs of parentheses are read where two are allowed, and a sum where one is; neither is
evaluated. -/
theorem nested_and_chained_too_deep :
    let two : Calculator := ⟨{ maxDepth := 2 }, by decide⟩
    let one : Calculator := ⟨{ maxDepth := 1 }, by decide⟩
    let noNames : Environment := fun _ => none
    (two.parse "((1))").isOk ∧
      two.evaluateText noNames none "((1))" = .error (.eval (.depthLimitExceeded 2)) ∧
    (one.parse "1 + 2").isOk ∧
      one.evaluateText noNames none "1 + 2" = .error (.eval (.depthLimitExceeded 1)) := by
  decide +kernel

end Calculator

end Reckoner
