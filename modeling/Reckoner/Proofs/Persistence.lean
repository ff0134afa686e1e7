import Reckoner.Proofs.DepthLimit
import Reckoner.Proofs.StoredForm
import Reckoner.Proofs.Written

namespace Reckoner

/-- Numbers in texts have no sign, so each literal comes back as it is. -/
theorem Value.restored_of_written {v : Value} (h : v.Written) : v.restored = v := by
  cases v with
  | decimal d => rw [restored, Decimal.restored_of_not_negative h.1]
  | integer | string | boolean => rfl

theorem Expr.restored_of_written {e : Expr} (h : e.Written) : e.restored = e := by
  induction e with
  | literal v => rw [restored, Value.restored_of_written h]
  | var name => rfl
  | grouping inner ih => rw [restored, ih h]
  | unary op operand ih => rw [restored, ih h]
  | binary op left right ihl ihr => rw [restored, ihl h.1, ihr h.2]

theorem Statement.restored_of_ofText {limits : Limits} {text : String} {r : Statement}
    (h : ofText limits text = .ok r) : r.restored = r := by
  have hw := written_of_ofText h
  cases r with
  | expression e => rw [restored, Expr.restored_of_written hw]
  | assignment name e => rw [restored, Expr.restored_of_written hw.2]

namespace Calculator

/-- What a text says comes back from its stored form just when that has no more brackets open at
once than may be. -/
theorem ofStored?_of_parse {c : Calculator} {text : String} {r : Statement}
    (h : c.parse text = .ok r) : Statement.ofStored? r.toJson.compact =
      if r.toJson.depth ≤ Json.maxRoom then some r else none := by
  rw [r.ofStored?_compact, r.depth_toJson, Statement.restored_of_ofText h]

theorem assignment_comes_back :
    let r : Statement := .assignment "x" (.unary .negate (.grouping (.binary (.arithmetic .divide)
      (.literal (.decimal ⟨false, 150, 2, by decide, by decide⟩)) (.var "y"))))
    standard.parse "x = -(1.50 / y)" = .ok r ∧ r.toJson.depth = 9 ∧
      Statement.ofStored? r.toJson.compact = some r := by
  intro r
  have h : standard.parse "x = -(1.50 / y)" = .ok r := by decide +kernel
  have hd : r.toJson.depth = 9 := by decide
  refine ⟨h, hd, ?_⟩
  rw [ofStored?_of_parse h, hd]
  rfl

end Calculator

namespace Expr

def sum : Nat → Expr
  | 0 => var "x"
  | n + 1 => binary (.arithmetic .add) (sum n) (var "x")

theorem canonical_sum (n : Nat) : (sum n).Canonical := by
  induction n with
  | zero => trivial
  | succ n ih =>
      refine ⟨⟨?_, by decide⟩, ih, trivial⟩
      cases n with
      | zero => decide
      | succ n => exact Nat.le_refl _

theorem nest_sum (n : Nat) : (sum n).nest = 0 := by
  induction n with
  | zero => rfl
  | succ n ih => rw [sum, nest, ih]; rfl

theorem run_sum (n : Nat) : (sum n).run (BinaryOperator.rank (.arithmetic .add)) = n := by
  induction n with
  | zero => rfl
  | succ n ih => rw [sum, run, if_pos rfl, ih]

theorem chain_sum (n : Nat) : (sum n).chain = n := by
  induction n with
  | zero => rfl
  | succ n ih =>
      rw [sum, chain, run_sum, ih]
      simp [chain]

theorem brackets_sum (n : Nat) : (sum n).brackets = 2 * n + 1 := by
  induction n with
  | zero => rfl
  | succ n ih =>
      rw [sum, brackets, ih, brackets]
      omega

theorem restored_sum (n : Nat) : (sum n).restored = sum n := by
  induction n with
  | zero => rfl
  | succ n ih => rw [sum, restored, ih]; rfl

theorem yield_sum (n : Nat) : (sum n).yield = .ofName "x" ::
    (List.replicate n [.ofOperator (.arithmetic .add), .ofName "x"]).flatten := by
  induction n with
  | zero => rfl
  | succ n ih =>
      rw [sum, yield, ih, List.replicate_succ', List.flatten_append]
      simp [yield]

end Expr

namespace Token

def nameX (p : Nat) : Token := ⟨.identifier, "x", p, none⟩

theorem formed_nameX (p : Nat) : (nameX p).Formed :=
  @Formed.word 'x' [] (by decide +kernel) (by simp) p

theorem tiles_nameX {p q : Nat} {rest : List Char} {ts : List Token}
    (hb : ∀ c ∈ rest.head?, continuesWord c = false) (h : Tiles (nameX p).stop rest ts q []) :
    Tiles p ('x' :: rest) (nameX p :: ts) q [] :=
  .cons_adjacent (formed_nameX p) (by simp [nameX]) hb h

theorem head?_sum {n : Nat} {c : Char} (h : c ∈ (List.replicate n ['+', 'x']).flatten.head?) :
    continuesWord c = false := by
  cases n with
  | zero => cases h
  | succ n => cases h; decide +kernel

theorem tiles_sum (n p : Nat) : ∃ ts q,
    Tiles p (List.replicate n ['+', 'x']).flatten ts q [] ∧ ts.map Token.symbol =
      (List.replicate n [.ofOperator (.arithmetic .add), .ofName "x"]).flatten := by
  induction n generalizing p with
  | zero => exact ⟨[], p, .nil .., rfl⟩
  | succ n ih =>
      let t : Token := ⟨.operator (.arithmetic .add), "+", p, none⟩
      have ht : t.Formed := .mark rfl p
      obtain ⟨ts, q, h, hy⟩ := ih (nameX t.stop).stop
      have hx := tiles_nameX (fun _ => head?_sum) h
      refine ⟨t :: nameX t.stop :: ts, q, .cons_adjacent ht ?_ (fun _ _ => rfl) hx, ?_⟩
      · simp [t, List.replicate_succ]
      · rw [List.map_cons, List.map_cons, hy, List.replicate_succ, List.flatten_cons]
        rfl

end Token

theorem Calculator.parse_sum (c : Calculator) {n : Nat}
    (h : n ≤ c.settings.maxChainLength.toNat) :
    c.parse (String.ofList ('x' :: (List.replicate n ['+', 'x']).flatten)) =
      .ok (.expression (.sum n)) := by
  obtain ⟨ts, q, ht, hy⟩ := Token.tiles_sum n (Token.nameX 0).stop
  have hx := Token.tiles_nameX (fun _ => Token.head?_sum) ht
  rw [← String.toList_ofList (l := 'x' :: _)] at hx
  refine Statement.ofText_of_tiles hx (by simp) (Expr.canonical_sum n) ?_ ?_ ?_
  · rw [Statement.expr, Expr.nest_sum]
    exact Nat.zero_le _
  · rwa [Statement.expr, Expr.chain_sum]
  · rw [List.map_cons, hy, Statement.yield, Expr.yield_sum]
    rfl

/-- However long a chain may be, a sum of more than 63 terms does not come back. -/
theorem Statement.ofStored?_sum (n : Nat) :
    ofStored? (expression (.sum n)).toJson.compact =
      if n ≤ 62 then some (expression (.sum n)) else none := by
  have hn : 2 * n + 1 + 1 ≤ 127 ↔ n ≤ 62 := by omega
  rw [ofStored?_compact, brackets, Expr.brackets_sum, Json.maxRoom, restored, Expr.restored_sum]
  simp only [hn]

theorem Calculator.sum_does_not_come_back :
    standard.parse (String.ofList ('x' :: (List.replicate 63 ['+', 'x']).flatten)) =
      .ok (.expression (.sum 63)) ∧
    Statement.ofStored? (Statement.expression (.sum 63)).toJson.compact = none :=
  ⟨standard.parse_sum (by decide), by rw [Statement.ofStored?_sum, if_neg (by decide)]⟩

end Reckoner
