import Reckoner.Proofs.LineReply

namespace Reckoner

theorem Integer.toList_text_of_neg {n m : Integer} (hn : n.val < 0) (hm : m.val = -n.val) :
    n.text.toList = '-' :: m.text.toList := by
  have hp : ¬ m.val < 0 := by omega
  simp only [text, String.toList_ofList, if_pos hn, if_neg hp]
  rw [hm, Int.natAbs_neg]
  rfl

theorem Decimal.toList_text_of_negative {d : Decimal} (h : d.negative = true) :
    d.text.toList = '-' :: d.neg.text.toList := by
  simp [text, chars, neg, h]

namespace Symbol

theorem exists_tiles_minus {s : Symbol} (h : s.Stands) : ∃ ts q,
    Token.Tiles 0 ('-' :: s.text.toList) ts q [] ∧ ts.map Token.symbol = [minus, s] := by
  let m : Token := ⟨.operator (.arithmetic .subtract), "-", 0, none⟩
  obtain ⟨t, ht, hp, hl, hs⟩ := h m.stop
  have hn : Token.Tiles m.stop s.text.toList [t] t.stop [] :=
    hl ▸ hp ▸ .cons_adjacent ht (List.append_nil _).symm (by simp) (.nil ..)
  refine ⟨[m, t], t.stop, .cons_adjacent (.mark rfl 0) ?_ (fun _ _ => rfl) hn, ?_⟩
  · simp
  · rw [List.map_cons, List.map_singleton, hs]
    rfl

end Symbol

theorem Statement.ofText_negate {limits : Limits} (hl : 1 ≤ limits.maxDepth) {v : Value}
    (h : (Symbol.ofValue v).Stands) {text : String}
    (ht : text.toList = '-' :: (Symbol.ofValue v).text.toList) :
    ofText limits text = .ok (.expression (.unary .negate (.literal v))) := by
  obtain ⟨ts, q, hts, hy⟩ := Symbol.exists_tiles_minus h
  rw [← ht] at hts
  have hc : (Expr.unary .negate (.literal v)).Canonical := ⟨Nat.le_succ 5, trivial⟩
  exact ofText_of_tiles hts (by simp) hc hl (Nat.zero_le _) hy

namespace Value

/-- The values that their texts tell: truth values, decimals with a fraction, and all integers but
the least, whose digits make no integer without the sign. -/
def Legible : Value → Prop
  | integer n => -0x80000000_00000000 < n.val
  | decimal d => 1 ≤ d.scale
  | string _ => False
  | boolean _ => True

theorem Legible.exists_literal {v : Value} (hv : v.Legible) : ∃ w : Value,
    (Symbol.ofValue w).Stands ∧ ((v = w ∧ v.text = (Symbol.ofValue w).text) ∨
      (UnaryOperator.negate.apply w = .ok v ∧
        v.text.toList = '-' :: (Symbol.ofValue w).text.toList)) := by
  have integer {n : Integer} (hn : 0 ≤ n.val) : (Symbol.ofValue (.integer n)).Stands :=
    Symbol.stands_number hn rfl (Token.numberValue?_integer hn)
  have decimal {d : Decimal} (hd : d.negative = false) (hs : 1 ≤ d.scale) :
      (Symbol.ofValue (.decimal d)).Stands :=
    Symbol.stands_number ⟨hd, fun hz => by omega⟩ rfl (Token.numberValue?_decimal hd hs)
  cases v with
  | integer n =>
      have hl : -0x80000000_00000000 < n.val := hv
      by_cases hn : n.val < 0
      · let m : Integer := ⟨-n.val, by omega⟩
        have hm : UnaryOperator.negate.apply (.integer m) = .ok (.integer n) := by
          have hi : m.neg? = some n := Signed.ofInt?_eq_some_iff.2 (Int.neg_neg _).symm
          rw [UnaryOperator.apply, hi]
          rfl
        exact ⟨.integer m, integer (by simp only [m]; omega),
          .inr ⟨hm, Integer.toList_text_of_neg hn rfl⟩⟩
      · exact ⟨.integer n, integer (Int.not_lt.1 hn), .inl ⟨rfl, rfl⟩⟩
  | decimal d =>
      cases hn : d.negative with
      | true =>
          have hm : UnaryOperator.negate.apply (.decimal d.neg) = .ok (.decimal d) := by
            simp [UnaryOperator.apply, Decimal.neg]
          have hd : d.neg.negative = false := by simp [Decimal.neg, hn]
          exact ⟨.decimal d.neg, decimal hd hv,
            .inr ⟨hm, Decimal.toList_text_of_negative hn⟩⟩
      | false => exact ⟨.decimal d, decimal hn hv, .inl ⟨rfl, rfl⟩⟩
  | boolean b => exact ⟨.boolean b, Symbol.stands_boolean b, .inl ⟨rfl, rfl⟩⟩
  | string => cases hv

end Value

namespace Calculator

theorem evaluate_negate (c : Calculator) (hc : 2 ≤ c.settings.maxDepth.toNat) (env : Environment)
    {v w : Value} (h : UnaryOperator.negate.apply v = .ok w) :
    c.settings.policy.evaluate env (.unary .negate (.literal v)) = .ok w := by
  have hd : (Expr.unary .negate (.literal v)).depth ≤ c.settings.policy.maxDepth := hc
  rw [Policy.evaluate_eq_unlimited _ env hd, Policy.unlimited]
  exact h

/-- What is printed of a value can be typed in again, whatever names are bound. -/
theorem evaluateText_text (env : Environment) {v : Value} (hv : v.Legible) :
    standard.evaluateText env none v.text = .ok v := by
  obtain ⟨w, hw, ⟨rfl, ht⟩ | ⟨hn, ht⟩⟩ := hv.exists_literal
  · have hp : standard.parse v.text = .ok (.expression (.literal v)) := by
      rw [ht]
      exact Statement.ofText_of_stands _ hw trivial rfl rfl rfl
    rw [evaluateText_of_parse _ env hp]
    exact standard.evaluate_literal env v
  · have hp : standard.parse v.text = .ok (.expression (.unary .negate (.literal w))) :=
      Statement.ofText_negate (by decide) hw ht
    rw [evaluateText_of_parse _ env hp]
    change (standard.settings.policy.evaluate env (.unary .negate (.literal w))).mapError _ = _
    rw [evaluate_negate standard (by decide) env hn]
    rfl

theorem negative_zero_is_read_back :
    let zero : Value := .decimal ⟨true, 0, 28, by decide, by decide⟩
    let low : Value := .integer ⟨-0x7fffffff_ffffffff, by decide⟩
    let noNames : Environment := fun _ => none
    zero.text = "-0.0000000000000000000000000000" ∧ zero.Legible ∧
      standard.evaluateText noNames none zero.text = .ok zero ∧
      low.text = "-9223372036854775807" ∧ low.Legible ∧
      standard.evaluateText noNames none low.text = .ok low := by
  intro zero low noNames
  have hz : zero.Legible := (by decide : 1 ≤ 28)
  have hl : low.Legible := (by decide : (-0x80000000_00000000 : Int) < -0x7fffffff_ffffffff)
  exact ⟨by decide +kernel, hz, evaluateText_text noNames hz, by decide +kernel, hl,
    evaluateText_text noNames hl⟩

theorem least_integer_is_not_read_back :
    let least : Value := .integer ⟨-0x80000000_00000000, by decide⟩
    least.text = "-9223372036854775808" ∧
      standard.evaluateText (fun _ => none) none least.text =
        .error (.lex (.malformedNumber "9223372036854775808" 1)) := by
  decide +kernel

end Calculator

end Reckoner
