import Reckoner.Calculator
import Reckoner.Proofs.DecimalText
import Reckoner.Proofs.ExactLimits

namespace Reckoner

namespace Decimal.Numeral

theorem digit?_of_isDigit {c : Char} (h : c.isDigit = true) : ∃ d, digit? c = some d ∧ d < 10 := by
  obtain ⟨_, hle⟩ := Char.isDigit_iff_toNat.1 h
  refine ⟨c.toNat - '0'.toNat, by rw [digit?, if_pos h], ?_⟩
  have h0 : '0'.toNat = 48 := rfl
  have h9 : '9'.toNat = 57 := rfl
  omega

theorem of_round {n : Numeral} {c : Char} {cs : List Char} {m k : Nat}
    (h : n.round c cs = some (m, k)) : n.mantissa / 10 ≤ m ∧ n.scale ≤ k + 1 := by
  unfold round at h
  split at h
  · cases h
  split at h
  · cases h; omega
  split at h
  · cases h; omega
  split at h
  · cases h
  · cases h; omega

theorem exists_of_read_whole {ds : List Char} (hd : ∀ c ∈ ds, c.isDigit = true) {a : Nat}
    {started : Bool} {rest : List Char} {r : Nat × Nat}
    (h : read ⟨a, 0, false, started⟩ (ds ++ rest) = some r) :
    ∃ b started', read ⟨b, 0, false, started'⟩ rest = some r := by
  induction ds generalizing a started with
  | nil => exact ⟨a, started, h⟩
  | cons c ds ih =>
      obtain ⟨hc, hd⟩ := List.forall_mem_cons.1 hd
      obtain ⟨d, hd', _⟩ := digit?_of_isDigit hc
      rw [List.cons_append, read, if_neg (by simp), hd'] at h
      simp only [Bool.false_eq_true, if_false] at h
      split at h
      · exact ih hd h
      · cases h

/-- Where a fraction has been written and none is left, the mantissa had no room for one. -/
theorem le_of_read_fraction {ds : List Char} (hd : ∀ c ∈ ds, c.isDigit = true) {a k : Nat}
    {started : Bool} {m : Nat} (h : read ⟨a, k, true, started⟩ ds = some (m, 0))
    (hk : 0 < k ∨ ds ≠ []) : 0x80000000_00000000 ≤ m := by
  induction ds generalizing a k started with
  | nil =>
      rw [read] at h
      split at h
      · cases h; simp at hk
      · cases h
  | cons c ds ih =>
      obtain ⟨hc, hd⟩ := List.forall_mem_cons.1 hd
      obtain ⟨d, hd', hlt⟩ := digit?_of_isDigit hc
      rw [read] at h
      split at h
      · rename_i hs
        obtain ⟨_, hle⟩ := of_round h
        simp only at hs hle
        omega
      · simp only [hd', if_true] at h
        split at h
        · exact ih hd h (.inl (Nat.succ_pos k))
        · rename_i hf
          obtain ⟨hle, _⟩ := of_round h
          simp only [Fits] at hf hle
          omega

end Decimal.Numeral

theorem Token.isDigit_of_count_point {cs : List Char} (hp : cs.count '.' = 0)
    (hc : ∀ c ∈ cs, isNumberChar c = true) : ∀ c ∈ cs, c.isDigit = true := by
  intro c hm
  have hne : c ≠ '.' := fun he => List.count_eq_zero.1 hp (he ▸ hm)
  simpa [isNumberChar, hne] using hc c hm

theorem Token.exists_of_point {cs : List Char} (hc : ∀ c ∈ cs, isNumberChar c = true)
    (hp : cs.count '.' = 1) (hl : cs.getLast? ≠ some '.') :
    ∃ ds fs, cs = ds ++ '.' :: fs ∧ fs ≠ [] ∧ (∀ c ∈ ds, c.isDigit = true) ∧
      ∀ c ∈ fs, c.isDigit = true := by
  obtain ⟨ds, fs, rfl⟩ := List.append_of_mem (List.count_pos_iff.1 (hp ▸ Nat.one_pos))
  rw [List.count_append, List.count_cons_self] at hp
  refine ⟨ds, fs, rfl, ?_, isDigit_of_count_point (by omega) fun c hm => hc c (by simp [hm]),
    isDigit_of_count_point (by omega) fun c hm => hc c (by simp [hm])⟩
  rintro rfl
  exact hl (List.getLast?_concat ..)

/-- What literals can be: numbers have no sign, a decimal without a fraction is larger than any
integer, and no string holds a quote. -/
def Value.Written : Value → Prop
  | integer n => 0 ≤ n.val
  | decimal d => d.negative = false ∧ (d.scale = 0 → 0x80000000_00000000 ≤ d.mantissa)
  | string s => '"' ∉ s.toList
  | boolean _ => True

/-- The words that names are. -/
def Token.IsName (name : String) : Prop :=
  isIdentifier name.toList = true ∧ name ≠ "true" ∧ name ≠ "false"

namespace Decimal

theorem written_of_ofChars? {c : Char} {cs : List Char} {d : Decimal} (hd : c.isDigit = true)
    (hc : ∀ x ∈ c :: cs, Token.isNumberChar x = true) (hp : (c :: cs).count '.' = 1)
    (hl : (c :: cs).getLast? ≠ some '.') (h : ofChars? (c :: cs) = some d) :
    (Value.decimal d).Written := by
  rw [ofChars?_of_isDigit hd] at h
  obtain ⟨⟨m, k⟩, hr, hparts⟩ := Option.bind_eq_some_iff.1 h
  obtain ⟨hs, rfl, rfl⟩ := ofParts?_eq_some_iff.1 hparts
  refine ⟨hs, fun hz => ?_⟩
  obtain ⟨ds, fs, he, hne, hds, hfs⟩ := Token.exists_of_point hc hp hl
  rw [he, hz] at hr
  obtain ⟨a, started, hr⟩ := Numeral.exists_of_read_whole hds hr
  exact Numeral.le_of_read_fraction hfs hr (.inr hne)

end Decimal

namespace Token

theorem written_of_numberValue? {c : Char} {cs : List Char} {v : Value} (hd : c.isDigit = true)
    (hc : ∀ x ∈ cs, isNumberChar x = true) (h : numberValue? (c :: cs) = some v) : v.Written := by
  rw [numberValue?] at h
  split at h
  · obtain ⟨n, hn, rfl⟩ := Option.map_eq_some_iff.1 h
    rw [Value.Written, Signed.ofInt?_eq_some_iff.1 hn]
    exact Int.natCast_nonneg _
  split at h
  · rename_i hp
    obtain ⟨d, hd', rfl⟩ := Option.map_eq_some_iff.1 h
    have hall : ∀ x ∈ c :: cs, isNumberChar x = true :=
      List.forall_mem_cons.2 ⟨isNumberChar_of_isDigit hd, hc⟩
    exact Decimal.written_of_ofChars? hd hall hp.1 hp.2 hd'
  · cases h

theorem written_of_formed {t : Token} (h : t.Formed) {v : Value} (hv : t.literal = some v) :
    v.Written := by
  cases h with
  | number hd hc hn =>
      cases hv
      exact written_of_numberValue? hd hc hn
  | @string content hq =>
      cases hv
      simpa [Value.Written] using hq
  | @word c cs hs hc p =>
      rcases word_eq p (c :: cs) with ⟨_, h⟩ | ⟨_, h⟩ | ⟨_, _, h⟩ <;> rw [h] at hv <;> cases hv
      · trivial
      · trivial
  | mark => cases hv

theorem isName_of_formed {t : Token} (h : t.Formed) (hk : t.kind = .identifier) :
    IsName t.lexeme := by
  cases h with
  | number | string => cases hk
  | @word c cs hs hc p =>
      rcases word_eq p (c :: cs) with ⟨_, h⟩ | ⟨_, h⟩ | ⟨ht, hf, h⟩ <;> rw [h] at hk ⊢
      · cases hk
      · cases hk
      · refine ⟨?_, ht, hf⟩
        simpa [isIdentifier, hs] using hc
  | mark hm => cases hk; cases hm

theorem exists_of_isIdentifier {name : String} (h : isIdentifier name.toList = true) : ∃ c cs,
    name = String.ofList (c :: cs) ∧ startsWord c = true ∧ ∀ x ∈ cs, continuesWord x = true := by
  unfold isIdentifier at h
  split at h
  · cases h
  · rename_i c cs he
    obtain ⟨hs, hc⟩ := Bool.and_eq_true_iff.1 h
    exact ⟨c, cs, by rw [← he, String.ofList_toList], hs, List.all_eq_true.1 hc⟩

theorem formed_word {name : String} (h : isIdentifier name.toList = true) (p : Nat) :
    (word p name.toList).Formed := by
  obtain ⟨c, cs, rfl, hs, hc⟩ := exists_of_isIdentifier h
  rw [String.toList_ofList]
  exact .word hs hc p

theorem formed_of_isName {name : String} (h : IsName name) (p : Nat) :
    Formed ⟨.identifier, name, p, none⟩ := by
  have hw := formed_word h.1 p
  have he := word_eq p name.toList
  rw [String.ofList_toList] at he
  rcases he with ⟨h', _⟩ | ⟨h', _⟩ | ⟨_, _, h'⟩
  · exact absurd h' h.2.1
  · exact absurd h' h.2.2
  · rwa [h'] at hw

end Token

namespace Expr

def Written : Expr → Prop
  | literal v => v.Written
  | var name => Token.IsName name
  | grouping inner => inner.Written
  | unary _ operand => operand.Written
  | binary _ left right => left.Written ∧ right.Written

theorem written_of_yield {e : Expr} {ts : List Token} (ht : ∀ t ∈ ts, t.Formed)
    (h : ∀ s ∈ e.yield, ∃ t ∈ ts, t.symbol = s) : e.Written := by
  induction e with
  | literal v =>
      obtain ⟨t, hm, hs⟩ := h (.ofValue v) (List.mem_singleton_self _)
      exact Token.written_of_formed (ht t hm) (congrArg Symbol.literal hs)
  | var name =>
      obtain ⟨t, hm, hs⟩ := h (.ofName name) (List.mem_singleton_self _)
      obtain ⟨hk, hl⟩ := Token.lexeme_of_symbol hs
      exact hl ▸ Token.isName_of_formed (ht t hm) hk
  | grouping inner ih => exact ih fun s hs => h s (by simp [yield, hs])
  | unary op operand ih =>
      cases op
      exact ih fun s hs => h s (by simp [yield, hs])
  | binary op left right ihl ihr =>
      exact ⟨ihl fun s hs => h s (by simp [yield, hs]), ihr fun s hs => h s (by simp [yield, hs])⟩

end Expr

namespace Statement

def Written : Statement → Prop
  | expression e => e.Written
  | assignment name e => Token.IsName name ∧ e.Written

theorem canonical_of_ofTokens {limits : Limits} {body : List Token} (ht : ∀ t ∈ body, t.Formed)
    {stop : Nat} {r : Statement} (h : ofTokens limits (body ++ [Token.ending stop]) = .ok r) :
    (r.expr.Canonical ∧ r.yield = body.map Token.symbol) ∧
      r.expr.nest ≤ limits.maxDepth ∧ r.expr.chain ≤ limits.maxChainLength := by
  obtain ⟨f, lead, ts, hled⟩ := exists_led ht stop
  have hp : ∀ t ∈ body, t.Proper := fun t h => Token.proper_of_formed (ht t h)
  let inf : Limits := ⟨body.length, body.length⟩
  obtain ⟨hr, hw⟩ := (@Led.ok_iff _ _ _ _ _ _ hled hp inf (Nat.le_refl _) (Nat.le_refl _) r).1 h
  exact ⟨(ofTokens_eq_ok_iff ht (Nat.le_refl _) (Nat.le_refl _) stop r).1 hr, hw⟩

theorem exists_tiles_of_ofText {limits : Limits} {text : String} {r : Statement}
    (h : ofText limits text = .ok r) :
    ∃ ts q gap, Token.Tiles 0 text.toList ts q gap ∧ (∀ x ∈ gap, Text.isBlank x = true) ∧
      (r.expr.Canonical ∧ r.yield = ts.map Token.symbol) ∧
      r.expr.nest ≤ limits.maxDepth ∧ r.expr.chain ≤ limits.maxChainLength := by
  obtain ⟨tokens, ht, ho⟩ := ofText_eq_ok_iff.1 h
  rcases Token.scan_cases text with ⟨ts, q, gap, h, hg, hs⟩ | ⟨_, _, _, _, _, e, _, _, _, _, hs⟩
  · rw [Token.tokenize_of_ok hs] at ht
    cases ht
    exact ⟨ts, q, gap, h, hg, canonical_of_ofTokens h.formed ho⟩
  · rw [Token.tokenize_of_error hs] at ht
    cases ht

theorem exists_of_ofText {limits : Limits} {text : String} {r : Statement}
    (h : ofText limits text = .ok r) :
    ∃ body : List Token, (∀ t ∈ body, t.Formed) ∧ r.expr.Canonical ∧
      r.yield = body.map Token.symbol := by
  obtain ⟨ts, q, gap, ht, _, hc, _⟩ := exists_tiles_of_ofText h
  exact ⟨ts, ht.formed, hc⟩

theorem written_of_ofText {limits : Limits} {text : String} {r : Statement}
    (h : ofText limits text = .ok r) : r.Written := by
  obtain ⟨body, hf, _, hy⟩ := exists_of_ofText h
  have hm : ∀ s ∈ r.yield, ∃ t ∈ body, t.symbol = s := by
    intro s hs
    rw [hy] at hs
    exact List.mem_map.1 hs
  cases r with
  | expression e => exact Expr.written_of_yield hf hm
  | assignment name e =>
      refine ⟨?_, Expr.written_of_yield hf fun s hs => hm s (by simp [yield, hs])⟩
      -- The name is a tree of its own, with the symbol that the line starts with.
      exact Expr.written_of_yield (e := .var name) hf fun s hs => hm s (by
        rw [Expr.yield, List.mem_singleton] at hs
        simp [yield, hs])

end Statement

end Reckoner
