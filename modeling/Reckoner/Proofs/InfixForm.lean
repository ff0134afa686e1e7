import Reckoner.Proofs.DepthLimit
import Reckoner.Proofs.PrefixForm

namespace Reckoner

namespace Symbol

def text (s : Symbol) : String :=
  match s.literal with
  | some (.string content) => "\"" ++ content ++ "\""
  | some v => v.text
  | none => s.kind.spelling?.getD s.name

def spaced (ss : List Symbol) : String := " ".intercalate (ss.map text)

theorem toList_spaced_singleton (s : Symbol) : (spaced [s]).toList = s.text.toList := by
  simp [spaced]

theorem toList_spaced_cons (s x : Symbol) (ss : List Symbol) :
    (spaced (s :: x :: ss)).toList = s.text.toList ++ ' ' :: (spaced (x :: ss)).toList := by
  simp [spaced, String.toList_intercalate]

end Symbol

namespace Statement

def infixForm (r : Statement) : String := Symbol.spaced r.yield

/-- What a text can say: a canonical tree of numbers without a sign, strings without a quote, and
names that are no keywords. -/
structure Writable (r : Statement) : Prop where
  canonical : r.expr.Canonical
  integer : ∀ n : Integer, .ofValue (.integer n) ∈ r.yield → 0 ≤ n.val
  decimal : ∀ d : Decimal, .ofValue (.decimal d) ∈ r.yield → d.negative = false
  string : ∀ s : String, .ofValue (.string s) ∈ r.yield → '"' ∉ s.toList
  name : ∀ name : String, .ofName name ∈ r.yield → Token.IsName name

theorem writable_of_ofText {limits : Limits} {text : String} {r : Statement}
    (h : ofText limits text = .ok r) : r.Writable := by
  obtain ⟨body, hf, hc, hy⟩ := exists_of_ofText h
  have value {v : Value} (hm : .ofValue v ∈ r.yield) : v.Written := by
    rw [hy] at hm
    obtain ⟨t, ht, hs⟩ := List.mem_map.1 hm
    exact Token.written_of_formed (hf t ht) (congrArg Symbol.literal hs)
  refine ⟨hc, fun n hm => value hm, fun d hm => (value hm).1, fun s hm => value hm, ?_⟩
  intro name hm
  rw [hy] at hm
  obtain ⟨t, ht, hs⟩ := List.mem_map.1 hm
  obtain ⟨hk, hl⟩ := Token.lexeme_of_symbol hs
  exact hl ▸ Token.isName_of_formed (hf t ht) hk

end Statement

theorem count_point {ds : List Char} (h : ∀ c ∈ ds, c.isDigit = true) : ds.count '.' = 0 := by
  apply List.count_eq_zero.2
  intro hm
  have hd := h '.' hm
  revert hd
  decide

namespace Token

theorem numberValue?_integer {n : Integer} (h : 0 ≤ n.val) :
    numberValue? n.text.toList = some (.integer n) := by
  have ht : n.text.toList = Nat.toDigits 10 n.val.natAbs := by
    simp [Integer.text, Int.not_lt.2 h]
  have hd : ∀ c ∈ Nat.toDigits 10 n.val.natAbs, c.isDigit = true := fun c hc =>
    Nat.isDigit_of_mem_toDigits (by decide) (by decide) hc
  have hn : Integer.ofInt? (n.val.natAbs : Int) = some n :=
    Signed.ofInt?_eq_some_iff.2 (by omega)
  rw [ht, numberValue?, if_pos (count_point hd), Nat.ofDigitChars_ten_toDigits, hn]
  rfl

theorem numberValue?_decimal {d : Decimal} (h : d.negative = false) (hs : 1 ≤ d.scale) :
    numberValue? d.text.toList = some (.decimal d) := by
  obtain ⟨k, hk⟩ : ∃ k, d.scale = k + 1 := ⟨d.scale - 1, by omega⟩
  have hw : ∀ c ∈ Nat.toDigits 10 (d.mantissa / tenPow d.scale), c.isDigit = true := fun c hc =>
    Nat.isDigit_of_mem_toDigits (by decide) (by decide) hc
  have hf : ∀ c ∈ Decimal.lastDigits d.scale d.mantissa, c.isDigit = true := fun c =>
    Decimal.isDigit_of_mem_lastDigits
  have hc : d.chars = Nat.toDigits 10 (d.mantissa / tenPow d.scale) ++
      '.' :: Decimal.lastDigits d.scale d.mantissa := by
    simp [Decimal.chars, h, hk]
  have hp : d.chars.count '.' = 1 := by
    rw [hc, List.count_append, List.count_cons_self, count_point hw, count_point hf]
  have hl : d.chars.getLast? ≠ some '.' := by
    intro hl
    rw [hc, hk, Decimal.lastDigits, ← List.cons_append, ← List.append_assoc,
      List.getLast?_concat] at hl
    have hm : '.' ∈ Decimal.lastDigits d.scale d.mantissa := by
      rw [hk, Decimal.lastDigits, Option.some.inj hl]
      simp
    exact absurd (hf '.' hm) (by decide)
  rw [Decimal.text, String.toList_ofList, numberValue?, if_neg (by omega), if_pos ⟨hp, hl⟩,
    Decimal.ofChars?_chars, Decimal.restored_of_not_negative h]
  rfl

end Token

namespace Symbol

def Stands (s : Symbol) : Prop := ∀ p, ∃ t : Token,
  t.Formed ∧ t.position = p ∧ t.lexeme = s.text ∧ t.symbol = s

theorem stands_mark {k : TokenKind} {lexeme : String} (hk : k.spelling? = some lexeme) :
    Stands ⟨k, "", none⟩ := by
  intro p
  have ht : Token.Formed ⟨k, lexeme, p, none⟩ := .mark hk p
  have hm : k.isMark = true := by
    cases k with
    | number | string | boolean | identifier | endOfInput => cases hk
    | operator | leftParen | rightParen | assign => rfl
  refine ⟨_, ht, rfl, ?_, Token.symbol_of_isMark (Token.proper_of_formed ht) rfl hm⟩
  simp [text, hk]

theorem stands_name {name : String} (h : Token.IsName name) : (ofName name).Stands := by
  intro p
  exact ⟨_, Token.formed_of_isName h p, rfl, rfl, rfl⟩

theorem stands_number {v : Value} (hv : v.Written) (hn : v.isNumeric = true)
    (hs : Token.numberValue? v.text.toList = some v) : (ofValue v).Stands := by
  obtain ⟨d, hd, ht, _⟩ := Value.exists_of_isNumeric hv hn
  obtain ⟨c, cs, he, hc, hcs⟩ := Decimal.exists_of_text hd
  rw [ht] at he
  rw [he] at hs
  intro p
  have hf := Token.Formed.number hc hcs hs p
  rw [← he, String.ofList_toList] at hf
  cases v with
  | integer | decimal => exact ⟨_, hf, rfl, rfl, rfl⟩
  | string | boolean => cases hn

theorem stands_string {s : String} (h : '"' ∉ s.toList) : (ofValue (.string s)).Stands := by
  intro p
  have hf := Token.Formed.string h p
  rw [String.ofList_toList] at hf
  refine ⟨_, hf, rfl, ?_, rfl⟩
  rw [← String.toList_inj]
  simp [text, ofValue]

theorem stands_boolean (b : Bool) : (ofValue (.boolean b)).Stands := by
  have hi : Token.isIdentifier (Value.boolean b).text.toList = true := by
    cases b <;> decide +kernel
  intro p
  cases b <;> exact ⟨_, Token.formed_word hi p, rfl, rfl, rfl⟩

/-- A space ends any token, so symbols apart from each other are read one by one. -/
theorem exists_tiles_spaced (s : Symbol) {ss : List Symbol} (h : ∀ x ∈ s :: ss, x.Stands)
    {gap : List Char} (hg : ∀ x ∈ gap, Text.isBlank x = true) (p : Nat) :
    ∃ ts q, Token.Tiles p (gap ++ (spaced (s :: ss)).toList) ts q [] ∧
      ts.map Token.symbol = s :: ss := by
  induction ss generalizing s gap p with
  | nil =>
      obtain ⟨t, ht, hp, hl, hy⟩ := h s (List.mem_cons_self ..) (p + Text.width gap)
      refine ⟨[t], t.stop, ?_, by rw [List.map_singleton, hy]⟩
      have hc : Token.Tiles p (gap ++ (t.lexeme.toList ++ [])) [t] t.stop [] :=
        .cons hg ht hp (by simp) (.nil t.stop [])
      rwa [toList_spaced_singleton, ← hl, ← List.append_nil t.lexeme.toList]
  | cons x ss ih =>
      obtain ⟨t, ht, hp, hl, hy⟩ := h s (List.mem_cons_self ..) (p + Text.width gap)
      have hspace : ∀ c ∈ [' '], Text.isBlank c = true := List.all_eq_true.1 (by decide)
      obtain ⟨ts, q, hts, hys⟩ := ih x (fun y hy => h y (List.mem_cons_of_mem s hy)) hspace t.stop
      have hb : Expr.Closes (' ' :: (spaced (x :: ss)).toList) := by
        rintro _ ⟨⟩
        exact .inl rfl
      refine ⟨t :: ts, q, ?_, by rw [List.map_cons, hy, hys]⟩
      have hc := Token.Tiles.cons hg ht hp (hb.continues t.kind) hts
      rwa [toList_spaced_cons, ← hl]

end Symbol

namespace Statement

variable {r : Statement}

/-- A decimal without a fraction would be read as an integer. -/
theorem stands_of_writable (h : r.Writable)
    (hd : ∀ d : Decimal, .ofValue (.decimal d) ∈ r.yield → 1 ≤ d.scale) :
    ∀ s ∈ r.yield, s.Stands := by
  have ofExpr {s : Symbol} (hm : s ∈ r.yield) (ho : s.OfExpr) : s.Stands := by
    cases ho with
    | name name => exact Symbol.stands_name (h.name name hm)
    | operator op => exact @Symbol.stands_mark (.operator op) _ rfl
    | leftParen => exact @Symbol.stands_mark .leftParen _ rfl
    | rightParen => exact @Symbol.stands_mark .rightParen _ rfl
    | value v =>
        cases v with
        | integer n =>
            exact Symbol.stands_number (h.integer n hm) rfl
              (Token.numberValue?_integer (h.integer n hm))
        | decimal d =>
            have hs := hd d hm
            have hw : (Value.decimal d).Written := ⟨h.decimal d hm, fun hz => by omega⟩
            exact Symbol.stands_number hw rfl (Token.numberValue?_decimal (h.decimal d hm) hs)
        | string s => exact Symbol.stands_string (h.string s hm)
        | boolean b => exact Symbol.stands_boolean b
  intro s hm
  cases r with
  | expression e => exact ofExpr hm (Expr.ofExpr_of_mem_yield hm)
  | assignment name e =>
      rcases List.mem_cons.1 hm with rfl | he
      · exact ofExpr hm (.name name)
      rcases List.mem_cons.1 he with rfl | he
      · exact @Symbol.stands_mark .assign _ rfl
      · exact ofExpr hm (Expr.ofExpr_of_mem_yield he)

theorem exists_tiles_infixForm (h : ∀ s ∈ r.yield, s.Stands) :
    ∃ ts q, Token.Tiles 0 r.infixForm.toList ts q [] ∧ ts.map Token.symbol = r.yield := by
  rw [infixForm]
  cases hy : r.yield with
  | nil => exact ⟨[], 0, .nil 0 [], rfl⟩
  | cons s ss =>
      rw [hy] at h
      have hg : ∀ c ∈ ([] : List Char), Text.isBlank c = true := by simp
      exact Symbol.exists_tiles_spaced s h hg 0

theorem ofText_of_stands (limits : Limits) {s : Symbol} (h : s.Stands) {e : Expr}
    (hc : e.Canonical) (hn : e.nest = 0) (hl : e.chain = 0) (hy : e.yield = [s]) :
    ofText limits s.text = .ok (expression e) := by
  obtain ⟨t, ht, hp, ht', hs⟩ := h 0
  have h : Token.Tiles 0 s.text.toList [t] t.stop [] :=
    ht' ▸ hp ▸ .cons_adjacent ht (List.append_nil _).symm (by simp) (.nil ..)
  refine ofText_of_tiles h (by simp) hc (hn ▸ Nat.zero_le _) (hl ▸ Nat.zero_le _) ?_
  rw [List.map_singleton, hs]
  exact hy.symm

theorem ofText_of_isName (limits : Limits) {name : String} (h : Token.IsName name) :
    ofText limits name = .ok (expression (.var name)) :=
  ofText_of_stands limits (Symbol.stands_name h) trivial rfl rfl rfl

theorem ofText_of_boolean (limits : Limits) (b : Bool) :
    ofText limits (Value.boolean b).text = .ok (expression (.literal (.boolean b))) :=
  ofText_of_stands limits (Symbol.stands_boolean b) trivial rfl rfl rfl

/-- Texts say what is writable, and nothing else. What is writable, and has a fraction in each of
its decimals, is said by its symbols in a row, wherever the limits have room for it. -/
theorem ofText_infixForm (limits : Limits) :
    (∀ text r, ofText limits text = .ok r → r.Writable) ∧
    ∀ r : Statement, r.Writable →
      (∀ d : Decimal, .ofValue (.decimal d) ∈ r.yield → 1 ≤ d.scale) →
      r.expr.nest ≤ limits.maxDepth → r.expr.chain ≤ limits.maxChainLength →
        ofText limits r.infixForm = .ok r := by
  constructor
  · intro text r h
    exact writable_of_ofText h
  · intro r hw hd hn hl
    obtain ⟨ts, q, ht, hy⟩ := exists_tiles_infixForm (stands_of_writable hw hd)
    exact ofText_of_tiles ht (by simp) hw.canonical hn hl hy

theorem infixForm_of_string_and_negation :
    let d : Decimal := ⟨false, 150, 2, by decide, by decide⟩
    let r : Statement := .assignment "_é1" (.binary (.arithmetic .subtract)
      (.literal (.string "a -\n(b)")) (.unary .negate (.grouping
        (.binary (.connective .or) (.literal (.boolean true)) (.literal (.decimal d))))))
    r.infixForm = "_é1 = \"a -\n(b)\" - - ( true || 1.50 )" ∧ r.Writable ∧
      (∀ d' : Decimal, .ofValue (.decimal d') ∈ r.yield → 1 ≤ d'.scale) ∧
      r.expr.nest ≤ 2 ∧ r.expr.chain ≤ 1 ∧ ofText ⟨2, 1⟩ r.infixForm = .ok r := by
  intro d r
  have ht : r.infixForm = "_é1 = \"a -\n(b)\" - - ( true || 1.50 )" := by decide +kernel
  have hr : ofText ⟨9, 9⟩ "_é1=\"a -\n(b)\"--(true||1.50)" = .ok r := by decide +kernel
  have hw : r.Writable := (ofText_infixForm ⟨9, 9⟩).1 _ r hr
  have hd : ∀ d' : Decimal, .ofValue (.decimal d') ∈ r.yield → 1 ≤ d'.scale := by
    intro d' hm
    have hv : some (Value.decimal d') ∈ r.yield.map Symbol.literal := List.mem_map_of_mem hm
    have he : d' = d := by
      simpa [r, yield, Expr.yield, Symbol.ofValue, Symbol.ofName, Symbol.ofOperator, Symbol.assign,
        Symbol.minus, Symbol.leftParen, Symbol.rightParen] using hv
    rw [he]
    decide
  exact ⟨ht, hw, hd, by decide, by decide,
    (ofText_infixForm ⟨2, 1⟩).2 r hw hd (by decide) (by decide)⟩

end Statement

end Reckoner
