import Reckoner.Proofs.Grammar
import Reckoner.Proofs.ParseSpelling
import Reckoner.Proofs.Tiling

namespace Reckoner

namespace Token

theorem tokenKind_of_numberValue? {cs : List Char} {v : Value} (h : numberValue? cs = some v) :
    v.kind.tokenKind = .number := by
  unfold numberValue? at h
  split at h
  · obtain ⟨i, _, rfl⟩ := Option.map_eq_some_iff.1 h
    rfl
  split at h
  · obtain ⟨d, _, rfl⟩ := Option.map_eq_some_iff.1 h
    rfl
  · cases h

theorem proper_of_formed {t : Token} (ht : t.Formed) : t.Proper := by
  cases ht with
  | @number c cs v hd hc hv p =>
      refine ⟨v, ?_⟩
      rw [Symbol.ofValue, tokenKind_of_numberValue? hv]
      rfl
  | @string content hq p => exact ⟨.string (String.ofList content), rfl⟩
  | @word c cs hs hc p =>
      rcases word_eq p (c :: cs) with ⟨_, h⟩ | ⟨_, h⟩ | ⟨_, _, h⟩ <;> rw [h]
      · exact ⟨.boolean true, rfl⟩
      · exact ⟨.boolean false, rfl⟩
      · rfl
  | @mark k lexeme hk p =>
      cases k with
      | number | string | boolean | identifier | endOfInput => cases hk
      | operator | leftParen | rightParen | assign => rfl

theorem exists_of_tokenize {text : String} {tokens : List Token} (h : tokenize text = .ok tokens) :
    ∃ body p, tokens = body ++ [ending p] ∧ ∀ t ∈ body, t.Formed := by
  rcases scan_cases text with ⟨ts, q, gap, ht, _, hs⟩ | ⟨ts, q, gap, c, cs, e, _, _, _, _, hs⟩
  · rw [tokenize_of_ok hs] at h
    cases h
    exact ⟨ts, _, rfl, ht.formed⟩
  · rw [tokenize_of_error hs] at h
    cases h

end Token

theorem Expr.ofTokens_eq_ok_iff {limits : Limits} {ts : List Token} (ht : ∀ t ∈ ts, t.Proper)
    (hd : ts.length ≤ limits.maxDepth) (hl : ts.length ≤ limits.maxChainLength) (stop : Nat)
    (e : Expr) : Expr.ofTokens limits stop ts = .ok e ↔
      e.Canonical ∧ e.yield = ts.map Token.symbol := by
  refine ⟨canonical_of_ofTokens ht, ?_⟩
  rintro ⟨hc, hy⟩
  have hlen : e.yield.length = ts.length := by rw [hy, List.length_map]
  have hn := e.nest_le_length
  have hr := e.chain_le_length
  exact ofTokens_of_yield hc (by omega) (by omega) stop hy.symm

namespace Statement

theorem ofTokens_assignment {x a : Token} {rest : List Token} {p : Nat} (limits : Limits)
    (hb : ∀ t ∈ x :: a :: rest, t.isEnding = false) (hx : x.kind = .identifier)
    (ha : a.kind = .assign) :
    ofTokens limits (x :: a :: rest ++ [Token.ending p]) =
      assignment x.lexeme <$> Expr.ofTokens limits p rest := by
  have hu : untilEnding (x :: a :: rest ++ [Token.ending p]) = (x :: a :: rest, p) :=
    untilEnding_append hb rfl []
  rw [ofTokens, hu]
  simp [hx, ha]

theorem ofTokens_expression {body : List Token} {p : Nat} (limits : Limits)
    (hb : ∀ t ∈ body, t.isEnding = false)
    (hn : ∀ x a rest, body = x :: a :: rest → ¬ (x.kind = .identifier ∧ a.kind = .assign)) :
    ofTokens limits (body ++ [Token.ending p]) = expression <$> Expr.ofTokens limits p body := by
  have hu : untilEnding (body ++ [Token.ending p]) = (body, p) := untilEnding_append hb rfl []
  rw [ofTokens, hu]
  match body, hn with
  | [], _ | [_], _ => rfl
  | x :: a :: rest, hn => simp only [hn x a rest rfl, if_false]

theorem exists_of_assignment_yield {name : String} {e : Expr} {body : List Token}
    (hy : (assignment name e).yield = body.map Token.symbol) :
    ∃ x a rest, body = x :: a :: rest ∧ x.kind = .identifier ∧ a.kind = .assign := by
  rcases body with _ | ⟨x, _ | ⟨a, rest⟩⟩
  · simp [yield] at hy
  · simp [yield] at hy
  · simp only [yield, List.map_cons, List.cons.injEq] at hy
    exact ⟨x, a, rest, rfl, congrArg Symbol.kind hy.1.symm, congrArg Symbol.kind hy.2.1.symm⟩

section

variable {limits : Limits} {body : List Token} (ht : ∀ t ∈ body, t.Formed)
  (hd : body.length ≤ limits.maxDepth) (hl : body.length ≤ limits.maxChainLength)

include ht hd hl

theorem ofTokens_eq_ok_iff (p : Nat) (r : Statement) :
    ofTokens limits (body ++ [Token.ending p]) = .ok r ↔
      r.expr.Canonical ∧ r.yield = body.map Token.symbol := by
  have hb : ∀ t ∈ body, t.isEnding = false := fun t h => Token.isEnding_of_formed (ht t h)
  have hp : ∀ t ∈ body, t.Proper := fun t h => Token.proper_of_formed (ht t h)
  by_cases h : ∃ x a rest, body = x :: a :: rest ∧ x.kind = .identifier ∧ a.kind = .assign
  · obtain ⟨x, a, rest, rfl, hx, ha⟩ := h
    simp only [List.length_cons] at hd hl
    have hr : ∀ t ∈ rest, t.Proper := fun t h => hp t (by simp [h])
    have he := Expr.ofTokens_eq_ok_iff hr (Nat.le_of_succ_le (Nat.le_of_succ_le hd))
      (Nat.le_of_succ_le (Nat.le_of_succ_le hl)) p
    have hsx : x.symbol = .ofName x.lexeme := Token.symbol_of_identifier (hp x (by simp)) hx
    have hsa : a.symbol = .assign := Token.symbol_of_isMark (hp a (by simp)) ha rfl
    rw [ofTokens_assignment limits hb hx ha, map_eq_ok_iff, List.map_cons, List.map_cons, hsx, hsa]
    constructor
    · rintro ⟨e, h, rfl⟩
      obtain ⟨hc, hy⟩ := (he e).1 h
      exact ⟨hc, by rw [yield, hy]⟩
    · rintro ⟨hc, hy⟩
      cases r with
      | expression e =>
          have hm : Symbol.assign ∈ (expression e).yield := by simp [hy]
          exact absurd rfl (Expr.kind_ne_assign_of_mem_yield hm)
      | assignment name e =>
          simp only [yield, List.cons.injEq, Symbol.ofName, Symbol.mk.injEq] at hy
          exact ⟨e, (he e).2 ⟨hc, hy.2.2⟩, by rw [hy.1.2.1]⟩
  · have hn : ∀ x a rest, body = x :: a :: rest → ¬ (x.kind = .identifier ∧ a.kind = .assign) :=
      fun x a rest hb hk => h ⟨x, a, rest, hb, hk⟩
    have he := Expr.ofTokens_eq_ok_iff hp hd hl p
    rw [ofTokens_expression limits hb hn, map_eq_ok_iff]
    constructor
    · rintro ⟨e, h, rfl⟩
      exact (he e).1 h
    · rintro ⟨hc, hy⟩
      cases r with
      | expression e => exact ⟨e, (he e).2 ⟨hc, hy⟩, rfl⟩
      | assignment name e => exact absurd (exists_of_assignment_yield hy) h

end

/-- The lines that are read are those of the grammar, each as the one canonical statement that it
spells. -/
theorem ofTokens_iff_sentence {text : String} {tokens : List Token} {limits : Limits}
    (h : Token.tokenize text = .ok tokens) (hd : tokens.length ≤ limits.maxDepth)
    (hl : tokens.length ≤ limits.maxChainLength) :
    (∀ r, ofTokens limits tokens = .ok r ↔
      r.expr.Canonical ∧ r.yield ++ [.endOfInput] = tokens.map Token.symbol) ∧
    ((∃ r, ofTokens limits tokens = .ok r) ↔ Sentence (tokens.dropLast.map Token.symbol)) := by
  obtain ⟨body, p, rfl, ht⟩ := Token.exists_of_tokenize h
  rw [List.length_append] at hd hl
  have hi := ofTokens_eq_ok_iff ht (Nat.le_of_add_right_le hd) (Nat.le_of_add_right_le hl) p
  constructor
  · intro r
    rw [hi, List.map_append]
    exact and_congr_right fun _ => (List.append_left_inj _).symm
  · rw [List.dropLast_concat, sentence_iff]
    exact exists_congr hi

theorem product_in_sum :
    let one : Value := .integer ⟨1, by decide⟩
    let two : Value := .integer ⟨2, by decide⟩
    let tokens : List Token := [⟨.identifier, "x", 0, none⟩, ⟨.assign, "=", 2, none⟩,
      ⟨.number, "1", 4, some one⟩, ⟨.operator (.arithmetic .add), "+", 6, none⟩,
      ⟨.number, "2", 8, some two⟩, ⟨.operator (.arithmetic .multiply), "*", 10, none⟩,
      ⟨.identifier, "y", 12, none⟩, .ending 13]
    Token.tokenize "x = 1 + 2 * y" = .ok tokens ∧ tokens.length ≤ 8 ∧
      ofTokens ⟨8, 8⟩ tokens = .ok (.assignment "x" (.binary (.arithmetic .add) (.literal one)
        (.binary (.arithmetic .multiply) (.literal two) (.var "y")))) ∧
      Sentence (tokens.dropLast.map Token.symbol) := by
  intro one two tokens
  have ht : Token.tokenize "x = 1 + 2 * y" = .ok tokens := by decide +kernel
  have hlen : tokens.length ≤ 8 := by decide
  obtain ⟨hr, hs⟩ := @ofTokens_iff_sentence _ _ ⟨8, 8⟩ ht hlen hlen
  have hok := (hr (.assignment "x" (.binary (.arithmetic .add) (.literal one)
    (.binary (.arithmetic .multiply) (.literal two) (.var "y"))))).2 (by decide)
  exact ⟨ht, hlen, hok, hs.1 ⟨_, hok⟩⟩

end Statement

end Reckoner
