import Reckoner.Proofs.Decomposition
import Reckoner.Proofs.ParseGrammar
import Reckoner.Proofs.ViablePrefix

namespace Reckoner

theorem sentence_assignment_iff {name : String} {s : List Symbol} :
    Sentence (.ofName name :: .assign :: s) ↔ Phrase 1 s := by
  constructor
  · intro h
    cases h with
    | assignment name hs => exact hs
    | expression hs =>
        obtain ⟨e, _, hy⟩ := phrase_iff.1 hs
        have hm : Symbol.assign ∈ e.yield := by simp [hy]
        exact absurd rfl (Expr.kind_ne_assign_of_mem_yield hm)
  · exact .assignment name

namespace Token

def NoAssignment (ts : List Token) : Prop :=
  ∀ x a rest, ts = x :: a :: rest → ¬ (x.kind = .identifier ∧ a.kind = .assign)

theorem noAssignment_or {body : List Token} (ht : ∀ t ∈ body, t.Formed) : NoAssignment body ∨
    ∃ x a rest, body = x :: a :: rest ∧ (x.kind = .identifier ∧ x.symbol = .ofName x.lexeme) ∧
      a.kind = .assign ∧ a.symbol = .assign := by
  by_cases h : ∃ x a rest, body = x :: a :: rest ∧ x.kind = .identifier ∧ a.kind = .assign
  · obtain ⟨x, a, rest, rfl, hx, ha⟩ := h
    refine .inr ⟨x, a, rest, rfl, ⟨hx, ?_⟩, ha, ?_⟩
    · exact symbol_of_identifier (proper_of_formed (ht x (by simp))) hx
    · exact symbol_of_isMark (proper_of_formed (ht a (by simp))) ha rfl
  · exact .inl fun x a rest hb hk => h ⟨x, a, rest, hb, hk⟩

end Token

/-- Such tokens begin an assignment only as long as they are fewer than these two. -/
theorem Statement.exists_of_yield {r : Statement} {us vs : List Token} {more : List Symbol}
    (hn : Token.NoAssignment (us ++ vs))
    (h : r.yield = us.map Token.symbol ++ more) :
    (∃ e, r = expression e) ∨ (us = [] ∧ ∃ name, more.head? = some (.ofName name)) ∨
      (∃ x name, us = [x] ∧ x.symbol = .ofName name ∧ more.head? = some .assign) := by
  cases r with
  | expression e => exact .inl ⟨e, rfl⟩
  | assignment name e =>
      right
      rw [yield] at h
      rcases us with _ | ⟨x, _ | ⟨a, us⟩⟩
      · rw [List.map_nil, List.nil_append] at h
        exact .inl ⟨rfl, name, by rw [← h]; rfl⟩
      · simp only [List.map_cons, List.map_nil, List.cons_append, List.nil_append,
          List.cons.injEq] at h
        exact .inr ⟨x, name, rfl, h.1.symm, by rw [← h.2]; rfl⟩
      · simp only [List.map_cons, List.cons_append, List.cons.injEq] at h
        have hx : x.kind = .identifier := congrArg Symbol.kind h.1.symm
        have ha : a.kind = .assign := congrArg Symbol.kind h.2.1.symm
        exact absurd ⟨hx, ha⟩ (hn x a (us ++ vs) rfl)

theorem phrase_of_sentence {us vs : List Token} {more : List Symbol}
    (hn : Token.NoAssignment (us ++ vs))
    (h : Sentence (us.map Token.symbol ++ more)) :
    Phrase 1 (us.map Token.symbol ++ more) ∨
      (us = [] ∧ ∃ name, more.head? = some (.ofName name)) ∨
      (∃ x name, us = [x] ∧ x.symbol = .ofName name ∧ more.head? = some .assign) := by
  obtain ⟨r, hc, hy⟩ := sentence_iff.1 h
  refine (Statement.exists_of_yield hn hy).imp_left ?_
  rintro ⟨e, rfl⟩
  exact phrase_iff.2 ⟨e, hc, hy⟩

theorem split_cases {α : Type} {us vs us' vs' : List α} {t t' : α}
    (h : us ++ t :: vs = us' ++ t' :: vs') :
    (us = us' ∧ t = t') ∨ (∃ more, us' = us ++ t :: more) ∨ ∃ more, us = us' ++ t' :: more := by
  rcases List.append_eq_append_iff.1 h with ⟨more, rfl, hm⟩ | ⟨more, rfl, hm⟩
  · cases more with
    | nil => exact .inl ⟨by simp, (List.cons.inj hm).1⟩
    | cons u more =>
        obtain rfl : t = u := (List.cons.inj hm).1
        exact .inr (.inl ⟨more, rfl⟩)
  · cases more with
    | nil => exact .inl ⟨by simp, (List.cons.inj hm).1.symm⟩
    | cons u more =>
        obtain rfl : t' = u := (List.cons.inj hm).1
        exact .inr (.inr ⟨more, rfl⟩)

theorem Viable.of_split {accepts : List Symbol → Prop} {us more : List Token} {t : Token}
    (h : Viable accepts ((us ++ t :: more).map Token.symbol)) :
    Viable accepts ((us ++ [t]).map Token.symbol) := by
  rw [List.append_cons, List.map_append] at h
  exact h.of_append

namespace Verdict

section

variable {stop : Nat} {ts : List Token} {x : Except ParseError Expr}

theorem expression (hn : Token.NoAssignment ts) (h : Verdict (Phrase 1) stop ts x) :
    Verdict Sentence stop ts (Statement.expression <$> x) := by
  have hn' : Token.NoAssignment (ts ++ []) := by simpa using hn
  have hs (hp : ¬ Phrase 1 (ts.map Token.symbol)) : ¬ Sentence (ts.map Token.symbol) := by
    intro h
    rw [← List.append_nil (ts.map Token.symbol)] at h
    rcases phrase_of_sentence hn' h with h | ⟨_, name, h⟩ | ⟨x, name, _, _, h⟩
    · exact hp (by simpa using h)
    · cases h
    · cases h
  cases h with
  | accepted e h => exact .accepted _ (.expression h)
  | @wrong us vs t hts hu ht =>
      obtain ⟨more, hm⟩ := hu
      refine .wrong hts ⟨more, .expression hm⟩ ?_
      rintro ⟨more, hm⟩
      have hn'' : Token.NoAssignment ((us ++ [t]) ++ vs) := by simpa [hts] using hn
      rcases phrase_of_sentence hn'' hm with h | ⟨h, _⟩ | ⟨x, name, h, hx, _⟩
      · exact ht ⟨more, h⟩
      · simp at h
      · refine ht ⟨[], ?_⟩
        rw [h, List.append_nil, List.map_cons, hx]
        exact (Phrase.name name).lower_le (Nat.le_refl 1) (by decide) (by decide)
  | incomplete hp hv hc =>
      obtain ⟨more, hm⟩ := hv
      refine .incomplete (hs hp) ⟨more, .expression hm⟩ ?_
      rintro ⟨k, hk, h⟩
      obtain ⟨k, rfl⟩ := Nat.exists_eq_succ_of_ne_zero (Nat.ne_of_gt hk)
      rcases phrase_of_sentence hn' h with h | ⟨_, name, h⟩ | ⟨x, name, _, _, h⟩
      · exact hc ⟨k + 1, hk, h⟩
      · cases h
      · cases h
  | unclosed hp hc ho =>
      obtain ⟨k, hk, h⟩ := hc
      exact .unclosed (hs hp) ⟨k, hk, .expression h⟩ ho

theorem assignment {n a : Token} (hn : n.symbol = .ofName n.lexeme) (ha : a.symbol = .assign)
    (h : Verdict (Phrase 1) stop ts x) :
    Verdict Sentence stop (n :: a :: ts) (Statement.assignment n.lexeme <$> x) := by
  have hs (us : List Token) (more : List Symbol) :
      Sentence ((n :: a :: us).map Token.symbol ++ more) ↔
        Phrase 1 (us.map Token.symbol ++ more) := by
    rw [List.map_cons, List.map_cons, hn, ha]
    exact sentence_assignment_iff
  have hs' : Sentence ((n :: a :: ts).map Token.symbol) ↔ Phrase 1 (ts.map Token.symbol) := by
    simpa using hs ts []
  cases h with
  | accepted e h => exact .accepted _ (hs'.2 h)
  | @wrong us vs t hts hu ht =>
      have hts' : n :: a :: ts = (n :: a :: us) ++ t :: vs := by rw [hts]; rfl
      refine .wrong hts' ?_ ?_
      · exact hu.imp fun more h => (hs us more).2 h
      · exact fun hv => ht (hv.imp fun more h => (hs (us ++ [t]) more).1 h)
  | incomplete hp hv hc =>
      refine .incomplete (mt hs'.1 hp) (hv.imp fun more h => (hs ts more).2 h) ?_
      exact fun ⟨k, hk, h⟩ => hc ⟨k, hk, (hs ts _).1 h⟩
  | unclosed hp hc ho =>
      obtain ⟨k, hk, h⟩ := hc
      refine .unclosed (mt hs'.1 hp) ⟨k, hk, (hs ts _).2 h⟩ ?_
      have hkn : n.kind = .identifier := congrArg Symbol.kind hn
      have hka : a.kind = .assign := congrArg Symbol.kind ha
      simpa [Token.openings, Token.track, hkn, hka] using ho

end

section

variable {α : Type} {accepts : List Symbol → Prop} {stop : Nat} {ts : List Token}
  {x : Except ParseError α} (h : Verdict accepts stop ts x)

include h

theorem wrong_iff (hp : ts.Pairwise fun t u => t.position < u.position) {us vs : List Token}
    {t : Token} (hs : ts = us ++ t :: vs) :
    x = .error (.unexpectedToken t.lexeme t.position) ↔
      Viable accepts (us.map Token.symbol) ∧ ¬ Viable accepts ((us ++ [t]).map Token.symbol) := by
  have hall (ha : Viable accepts (ts.map Token.symbol)) :
      Viable accepts ((us ++ [t]).map Token.symbol) := by
    rw [hs] at ha
    exact ha.of_split
  cases h with
  | accepted a h => exact ⟨nofun, fun hv => absurd (hall ⟨[], by simpa using h⟩) hv.2⟩
  | incomplete hn hv hc => exact ⟨nofun, fun hw => absurd (hall hv) hw.2⟩
  | unclosed hn hc ho =>
      obtain ⟨k, _, hk⟩ := hc
      exact ⟨nofun, fun hw => absurd (hall ⟨_, hk⟩) hw.2⟩
  | @wrong us' vs' t' hs' hu ht =>
      -- Up to the first wrong token all can go on, and with it nothing can.
      rcases split_cases (hs.symm.trans hs') with ⟨rfl, rfl⟩ | ⟨more, rfl⟩ | ⟨more, rfl⟩
      · exact ⟨fun _ => ⟨hu, ht⟩, fun _ => rfl⟩
      · have hlt : t.position < t'.position := by
          rw [hs'] at hp
          exact (List.pairwise_append.1 hp).2.2 t (by simp) t' (by simp)
        constructor
        · intro he
          simp only [unexpected, Except.error.injEq, ParseError.unexpectedToken.injEq] at he
          omega
        · exact fun hw => absurd hu.of_split hw.2
      · have hlt : t'.position < t.position := by
          rw [hs] at hp
          exact (List.pairwise_append.1 hp).2.2 t' (by simp) t (by simp)
        constructor
        · intro he
          simp only [unexpected, Except.error.injEq, ParseError.unexpectedToken.injEq] at he
          omega
        · exact fun hw => absurd hw.1.of_split ht

theorem exists_of_unexpectedToken {found : String} {position : Nat}
    (hx : x = .error (.unexpectedToken found position)) :
    ∃ t ∈ ts, found = t.lexeme ∧ position = t.position := by
  cases h with
  | accepted | incomplete | unclosed => cases hx
  | @wrong us vs t hs hu ht =>
      cases hx
      exact ⟨t, by simp [hs], rfl, rfl⟩

theorem unfinished_iff :
    (∃ p, x = .error (.unexpectedEnd p) ∨ x = .error (.unmatchedParenthesis p)) ↔
      ¬ accepts (ts.map Token.symbol) ∧ Viable accepts (ts.map Token.symbol) := by
  cases h with
  | accepted a h => exact ⟨nofun, fun hn => absurd h hn.1⟩
  | @wrong us vs t hs hu ht =>
      refine ⟨nofun, fun hv => absurd ?_ ht⟩
      rw [hs] at hv
      exact hv.2.of_split
  | incomplete hn hv hc => exact ⟨fun _ => ⟨hn, hv⟩, fun _ => ⟨stop, .inl rfl⟩⟩
  | @unclosed position hn hc ho =>
      obtain ⟨k, _, hk⟩ := hc
      exact ⟨fun _ => ⟨hn, _, hk⟩, fun _ => ⟨position, .inr rfl⟩⟩

theorem unclosed_iff : (∃ p, x = .error (.unmatchedParenthesis p)) ↔
    ¬ accepts (ts.map Token.symbol) ∧ Closable accepts (ts.map Token.symbol) := by
  cases h with
  | accepted a h => exact ⟨nofun, fun hn => absurd h hn.1⟩
  | @wrong us vs t hs hu ht =>
      refine ⟨nofun, fun ⟨_, k, _, hk⟩ => absurd ?_ ht⟩
      have hv : Viable accepts (ts.map Token.symbol) := ⟨_, hk⟩
      rw [hs] at hv
      exact hv.of_split
  | incomplete hn hv hc => exact ⟨nofun, fun hn => absurd hn.2 hc⟩
  | @unclosed position hn hc ho => exact ⟨fun _ => ⟨hn, hc⟩, fun _ => ⟨position, rfl⟩⟩

theorem openings_of_unclosed {position : Nat}
    (hx : x = .error (.unmatchedParenthesis position)) :
    (Token.openings ts).head? = some position := by
  cases h with
  | accepted | wrong | incomplete => cases hx
  | unclosed hn hc ho =>
      cases hx
      exact ho

theorem eq_stop_of_unexpectedEnd {position : Nat} (hx : x = .error (.unexpectedEnd position)) :
    position = stop := by
  cases h with
  | accepted | wrong | unclosed => cases hx
  | incomplete => cases hx; rfl

end

end Verdict

theorem Token.ordered_of_tokenize {text : String} {tokens : List Token}
    (h : tokenize text = .ok tokens) : ∃ body, tokens = body ++ [ending text.utf8ByteSize] ∧
      (∀ t ∈ body, t.Formed) ∧ body.Pairwise fun t u => t.position < u.position := by
  rcases scan_cases text with ⟨ts, q, gap, ht, _, hs⟩ | ⟨ts, q, gap, c, cs, e, _, _, _, _, hs⟩
  · rw [tokenize_of_ok hs, Text.width_toList] at h
    cases h
    refine ⟨ts, rfl, ht.formed, ht.pairwise.imp_of_mem fun hm _ hle => ?_⟩
    exact Nat.lt_of_lt_of_le (position_lt_stop (ht.formed _ hm)) hle
  · rw [tokenize_of_error hs] at h
    cases h

namespace Statement

theorem verdict_ofTokens {limits : Limits} {body : List Token} (ht : ∀ t ∈ body, t.Formed)
    (hd : body.length ≤ limits.maxDepth) (hl : body.length ≤ limits.maxChainLength) (p : Nat) :
    Verdict Sentence p body (ofTokens limits (body ++ [Token.ending p])) := by
  have hb : ∀ t ∈ body, t.isEnding = false := fun t h => Token.isEnding_of_formed (ht t h)
  have hp : ∀ t ∈ body, t.Proper := fun t h => Token.proper_of_formed (ht t h)
  rcases Token.noAssignment_or ht with hn | ⟨x, a, rest, rfl, ⟨hx, hsx⟩, ha, hsa⟩
  · rw [ofTokens_expression limits hb hn, Expr.ofTokens_eq_read hd hl]
    exact (Expr.verdict_read hp p).expression hn
  · simp only [List.length_cons] at hd hl
    rw [ofTokens_assignment limits hb hx ha,
      Expr.ofTokens_eq_read (Nat.le_of_succ_le (Nat.le_of_succ_le hd))
        (Nat.le_of_succ_le (Nat.le_of_succ_le hl))]
    exact (Expr.verdict_read (fun t ht => hp t (by simp [ht])) p).assignment hsx hsa

/-- An error says what is wrong with a text. It names the first token that no line has there; or, if
more is missing behind the last one, the innermost open parenthesis where closing ones are all that
is missing, and the end of the text otherwise. -/
theorem ofTokens_error_iff_viable {text : String} {tokens : List Token} {limits : Limits}
    (h : Token.tokenize text = .ok tokens) (hd : tokens.dropLast.length ≤ limits.maxDepth)
    (hl : tokens.dropLast.length ≤ limits.maxChainLength) :
    let body := tokens.dropLast
    let symbols := body.map Token.symbol
    (∀ us t vs, body = us ++ t :: vs →
      (ofTokens limits tokens = .error (.unexpectedToken t.lexeme t.position) ↔
        Viable Sentence (us.map Token.symbol) ∧
          ¬ Viable Sentence ((us ++ [t]).map Token.symbol))) ∧
    (∀ found position, ofTokens limits tokens = .error (.unexpectedToken found position) →
      ∃ t ∈ body, found = t.lexeme ∧ position = t.position) ∧
    ((∃ p, ofTokens limits tokens = .error (.unexpectedEnd p) ∨
      ofTokens limits tokens = .error (.unmatchedParenthesis p)) ↔
        ¬ Sentence symbols ∧ Viable Sentence symbols) ∧
    ((∃ p, ofTokens limits tokens = .error (.unmatchedParenthesis p)) ↔
      ¬ Sentence symbols ∧ Closable Sentence symbols) ∧
    (∀ p, ofTokens limits tokens = .error (.unmatchedParenthesis p) →
      (Token.openings body).head? = some p) ∧
    (∀ p, ofTokens limits tokens = .error (.unexpectedEnd p) → p = text.utf8ByteSize) := by
  obtain ⟨body, rfl, hf, hp⟩ := Token.ordered_of_tokenize h
  rw [List.dropLast_concat] at hd hl ⊢
  have hv := verdict_ofTokens hf hd hl text.utf8ByteSize
  exact ⟨fun _ _ _ hs => hv.wrong_iff hp hs, fun _ _ => hv.exists_of_unexpectedToken,
    hv.unfinished_iff, hv.unclosed_iff, fun _ => hv.openings_of_unclosed,
    fun _ => hv.eq_stop_of_unexpectedEnd⟩

theorem second_equals_sign_and_open_parentheses :
    let limits : Limits := ⟨3, 3⟩
    let b : Token := ⟨.assign, "=", 4, none⟩
    let twice : List Token := [⟨.identifier, "x", 0, none⟩, ⟨.assign, "=", 2, none⟩, b, .ending 5]
    let opened : List Token := [⟨.leftParen, "(", 0, none⟩, ⟨.leftParen, "(", 1, none⟩,
      ⟨.identifier, "x", 2, none⟩, .ending 3]
    Token.tokenize "x = =" = .ok twice ∧
      ofTokens limits twice = .error (.unexpectedToken "=" 4) ∧
      Viable Sentence [.ofName "x", .assign] ∧
      ¬ Viable Sentence [.ofName "x", .assign, .assign] ∧
    Token.tokenize "((x" = .ok opened ∧
      ofTokens limits opened = .error (.unmatchedParenthesis 1) ∧
      Closable Sentence [.leftParen, .leftParen, .ofName "x"] := by
  intro limits b twice opened
  have ht : Token.tokenize "x = =" = .ok twice := by decide +kernel
  have ho : Token.tokenize "((x" = .ok opened := by decide +kernel
  have het : ofTokens limits twice = .error (.unexpectedToken "=" 4) := by decide +kernel
  have heo : ofTokens limits opened = .error (.unmatchedParenthesis 1) := by decide +kernel
  obtain ⟨hw, _⟩ := @ofTokens_error_iff_viable _ _ limits ht (by decide) (by decide)
  obtain ⟨_, _, _, hc, _⟩ := @ofTokens_error_iff_viable _ _ limits ho (by decide) (by decide)
  obtain ⟨hv, hn⟩ := (hw [⟨.identifier, "x", 0, none⟩, ⟨.assign, "=", 2, none⟩] b [] rfl).1 het
  exact ⟨ht, het, hv, hn, ho, heo, (hc.1 ⟨1, heo⟩).2⟩

end Statement

end Reckoner
