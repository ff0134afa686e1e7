import Reckoner.Proofs.DescentOperand

namespace Reckoner

namespace Descent

section

variable {limits : Limits} {tokens ts body rest : List Token} {stop calls : Nat} {s : Trail}
variable {x a : Token} {r : Except ParseError Expr}

theorem assigns_name (h : Ended ts body stop) (hd : body = x :: a :: rest)
    (hx : x.kind = .identifier) (ha : a.kind = .assign) :
    (assigns ts).run .start = some (.ok true, .start) := by
  have hl : Trail.start.here.index + 1 ≤ body.length := by
    rw [hd]
    exact Nat.le_add_left ..
  obtain ⟨t, ht, hf⟩ := h.exists_look (s := .start) 0 (Nat.zero_le _)
  obtain ⟨u, hu, hg⟩ := h.exists_look 1 hl
  rw [hd] at hf hg
  cases hf
  cases hg
  rw [assigns, run_bind_ok ht, if_pos hx, run_bind_ok hu, ha]
  rfl

theorem assigns_nothing (h : Ended ts body stop)
    (hn : ∀ x a rest, body = x :: a :: rest → ¬ (x.kind = .identifier ∧ a.kind = .assign)) :
    (assigns ts).run .start = some (.ok false, .start) := by
  obtain ⟨x, hx, hf⟩ := h.exists_look (s := .start) 0 (Nat.zero_le _)
  rw [assigns, run_bind_ok hx]
  by_cases hk : x.kind = .identifier
  · cases body with
    | nil =>
        cases hf with
        | ending he => simp [Token.isEnding, hk] at he
    | cons y rest =>
        cases hf
        obtain ⟨a, ha, hg⟩ := h.exists_look (s := .start) 1 (Nat.le_add_left ..)
        have hne : a.kind ≠ .assign := by
          cases rest with
          | nil =>
              cases hg with
              | ending he => exact fun hk => by simp [Token.isEnding, hk] at he
          | cons b rest =>
              cases hg
              exact fun hk' => hn _ _ _ rfl ⟨hk, hk'⟩
        rw [if_pos hk, run_bind_ok ha, decide_eq_false hne]
        rfl
  · rw [if_neg hk]
    rfl

structure Done (limits : Limits) (tokens body : List Token) (x : Statement) (s : Trail) : Prop where
  inside : Inside body.length s
  answer : Statement.ofTokens limits tokens = .ok x
  here : s.here = ⟨body.length, 0⟩
  pos : 0 < body.length

structure Refused (limits : Limits) (tokens body : List Token) (e : ParseError) (s : Trail) :
    Prop where
  inside : Inside body.length s
  answer : Statement.ofTokens limits tokens = .error e

theorem line_ends (h : Ended ts body stop) {wrap : Expr → Statement}
    (hm : Enough body 1 calls s) (hst : Stands limits body stop [] s r)
    (hw : Statement.ofTokens limits tokens = wrap <$> r) :
    Ends (do let e ← operand limits ts calls 1; close ts (wrap e)) s
      (Done limits tokens body) (Refused limits tokens body) := by
  have hfit : Fits body 1 s := fits_of_le (by decide) s
  refine .bind ((reads limits h 1 calls s [] r hm (Nat.le_refl 1) hfit hst).imp
    (fun e s' hb => ?_) ?_)
  · have hi := hb.inside.here.1
    have hz : s'.here.nesting = 0 := hb.nesting.trans hst.nesting
    cases hd : body.drop s'.here.index with
    | nil =>
        obtain ⟨t, ht, he, -⟩ := h.look_ending hi hd
        have hx : s'.here.index = body.length := Nat.le_antisymm hi (List.drop_eq_nil_iff.1 hd)
        have hout := hb.outcome
        rw [hd] at hout
        refine .bind_ok ht ?_
        rw [if_pos he]
        refine .pure ⟨hb.inside, ?_, ?_, ?_⟩
        · rw [hw, ← hout]
          rfl
        · rw [← hx, ← hz]
        · exact hx ▸ Nat.zero_lt_of_lt hb.index
    | cons t rest =>
        obtain ⟨ht, hne⟩ := h.look_token hd
        have hover := hb.loose
        rw [hd] at hover
        have hk : ∀ op, t.kind ≠ .operator op := fun op hk =>
          absurd (hover t rfl op hk) (Nat.not_lt.2 op.rank_pos)
        have hr : r = .error (unexpected t) :=
          (hb.outcome_cons hd).symm.trans (Progress.outcome_cons_error (Progress.step_after_nil hk))
        refine .bind_ok ht ?_
        rw [hne, if_neg nofun]
        exact .throw ⟨hb.inside, hw.trans (by rw [hr]; rfl)⟩
  · exact fun e s' he => ⟨he.1, hw.trans (by rw [he.2]; rfl)⟩

theorem statement_ends (limits : Limits) (h : Ended ts body stop)
    (hu : untilEnding tokens = (body, stop)) (hm : 7 * body.length + 5 < calls) :
    Ends (statement limits ts calls) .start (Done limits tokens body)
      (Refused limits tokens body) := by
  have hi := inside_start body.length
  by_cases hx : ∃ x a rest, body = x :: a :: rest ∧ x.kind = .identifier ∧ a.kind = .assign
  · obtain ⟨x, a, rest, hd, hx, ha⟩ := hx
    have hx₀ := h.advance_token (s := .start) hd
    have hx₁ := h.advance_token (s := Trail.start.move .next) (drop_succ_of_drop_eq_cons hd)
    have hi₁ := hi.next (lt_of_drop_eq_cons hd)
    have hi₂ := hi₁.next (lt_of_drop_eq_cons (drop_succ_of_drop_eq_cons hd))
    refine .bind_ok (assigns_name h hd hx ha) ?_
    rw [if_pos rfl]
    refine .bind_ok hx₀ (.bind_ok hx₁ ?_)
    refine line_ends h (r := Expr.ofTokens limits stop rest) (enough_of_lt hm (Nat.le_refl 1) _)
      ⟨hi₂, rfl, ?_⟩ ?_
    · rw [hd]
      rfl
    · rw [Statement.ofTokens, hu, hd]
      exact if_pos ⟨hx, ha⟩
  · have hn : ∀ x a rest, body = x :: a :: rest → ¬ (x.kind = .identifier ∧ a.kind = .assign) :=
      fun x a rest hd hk => hx ⟨x, a, rest, hd, hk⟩
    refine .bind_ok (assigns_nothing h hn) ?_
    rw [if_neg nofun]
    refine line_ends h (r := Expr.ofTokens limits stop body) (enough_of_lt hm (Nat.le_refl 1) _)
      ⟨hi, rfl, rfl⟩ ?_
    rw [Statement.ofTokens, hu]
    rcases body with _ | ⟨x, _ | ⟨a, rest⟩⟩
    · rfl
    · rfl
    · exact if_neg (hn x a rest rfl)

end

end Descent

def Token.closed (ts : List Token) : List Token :=
  if ts.getLast?.any isEnding then ts else ts ++ [ending ((ts.getLast?.map Token.stop).getD 0)]

namespace Descent

variable {ts body : List Token} {stop : Nat}

theorem Ended.untilEnding_eq (h : Ended ts body stop) : untilEnding ts = (body, stop) := by
  obtain ⟨t, more, rfl, ht, rfl⟩ := h.split
  exact untilEnding_append h.inner ht more

theorem Ended.findIdx_eq (h : Ended ts body stop) : ts.findIdx Token.isEnding = body.length := by
  obtain ⟨t, more, rfl, ht, -⟩ := h.split
  have hb : body.findIdx Token.isEnding = body.length := List.findIdx_eq_length.2 h.inner
  rw [List.findIdx_append, hb, if_neg (Nat.lt_irrefl _), List.findIdx_cons, ht]
  exact Nat.zero_add _

theorem Ended.append (h : Ended ts body stop) (more : List Token) :
    Ended (ts ++ more) body stop := by
  obtain ⟨t, rest, rfl, ht, hp⟩ := h.split
  exact ⟨⟨t, rest ++ more, by simp, ht, hp⟩, h.inner⟩

theorem Ended.of_take (h : Ended ts body stop) {others : List Token}
    (ht : others.take (body.length + 1) = ts.take (body.length + 1)) : Ended others body stop := by
  obtain ⟨t, more, rfl, he, hp⟩ := h.split
  have hd := List.take_append_drop (body.length + 1) others
  rw [ht, List.take_length_add_append] at hd
  exact ⟨⟨t, others.drop (body.length + 1), by simpa using hd.symm, he, hp⟩, h.inner⟩

/-- Reading goes up to the first ending, or up to the one that has been added. -/
theorem ended_closed (ts : List Token) :
    Ended (Token.closed ts) (untilEnding ts).1 (untilEnding ts).2 := by
  cases hf : ts.find? Token.isEnding with
  | some t =>
      obtain ⟨ht, body, more, rfl, hb⟩ := List.find?_eq_some_iff_append.1 hf
      have h : Ended (body ++ t :: more) body t.position :=
        ⟨⟨t, more, rfl, ht, rfl⟩, by simpa using hb⟩
      rw [h.untilEnding_eq, Token.closed]
      split
      · exact h
      · exact h.append _
  | none =>
      have hn : ∀ t ∈ ts, t.isEnding = false := by simpa using hf
      have hl : ts.getLast?.any Token.isEnding = false := by
        cases hl : ts.getLast? with
        | none => rfl
        | some t => exact hn t (List.mem_of_getLast? hl)
      rw [untilEnding_of_forall hn, Token.closed, hl]
      exact ⟨⟨_, [], rfl, rfl, rfl⟩, hn⟩

theorem untilEnding_closed (ts : List Token) : untilEnding (Token.closed ts) = untilEnding ts :=
  (ended_closed ts).untilEnding_eq

/-- Reading any tokens within any limits, where the first ending is at this index. -/
structure Safe (limits : Limits) (tokens : List Token) (stop : Nat) : Prop where
  /-- There is an ending to stop at. -/
  ending : stop < (Token.closed tokens).length
  /-- Reading ends with the answer of the waiting forms, if seven calls for each token may be open
  inside of one another. It has never been behind the ending nor left more than it had entered, and
  with a result it is at the ending and has left everything. -/
  ends : ∀ calls, 7 * stop + 5 < calls →
    ∃ s, (statement limits (Token.closed tokens) calls).run .start =
      some (Statement.ofTokens limits tokens, s) ∧ Inside stop s ∧
        ∀ x, Statement.ofTokens limits tokens = .ok x → s.here = ⟨stop, 0⟩ ∧ 0 < stop
  /-- At every rank and wherever it starts, an operand takes a token at least and leaves what it
  enters. -/
  operands : ∀ calls rank s, 7 * stop + 5 < calls → 1 ≤ rank → Inside stop s →
    ∃ r s', (operand limits (Token.closed tokens) calls rank).run s = some (r, s') ∧
      Inside stop s' ∧
        ∀ e, r = .ok e → s'.here.nesting = s.here.nesting ∧ s.here.index < s'.here.index
  /-- Nothing behind the ending makes a difference. -/
  determined : ∀ others,
    (Token.closed others).take (stop + 1) = (Token.closed tokens).take (stop + 1) →
      Statement.ofTokens limits others = Statement.ofTokens limits tokens

theorem safe (limits : Limits) (tokens : List Token) :
    Safe limits tokens ((Token.closed tokens).findIdx Token.isEnding) := by
  have h := ended_closed tokens
  rw [h.findIdx_eq]
  refine ⟨?_, ?_, ?_, ?_⟩
  · obtain ⟨t, more, hs, -⟩ := h.split
    rw [hs, List.length_append, List.length_cons]
    omega
  · intro calls hm
    rcases statement_ends limits h rfl hm with ⟨x, s, hrun, hx⟩ | ⟨e, s, hrun, he⟩
    · exact ⟨s, hx.answer ▸ hrun, hx.inside, fun _ _ => ⟨hx.here, hx.pos⟩⟩
    · exact ⟨s, he.answer ▸ hrun, he.inside, fun _ hx => nomatch he.answer.symm.trans hx⟩
  · intro calls rank s hm hr hs
    rcases operand_ends limits h hr (enough_of_lt hm hr s) hs with
      ⟨e, s', hrun, hb⟩ | ⟨e, s', hrun, hb⟩
    · exact ⟨.ok e, s', hrun, hb.inside, fun _ _ => ⟨hb.nesting, hb.index⟩⟩
    · exact ⟨.error e, s', hrun, hb, nofun⟩
  · intro others ho
    have hu : untilEnding others = untilEnding tokens := by
      rw [← untilEnding_closed others, (h.of_take ho).untilEnding_eq]
    rw [Statement.ofTokens, Statement.ofTokens, hu]

theorem parenthesis_behind_ending :
    Statement.ofTokens ⟨0, 0⟩
        [⟨.identifier, "x", 0, none⟩, .ending 1, ⟨.leftParen, "(", 1, none⟩] =
      .ok (.expression (.var "x")) :=
  ((safe ⟨0, 0⟩ [⟨.identifier, "x", 0, none⟩, .ending 1]).determined _ (by decide)).trans rfl

end Descent

end Reckoner
