import Reckoner.Proofs.Descent
import Reckoner.Proofs.ParseYield

namespace Reckoner

namespace Progress

/-- What the waiting forms come to with the rest of the tokens. -/
def outcome (limits : Limits) (stop : Nat) (p : Progress) (ts : List Token) :
    Except ParseError Expr := do
  (← ts.foldlM (step limits) p).finish stop

def Over (rank : Nat) (ts : List Token) : Prop :=
  ∀ t ∈ ts.head?, ∀ op, t.kind = .operator op → op.rank < rank

theorem over_of_four_lt {rank : Nat} (h : 4 < rank) (ts : List Token) : Over rank ts :=
  fun _ _ op _ => Nat.lt_of_le_of_lt op.rank_le h

section

variable {limits : Limits} {stop : Nat} {p q : Progress} {t : Token} {ts : List Token}

theorem outcome_nil : outcome limits stop p [] = p.finish stop := rfl

theorem outcome_cons (h : step limits p t = .ok q) :
    outcome limits stop p (t :: ts) = outcome limits stop q ts := by
  rw [outcome, List.foldlM_cons, h]
  rfl

theorem outcome_cons_error {e : ParseError} (h : step limits p t = .error e) :
    outcome limits stop p (t :: ts) = .error e := by
  rw [outcome, List.foldlM_cons, h]
  rfl

variable {k n number : Nat} {op : BinaryOperator} {fs : List Frame} {left right e : Expr}

theorem join_operation (h : k < op.rank) : join k (.operation op left number :: fs) right n =
    join k fs (.binary op left right) n := by
  rw [join, if_neg (Nat.lt_asymm h), if_neg (Nat.ne_of_gt h)]

theorem step_after_operation (h : ∀ o, t.kind = .operator o → o.rank < op.rank) :
    step limits (after (.operation op left number :: fs) right) t =
      step limits (after fs (.binary op left right)) t := by
  cases hk : t.kind with
  | operator o => simp only [step, stepAfter, hk, join_operation (h o hk)]
  | rightParen => simp only [step, stepAfter, hk, join_operation op.rank_pos]
  | number | string | boolean | identifier | leftParen | assign | endOfInput =>
      simp only [step, stepAfter, hk]

theorem outcome_after_operation (h : Over op.rank ts) :
    outcome limits stop (after (.operation op left number :: fs) right) ts =
      outcome limits stop (after fs (.binary op left right)) ts := by
  cases ts with
  | nil => simp only [outcome_nil, finish, join_operation op.rank_pos]
  | cons t ts =>
      rw [outcome, outcome, List.foldlM_cons, List.foldlM_cons, step_after_operation (h t rfl)]

theorem step_after_nil (h : ∀ op, t.kind ≠ .operator op) :
    step limits (after [] e) t = .error (unexpected t) := by
  cases hk : t.kind with
  | operator op => exact absurd hk (h op)
  | rightParen => simp only [step, stepAfter, hk, join]
  | number | string | boolean | identifier | leftParen | assign | endOfInput =>
      simp only [step, stepAfter, hk]

end

end Progress

namespace Descent

open Progress

section

variable (limits : Limits) (body : List Token) (stop rank : Nat)

/-- In front of an operand: the waiting forms are those that the descent has entered, and this is
what they come to. -/
structure Stands (fs : List Frame) (s : Trail) (r : Except ParseError Expr) : Prop where
  inside : Inside body.length s
  nesting : s.here.nesting = fs.countP Frame.nests
  outcome : outcome limits stop (before fs) (body.drop s.here.index) = r

/-- Behind an operand of the rank: it has taken a token at least and left all that it had entered,
and with it the waiting forms still come to the same. -/
structure Behind (c : Cursor) (r : Except ParseError Expr) (p : Progress) (s : Trail) : Prop where
  inside : Inside body.length s
  nesting : s.here.nesting = c.nesting
  index : c.index < s.here.index
  loose : Over rank (body.drop s.here.index)
  outcome : outcome limits stop p (body.drop s.here.index) = r

def Fails (r : Except ParseError Expr) (e : ParseError) (s : Trail) : Prop :=
  Inside body.length s ∧ r = .error e

def Fits (s : Trail) : Prop :=
  5 < rank → ∀ t ∈ (body.drop s.here.index).head?, t.kind ≠ .operator (.arithmetic .subtract)

/-- So many calls are enough for an operand of the rank: seven for each token that is left, and one
for each rank above. -/
def Enough (calls : Nat) (s : Trail) : Prop :=
  7 * (body.length - s.here.index) + (6 - rank) < calls

/-- Behind any forms that can take it, an operand of the rank is read as they take it. -/
def Reads (ts : List Token) (calls : Nat) : Prop :=
  ∀ s fs r, Enough body rank calls s → floor fs ≤ rank → Fits body rank s →
    Stands limits body stop fs s r → Ends (operand limits ts calls rank) s
      (fun e => Behind limits body stop rank s.here r (complete fs e)) (Fails body r)

inductive Chained (fs : List Frame) : Nat → Expr → Progress → Prop
  | first (e : Expr) : Chained fs 0 e (after fs e)
  | operation {op : BinaryOperator} (h : op.rank = rank) (left right : Expr) (n : Nat) :
      Chained fs n (.binary op left right) (after (.operation op left n :: fs) right)

end

variable {limits : Limits} {body ts rest : List Token} {stop rank calls n : Nat} {fs : List Frame}
variable {e left : Expr} {p : Progress} {t : Token} {op : BinaryOperator}
variable {c : Cursor} {s : Trail} {r : Except ParseError Expr}

theorem fits_of_le (h : rank ≤ 5) (s : Trail) : Fits body rank s :=
  fun h5 => absurd h (Nat.not_le_of_lt h5)

theorem enough_of_lt (hm : 7 * body.length + 5 < calls) (hr : 1 ≤ rank) (s : Trail) :
    Enough body rank calls s := by
  rw [Enough]
  omega

theorem Stands.outcome_cons (h : Stands limits body stop fs s r)
    (hd : body.drop s.here.index = t :: rest) :
    Progress.outcome limits stop (before fs) (t :: rest) = r := by
  rw [← hd]
  exact h.outcome

theorem Behind.outcome_cons (h : Behind limits body stop rank c r p s)
    (hd : body.drop s.here.index = t :: rest) : Progress.outcome limits stop p (t :: rest) = r := by
  rw [← hd]
  exact h.outcome

theorem outcome_next {q : Progress} (hd : body.drop s.here.index = t :: rest)
    (hr : outcome limits stop p (t :: rest) = r) (hs : Progress.step limits p t = .ok q) :
    outcome limits stop q (body.drop (s.here.index + 1)) = r := by
  rw [drop_succ_of_drop_eq_cons hd, ← outcome_cons hs, hr]

theorem fails_next {e : ParseError} (hd : body.drop s.here.index = t :: rest)
    (hi : Inside body.length s) (hr : outcome limits stop p (t :: rest) = r)
    (hs : Progress.step limits p t = .error e) : Fails body r e (s.move .next) :=
  ⟨hi.next (lt_of_drop_eq_cons hd), hr.symm.trans (outcome_cons_error hs)⟩

theorem Chained.step (h : Chained rank fs n e p) (hf : floor fs ≤ rank)
    (hk : t.kind = .operator op) (ho : op.rank = rank) : Progress.step limits p t =
      if limits.maxChainLength < n + 1 then .error (.chainTooLong limits.maxChainLength t.position)
      else .ok (before (.operation op e (n + 1) :: fs)) := by
  cases h with
  | first e => simp only [Progress.step, stepAfter, hk, ho, join_of_floor_le hf]
  | @operation o hr left right n =>
      have hj : join rank (.operation o left n :: fs) right 0 = (fs, .binary o left right, n) := by
        rw [join, hr, if_neg (Nat.lt_irrefl _), if_pos rfl, join_of_floor_le hf]
      simp only [Progress.step, stepAfter, hk, ho, hj]

theorem Chained.outcome (h : Chained rank fs n e p) (hf : floor fs ≤ rank) (hr : rank ≤ 4)
    (ho : Over rank rest) : Progress.outcome limits stop p rest =
      Progress.outcome limits stop (complete fs e) rest := by
  rw [complete_of_settled (settled_of_floor (Nat.le_trans hf hr))]
  cases h with
  | first e => rfl
  | operation hr left right n => exact outcome_after_operation (by rwa [hr])

theorem chain_ends (h : Ended ts body stop) (hr : rank ≤ 4) (hf : floor fs ≤ rank)
    (hn : c.nesting = fs.countP Frame.nests)
    (ih : ∀ k < calls, Reads limits body stop (rank + 1) ts k)
    (hm : 7 * (body.length - s.here.index) + 6 < calls) (hc : Chained rank fs n left p)
    (hb : Behind limits body stop (rank + 1) c r p s) : Ends (chain limits ts calls rank n left) s
      (fun e => Behind limits body stop rank c r (complete fs e)) (Fails body r) := by
  induction calls generalizing s n left p with
  | zero => exact absurd hm (Nat.not_lt_zero _)
  | succ calls ihc =>
      rw [chain]
      rcases exists_head_or (fun t => ∃ op, t.kind = .operator op ∧ op.rank = rank)
        (body.drop s.here.index) with ⟨t, rest, hd, op, hk, ho⟩ | hx
      · have ha := h.accept_operator (·.rank == rank) hd hk (beq_iff_eq.2 ho)
        have hs : Progress.step limits p t = _ := hc.step hf hk ho
        refine .bind_ok ha ?_
        dsimp only
        by_cases hl : limits.maxChainLength < n + 1
        · rw [if_pos hl] at hs ⊢
          exact .throw (fails_next hd hb.inside (hb.outcome_cons hd) hs)
        · rw [if_neg hl] at hs ⊢
          have hi := lt_of_drop_eq_cons hd
          have hst : Stands limits body stop (.operation op left (n + 1) :: fs) (s.move .next) r :=
            ⟨hb.inside.next hi, (hb.nesting.trans hn).trans (by simp [Frame.nests]),
              outcome_next hd (hb.outcome_cons hd) hs⟩
          have hm' : Enough body (rank + 1) calls (s.move .next) := by
            change 7 * (body.length - (s.here.index + 1)) + (6 - (rank + 1)) < calls
            omega
          refine .bind ((ih calls (Nat.lt_succ_self _) _ (.operation op left (n + 1) :: fs) r hm'
            (Nat.succ_le_succ (Nat.le_of_eq ho)) (fits_of_le (Nat.succ_le_succ hr) _)
            hst).imp_ok fun e s' he => ?_)
          have hlt : s.here.index + 1 < s'.here.index := he.index
          exact ihc (fun k hk => ih k (Nat.lt_succ_of_lt hk)) (by omega)
            (.operation ho left e (n + 1)) ⟨he.inside, he.nesting.trans hb.nesting,
              Nat.lt_trans (Nat.lt_succ_of_lt hb.index) he.index, he.loose, he.outcome⟩
      · have hover : Over rank (body.drop s.here.index) := by
          intro t ht op hk
          exact Nat.lt_of_le_of_ne (Nat.le_of_lt_succ (hb.loose t ht op hk))
            fun ho => hx t ht ⟨op, hk, ho⟩
        have ha := h.accept_nothing (·.rank == rank) hb.inside.here.1
          fun t ht op hk => beq_false_of_ne (Nat.ne_of_lt (hover t ht op hk))
        refine .bind_ok ha (.pure ⟨hb.inside, hb.nesting, hb.index, hover, ?_⟩)
        exact (hc.outcome hf hr hover).symm.trans hb.outcome

theorem level_reads (h : Ended ts body stop) (hr : rank ≤ 4)
    (ih : ∀ k ≤ calls, Reads limits body stop (rank + 1) ts k) :
    Reads limits body stop rank ts (calls + 1) := by
  intro s fs r hm hf _ hst
  rw [Enough] at hm
  rw [operand, if_pos hr]
  have hm' : Enough body (rank + 1) calls s := by
    rw [Enough]
    omega
  have hfit : Fits body (rank + 1) s := fits_of_le (Nat.succ_le_succ hr) s
  -- The first operand is of the next rank, and the chain goes on behind it.
  refine .bind ((ih calls (Nat.le_refl _) s fs r hm' (Nat.le_succ_of_le hf) hfit hst).imp_ok
    fun e s' hb => ?_)
  rw [complete_of_settled (settled_of_floor (Nat.le_trans hf hr))] at hb
  have hi := hb.index
  have hi' := hb.inside.here.1
  exact chain_ends h hr hf hst.nesting (fun k hk => ih k (Nat.le_of_lt hk)) (by omega) (.first e) hb

section

variable {f : Frame} (hst : Stands limits body stop fs s r)
  (hd : body.drop s.here.index = t :: rest) (hf : f.nests = true)
  (hs : Progress.step limits (before fs) t = Progress.enter limits t.position fs f)

include hst hd hf hs

theorem enter_ends : Ends (enter limits t.position) (s.move .next)
    (fun _ s' => s'.here.index = s.here.index + 1 ∧ s'.here.nesting = s.here.nesting + 1 ∧
      Stands limits body stop (f :: fs) s' r) (Fails body r) := by
  have hi := (hst.inside.next (lt_of_drop_eq_cons hd)).deeper
  have hn : (fs.countP Frame.nests : Int) = s.here.nesting := hst.nesting.symm
  have hout := hst.outcome_cons hd
  rw [Progress.enter] at hs
  by_cases hl : limits.maxDepth < fs.countP Frame.nests + 1
  · rw [if_pos hl] at hs
    have hb : (limits.maxDepth : Int) < s.here.nesting + 1 := by omega
    exact .inr ⟨_, _, run_enter_of_lt (s := s.move .next) hb _, hi,
      hout.symm.trans (outcome_cons_error hs)⟩
  · rw [if_neg hl] at hs
    have hb : s.here.nesting + 1 ≤ limits.maxDepth := by omega
    refine .inl ⟨_, _, run_enter_of_le (s := s.move .next) hb _, rfl, rfl, hi, ?_,
      outcome_next hd hout hs⟩
    rw [List.countP_cons, if_pos hf, Int.natCast_add, hn]
    rfl

theorem nested_ends (hr : rank ≤ 5) (hfl : floor (f :: fs) ≤ rank)
    (ih : Reads limits body stop rank ts calls)
    (hm : 7 * (body.length - s.here.index) ≤ calls)
    {g : Expr → Descent Expr} {ok : Expr → Trail → Prop}
    (hg : ∀ e s', Behind limits body stop rank s.here r (complete (f :: fs) e) s' →
      Ends (g e) s' ok (Fails body r)) :
    Ends (do enter limits t.position; let e ← operand limits ts calls rank; leave; g e)
      (s.move .next) ok (Fails body r) := by
  refine .bind ((enter_ends hst hd hf hs).imp_ok ?_)
  rintro - s₁ ⟨hi₁, hn₁, hst₁⟩
  have hi := lt_of_drop_eq_cons hd
  have hm₁ : Enough body rank calls s₁ := by
    rw [Enough, hi₁]
    omega
  refine .bind ((ih s₁ _ r hm₁ hfl (fits_of_le hr s₁) hst₁).imp_ok fun e s₂ hb => ?_)
  have hlt : s.here.index < s₁.here.index := by omega
  have hz := hst.inside.here.2
  have hpos : 0 < s₂.here.nesting := by
    rw [hb.nesting, hn₁]
    omega
  have hn₂ : s₂.here.nesting - 1 = s.here.nesting := by
    rw [hb.nesting, hn₁]
    omega
  exact .bind_ok (run_move _) (hg e _
    ⟨hb.inside.shallower hpos, hn₂, Nat.lt_trans hlt hb.index, hb.loose, hb.outcome⟩)

end

theorem negation_reads (h : Ended ts body stop) (ih : Reads limits body stop 5 ts calls)
    (ihp : Reads limits body stop 6 ts calls) : Reads limits body stop 5 ts (calls + 1) := by
  intro s fs r hm hf _ hst
  rw [Enough] at hm
  rw [operand, if_neg (by decide), if_pos rfl]
  rcases exists_head_or (·.kind = .operator (.arithmetic .subtract)) (body.drop s.here.index) with
    ⟨t, rest, hd, hk⟩ | hx
  · have hs : Progress.step limits (before fs) t =
        Progress.enter limits t.position fs .negation := by
      simp only [Progress.step, stepBefore, hk]
    refine .bind_ok (h.accept_operator _ hd hk (by decide)) ?_
    -- The forms behind a minus sign are complete with its operand.
    exact nested_ends hst hd rfl hs (Nat.le_refl 5) (Nat.le_refl 5) ih (by omega)
      fun e s' hb => .pure hb
  · refine .bind_ok (h.accept_nothing _ hst.inside.here.1 ?_) ?_
    · exact fun t ht op hk => beq_false_of_ne fun ho => hx t ht (ho ▸ hk)
    · have hm' : Enough body 6 calls s := by
        rw [Enough]
        omega
      refine (ihp s fs r hm' (Nat.le_succ_of_le hf) (fun _ => hx) hst).imp_ok fun e s' hb => ?_
      exact ⟨hb.inside, hb.nesting, hb.index, over_of_four_lt (by decide) _, hb.outcome⟩

theorem closing_ends {position : Nat} {inner : Expr} (h : Ended ts body stop) (hr : 4 < rank)
    (hb : Behind limits body stop 1 c r (complete (.group position :: fs) inner) s) :
    Ends (do
        let closing ← advance ts
        match closing.kind with
        | .rightParen => return .grouping inner
        | .endOfInput => throw (.unmatchedParenthesis position)
        | _ => throw (unexpected closing)) s
      (fun e => Behind limits body stop rank c r (complete fs e)) (Fails body r) := by
  cases hd : body.drop s.here.index with
  | nil =>
      obtain ⟨t, ha, hk, -⟩ := h.advance_ending hb.inside.here.1 hd
      have hout := hb.outcome
      rw [hd] at hout
      refine .bind_ok ha ?_
      simp only [hk]
      exact .throw ⟨hb.inside, hout.symm.trans rfl⟩
  | cons t rest =>
      have hout := hb.outcome_cons hd
      have hover := hb.loose
      rw [hd] at hover
      refine .bind_ok (h.advance_token hd) ?_
      cases hk : t.kind with
      | rightParen =>
          have hs : Progress.step limits (complete (.group position :: fs) inner) t =
              .ok (complete fs (.grouping inner)) := by
            simp only [complete, Progress.step, stepAfter, hk, join]
          exact .pure ⟨hb.inside.next (lt_of_drop_eq_cons hd), hb.nesting,
            Nat.lt_succ_of_lt hb.index, over_of_four_lt hr _, outcome_next hd hout hs⟩
      -- An operand of the lowest rank leaves no operator behind it.
      | operator op => exact absurd (hover t rfl op hk) (Nat.not_lt.2 op.rank_pos)
      | endOfInput => exact absurd (Token.isEnding_iff.2 hk) (by simp [(h.look_token hd).2])
      | number | string | boolean | identifier | leftParen | assign =>
          refine .throw (fails_next hd hb.inside hout ?_)
          simp only [complete, Progress.step, stepAfter, hk]

theorem primary_reads (h : Ended ts body stop) (hr : 5 < rank)
    (ih : Reads limits body stop 1 ts calls) : Reads limits body stop rank ts (calls + 1) := by
  intro s fs r hm _ hfit hst
  rw [Enough] at hm
  rw [operand, if_neg (by omega), if_neg (by omega)]
  cases hd : body.drop s.here.index with
  | nil =>
      obtain ⟨t, ha, hk, hp⟩ := h.advance_ending hst.inside.here.1 hd
      have hout := hst.outcome
      rw [hd, ← hp] at hout
      refine .bind_ok ha ?_
      simp only [hk]
      exact .throw ⟨hst.inside, hout.symm.trans rfl⟩
  | cons t rest =>
      have hout := hst.outcome_cons hd
      have hok {e : Expr} (hs : Progress.step limits (before fs) t = .ok (complete fs e)) :
          Behind limits body stop rank s.here r (complete fs e) (s.move .next) :=
        ⟨hst.inside.next (lt_of_drop_eq_cons hd), rfl, Nat.lt_succ_self _,
          over_of_four_lt (Nat.lt_of_succ_lt hr) _, outcome_next hd hout hs⟩
      have herr (hs : Progress.step limits (before fs) t = .error (unexpected t)) :=
        fails_next hd hst.inside hout hs
      refine .bind_ok (h.advance_token hd) ?_
      cases hk : t.kind with
      | number | string | boolean =>
          cases hl : t.literal with
          | none => exact .throw (herr (by simp only [Progress.step, stepBefore, hk, hl]))
          | some v => exact .pure (hok (by simp only [Progress.step, stepBefore, hk, hl]))
      | identifier => exact .pure (hok (by simp only [Progress.step, stepBefore, hk]))
      | leftParen =>
          have hs : Progress.step limits (before fs) t =
              Progress.enter limits t.position fs (.group t.position) := by
            simp only [Progress.step, stepBefore, hk]
          exact nested_ends hst hd rfl hs (by decide) (Nat.le_refl 1) ih (by omega)
            fun inner s' hb => closing_ends h (Nat.lt_of_succ_lt hr) hb
      | operator op =>
          have ho : op ≠ .arithmetic .subtract := by
            rintro rfl
            exact hfit hr t (by rw [hd]; rfl) hk
          exact .throw (herr (by simp [Progress.step, stepBefore, hk, ho]))
      | endOfInput => exact absurd (Token.isEnding_iff.2 hk) (by simp [(h.look_token hd).2])
      | rightParen | assign => exact .throw (herr (by simp only [Progress.step, stepBefore, hk]))

/-- The descent and the waiting forms come to the same at every rank. -/
theorem reads (limits : Limits) (h : Ended ts body stop) (rank calls : Nat) :
    Reads limits body stop rank ts calls := by
  induction calls using Nat.strongRecOn generalizing rank with
  | _ calls ih =>
      cases calls with
      | zero => exact fun s fs r hm => absurd hm (Nat.not_lt_zero _)
      | succ calls =>
          have hlast (rank : Nat) := ih calls (Nat.lt_succ_self calls) rank
          rcases Nat.lt_or_ge 5 rank with hr | hr
          · exact primary_reads h hr (hlast 1)
          rcases Nat.lt_or_eq_of_le hr with hr | rfl
          · exact level_reads h (Nat.le_of_lt_succ hr)
              fun k hk => ih k (Nat.lt_succ_of_le hk) (rank + 1)
          · exact negation_reads h (hlast 5) (hlast 6)

structure Balanced (stop : Nat) (c : Cursor) (s : Trail) : Prop where
  inside : Inside stop s
  nesting : s.here.nesting = c.nesting
  index : c.index < s.here.index

theorem operand_ends (limits : Limits) (h : Ended ts body stop) (hr : 1 ≤ rank)
    (hm : Enough body rank calls s) (hi : Inside body.length s) :
    Ends (operand limits ts calls rank) s (fun _ => Balanced body.length s.here)
      fun _ => Inside body.length := by
  by_cases hfit : Fits body rank s
  · -- Any forms do that wait in as many levels of nesting.
    obtain ⟨k, hk⟩ := Int.eq_ofNat_of_zero_le hi.here.2
    let fs := List.replicate k (Frame.group 0)
    have hf : floor fs = 1 := by cases k <;> rfl
    have hn : s.here.nesting = fs.countP Frame.nests := by
      simpa [fs, List.countP_replicate, Frame.nests] using hk
    refine (reads limits h rank calls s fs _ hm (hf ▸ hr) hfit ⟨hi, hn, rfl⟩).imp ?_ ?_
    · exact fun e s' hb => ⟨hb.inside, hb.nesting, hb.index⟩
    · exact fun e s' he => he.1
  · -- Above the rank of minus signs, one of them is an error.
    rw [Fits, Classical.not_imp] at hfit
    obtain ⟨h5, hx⟩ := hfit
    obtain ⟨t, rest, hd, hk⟩ := (exists_head_or (·.kind = .operator (.arithmetic .subtract))
      (body.drop s.here.index)).resolve_right hx
    obtain ⟨calls, rfl⟩ := Nat.exists_eq_succ_of_ne_zero (Nat.ne_zero_of_lt hm)
    rw [operand, if_neg (by omega), if_neg (by omega)]
    refine .bind_ok (h.advance_token hd) ?_
    simp only [hk]
    exact .throw (hi.next (lt_of_drop_eq_cons hd))

end Descent

end Reckoner
