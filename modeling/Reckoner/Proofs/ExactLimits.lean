import Reckoner.Proofs.EarliestError

namespace Reckoner

def ParseError.isLimit : ParseError → Bool
  | nestingTooDeep .. | chainTooLong .. => true
  | unexpectedToken .. | unexpectedEnd _ | unmatchedParenthesis _ => false

theorem Demand.isLimit_of_refusal? {limits : Limits} {position : Nat} {d : Demand}
    {err : ParseError} (h : d.refusal? limits position = some err) : err.isLimit = true := by
  cases d with
  | nothing => cases h
  | depth n | length n =>
      rw [refusal?] at h
      split at h <;> cases h
      rfl

section

variable {limits : Limits} {d : Demand} {n position p : Nat}
  (hm : d.Met ⟨limits.maxDepth + 1, limits.maxChainLength + 1⟩)

include hm

theorem Demand.eq_depth_of_refusal? (h : d.refusal? limits p = some (.nestingTooDeep n position)) :
    d = .depth (limits.maxDepth + 1) ∧ n = limits.maxDepth ∧ position = p := by
  cases d with
  | nothing => cases h
  | length m => rw [refusal?] at h; split at h <;> cases h
  | depth m =>
      rw [refusal?] at h
      split at h <;> cases h
      rename_i hlt
      exact ⟨congrArg depth (Nat.le_antisymm hm hlt), rfl, rfl⟩

theorem Demand.eq_length_of_refusal? (h : d.refusal? limits p = some (.chainTooLong n position)) :
    d = .length (limits.maxChainLength + 1) ∧ n = limits.maxChainLength ∧ position = p := by
  cases d with
  | nothing => cases h
  | depth m => rw [refusal?] at h; split at h <;> cases h
  | length m =>
      rw [refusal?] at h
      split at h <;> cases h
      rename_i hlt
      exact ⟨congrArg length (Nat.le_antisymm hm hlt), rfl, rfl⟩

end

namespace Expr

/-- What each symbol of a tree asks of the limits, at so many levels of nesting. A parenthesis and a
minus sign in front of an operand open the next level. An operator comes behind those of its rank
down its left. -/
def demands (depth : Nat) : Expr → List Demand
  | literal _ | var _ => [.nothing]
  | grouping inner => .depth (depth + 1) :: inner.demands (depth + 1) ++ [.nothing]
  | unary _ operand => .depth (depth + 1) :: operand.demands (depth + 1)
  | binary op left right =>
      left.demands depth ++ .length (left.run op.rank + 1) :: right.demands depth

theorem length_demands (depth : Nat) (e : Expr) : (e.demands depth).length = e.yield.length := by
  induction e generalizing depth with
  | literal | var => rfl
  | grouping inner ih => simp [demands, yield, ih]
  | unary op operand ih => cases op; simp [demands, yield, ih]
  | binary op left right ihl ihr => simp [demands, yield, ihl, ihr]

/-- The deepest level and the longest chain are all that matters. -/
theorem met_demands_iff {limits : Limits} {depth : Nat} (h : depth ≤ limits.maxDepth) (e : Expr) :
    (∀ d ∈ e.demands depth, d.Met limits) ↔
      depth + e.nest ≤ limits.maxDepth ∧ e.chain ≤ limits.maxChainLength := by
  induction e generalizing depth with
  | literal | var => simp [demands, nest, chain, h]
  | grouping inner ih =>
      simp only [demands, List.cons_append, List.forall_mem_cons, List.forall_mem_append, nest,
        chain, Demand.met_depth]
      by_cases hd : depth + 1 ≤ limits.maxDepth
      · simp [hd, ih hd]
        omega
      · simp [hd]
        omega
  | unary op operand ih =>
      simp only [demands, List.forall_mem_cons, nest, chain, Demand.met_depth]
      by_cases hd : depth + 1 ≤ limits.maxDepth
      · simp [hd, ih hd]
        omega
      · simp [hd]
        omega
  | binary op left right ihl ihr =>
      simp only [demands, List.forall_mem_append, List.forall_mem_cons, ihl h, ihr h, nest, chain,
        Demand.met_length]
      omega

end Expr

namespace Progress

section

variable (fs : List Frame) {t : Token}

theorem advance_minus (h : t.symbol = .minus) :
    (before fs).advance t = .ok (before (.negation :: fs)) := by
  refine @advance_of_step ⟨fs.countP Frame.nests + 1, 0⟩ _ _ _ ?_
  rw [step, stepBefore_minus _ fs h]
  exact enter_of_le _ fs (Nat.le_refl _) t.position

theorem advance_leftParen (h : t.symbol = .leftParen) :
    (before fs).advance t = .ok (before (.group t.position :: fs)) := by
  refine @advance_of_step ⟨fs.countP Frame.nests + 1, 0⟩ _ _ _ ?_
  rw [step, stepBefore_leftParen _ fs h]
  exact enter_of_le _ fs (Nat.le_refl _) t.position

variable {op : BinaryOperator} {left : Expr} (ht : t.symbol = .ofOperator op)
  (hc : left.Canonical) (hr : op.rank ≤ left.rank) (hf : floor fs ≤ op.rank)

include hf in
theorem settle_of_floor : settle fs left = after (left.spread fs).1 (left.spread fs).2 :=
  settle_of_settled fs (settled_of_floor (Nat.le_trans hf op.rank_le)) left

include hc hr hf in
theorem join_operator : join op.rank (left.spread fs).1 (left.spread fs).2 0 =
    (fs, left, left.run op.rank) := by
  rw [join_spread op.rank_le hc hr, join_of_floor_le hf]
  by_cases he : left.rank = op.rank
  · rw [if_pos he]
  · rw [if_neg he, Expr.run_of_rank_ne he]

include ht hc hr hf

theorem advance_operator : (settle fs left).advance t =
    .ok (before (.operation op left (left.run op.rank + 1) :: fs)) := by
  refine @advance_of_step ⟨0, left.run op.rank + 1⟩ _ _ _ ?_
  rw [settle_of_floor fs hf]
  exact stepAfter_operator _ fs ht hc hr hf (Nat.le_refl _)

theorem demand_operator : (settle fs left).demand t = .length (left.run op.rank + 1) := by
  have hk : t.kind = .operator op := congrArg Symbol.kind ht
  rw [settle_of_floor fs hf]
  simp only [demand, hk, join_operator fs hc hr hf]

end

theorem eq_nil_of_map_eq_singleton {us vs : List Token} {t : Token} {s : Symbol}
    (h : (us ++ t :: vs).map Token.symbol = [s]) : us = [] ∧ t.symbol = s := by
  cases us with
  | nil => exact ⟨rfl, (List.cons.inj h).1⟩
  | cons u us => simp at h

/-- What the reader asks at a token of a tree is what the tree asks at its symbol, behind any forms
that can wait for it. -/
def Agrees (e : Expr) : Prop :=
  ∀ (fs : List Frame) (us vs : List Token) (t : Token) (q : Progress), floor fs ≤ e.rank →
    (us ++ t :: vs).map Token.symbol = e.yield → us.foldlM advance (before fs) = .ok q →
      (e.demands (fs.countP Frame.nests))[us.length]? = some (q.demand t)

theorem agrees_literal (v : Value) : Agrees (.literal v) := by
  intro fs us vs t q _ hy hq
  obtain ⟨rfl, hs⟩ := eq_nil_of_map_eq_singleton hy
  cases hq
  have hk : t.kind = v.kind.tokenKind := congrArg Symbol.kind hs
  cases v <;> simp [Expr.demands, demand, hk, Value.kind, Kind.tokenKind]

theorem agrees_var (name : String) : Agrees (.var name) := by
  intro fs us vs t q _ hy hq
  obtain ⟨rfl, hs⟩ := eq_nil_of_map_eq_singleton hy
  cases hq
  have hk : t.kind = .identifier := congrArg Symbol.kind hs
  simp [Expr.demands, demand, hk]

theorem agrees_negate {operand : Expr} (hr : 5 ≤ operand.rank) (h : Agrees operand) :
    Agrees (.unary .negate operand) := by
  intro fs us vs t q _ hy hq
  cases us with
  | nil =>
      cases hq
      have hk : t.kind = .operator (.arithmetic .subtract) :=
        congrArg Symbol.kind (List.cons.inj hy).1
      simp [Expr.demands, demand, hk]
  | cons u us =>
      obtain ⟨hu, hy⟩ := List.cons.inj hy
      rw [foldlM_cons_ok (advance_minus fs hu)] at hq
      have hi := h (.negation :: fs) us vs t q hr hy hq
      simpa [Expr.demands, List.countP_cons, Frame.nests] using hi

theorem agrees_grouping {inner : Expr} (hc : inner.Canonical) (h : Agrees inner) :
    Agrees (.grouping inner) := by
  intro fs us vs t q _ hy hq
  cases us with
  | nil =>
      cases hq
      have hk : t.kind = .leftParen := congrArg Symbol.kind (List.cons.inj hy).1
      simp [Expr.demands, demand, hk]
  | cons u us =>
      obtain ⟨hu, hy⟩ := List.cons.inj hy
      rw [foldlM_cons_ok (advance_leftParen fs hu)] at hq
      obtain ⟨as, bs, hs, ha, hbs⟩ := List.map_eq_append_iff.1 hy
      obtain ⟨b, rfl, hb⟩ := List.map_eq_singleton_iff.1 hbs
      have hl : (inner.demands (fs.countP Frame.nests + 1)).length = as.length := by
        rw [Expr.length_demands, ← ha, List.length_map]
      -- The token closes the parentheses, or it stands in them; behind them there is none.
      rcases split_cases hs with ⟨rfl, rfl⟩ | ⟨more, rfl⟩ | ⟨more, rfl⟩
      · rw [foldlM_advance_yield hc (.group u.position :: fs) inner.rank_pos ha] at hq
        cases hq
        have hk : t.kind = .rightParen := congrArg Symbol.kind hb
        rw [settle_of_settled (.group u.position :: fs) trivial]
        simp [Expr.demands, demand, hk, ← hl]
      · have hi := h (.group u.position :: fs) us more t q inner.rank_pos ha hq
        have hlt : us.length < (us ++ t :: more).length := by simp
        simp only [List.countP_cons, Frame.nests, if_true] at hi
        simp only [Expr.demands, List.cons_append, List.length_cons, List.getElem?_cons_succ]
        rwa [List.getElem?_append_left (by omega)]
      · have hlen := congrArg List.length hs
        simp at hlen

theorem agrees_binary {op : BinaryOperator} {left right : Expr} (hle : op.rank ≤ left.rank)
    (hlt : op.rank < right.rank) (hc : left.Canonical) (hl : Agrees left) (hr : Agrees right) :
    Agrees (.binary op left right) := by
  intro fs us vs t q (hf : floor fs ≤ op.rank) hy hq
  obtain ⟨as, bs, hs, ha, hbs⟩ := List.map_eq_append_iff.1 hy
  obtain ⟨b, cs, rfl, hb, hcs⟩ := List.map_eq_cons_iff.1 hbs
  have hlen : (left.demands (fs.countP Frame.nests)).length = as.length := by
    rw [Expr.length_demands, ← ha, List.length_map]
  have hleft := foldlM_advance_yield hc fs (Nat.le_trans hf hle) ha
  -- The token is the operator, or it stands in the operand on its left or on its right.
  rcases split_cases hs with ⟨rfl, rfl⟩ | ⟨more, rfl⟩ | ⟨more, rfl⟩
  · rw [hleft] at hq
    cases hq
    rw [demand_operator fs hb hc hle hf]
    simp [Expr.demands, ← hlen]
  · have hi := hl fs us more t q (Nat.le_trans hf hle) ha hq
    have hlt : us.length < (us ++ t :: more).length := by simp
    rw [Expr.demands, List.getElem?_append_left (by omega)]
    exact hi
  · rw [List.append_assoc] at hs
    obtain rfl : more ++ t :: vs = cs := (List.cons.inj (List.append_cancel_left hs)).2
    rw [foldlM_append_ok hleft, foldlM_cons_ok (advance_operator fs hb hc hle hf)] at hq
    have hi := hr (.operation op left (left.run op.rank + 1) :: fs) more vs t q hlt hcs hq
    simp only [List.countP_cons, Frame.nests] at hi
    rw [Expr.demands, List.getElem?_append_right (by simp; omega)]
    simpa [hlen] using hi

theorem agrees_of_canonical {e : Expr} (hc : e.Canonical) : Agrees e := by
  induction e with
  | literal v => exact agrees_literal v
  | var name => exact agrees_var name
  | unary op operand ih =>
      cases op
      exact agrees_negate hc.1 (ih hc.2)
  | grouping inner ih => exact agrees_grouping hc (ih hc)
  | binary op left right ihl ihr =>
      exact agrees_binary hc.1.1 hc.1.2 hc.2.1 (ihl hc.2.1) (ihr hc.2.2)

end Progress

namespace Expr

section

variable {limits : Limits} {stop : Nat} {ts : List Token} {err : ParseError}

theorem isLimit_of_read (h : read stop ts = .error err) : err.isLimit = false := by
  cases hp : ts.foldlM Progress.advance (.before []) with
  | error e =>
      rw [read, hp] at h
      cases h
      obtain ⟨us, t, vs, q, _, _, hq⟩ := exists_of_foldlM_advance hp
      rw [(Progress.advance_eq_error hq).1]
      rfl
  | ok p =>
      rw [read, hp] at h
      change p.finish stop = .error err at h
      cases p with
      | before fs => cases h; rfl
      | after fs e =>
          obtain ⟨position, _, rfl, _⟩ := Progress.exists_of_finish_after h
          rfl

theorem exists_of_limit (h : ofTokens limits stop ts = .error err) (he : err.isLimit = true) :
    ∃ us t vs q, ts = us ++ t :: vs ∧ us.foldlM Progress.advance (.before []) = .ok q ∧
      Progress.Within limits q.frames ∧ (q.demand t).refusal? limits t.position = some err := by
  rw [ofTokens_eq] at h
  split at h
  · rename_i e hr
    cases h
    exact Progress.exists_of_firstRefusal? (Progress.within_nil limits) hr
  · rw [isLimit_of_read h] at he
    cases he

theorem firstRefusal?_of_not_limit
    (h : ∀ err, ofTokens limits stop ts = .error err → err.isLimit = false) :
    Progress.firstRefusal? limits (.before []) ts = none := by
  cases hr : Progress.firstRefusal? limits (.before []) ts with
  | none => rfl
  | some err =>
      obtain ⟨us, t, vs, q, _, _, _, he⟩ :=
        Progress.exists_of_firstRefusal? (Progress.within_nil limits) hr
      have hn := h err (by rw [ofTokens_eq, hr])
      rw [Demand.isLimit_of_refusal? he] at hn
      cases hn

theorem ofTokens_mono {l : Limits} (hd : limits.maxDepth ≤ l.maxDepth)
    (hl : limits.maxChainLength ≤ l.maxChainLength)
    (h : ∀ err, ofTokens limits stop ts = .error err → err.isLimit = false) :
    ofTokens l stop ts = ofTokens limits stop ts := by
  have hr := firstRefusal?_of_not_limit h
  have hr' := Progress.firstRefusal?_mono (Progress.within_nil l) hr hd hl
  rw [ofTokens_eq, ofTokens_eq, hr, hr']

theorem read_of_ofTokens (h : ofTokens limits stop ts = .error err) (he : err.isLimit = false) :
    read stop ts = .error err := by
  have hn : ∀ e, ofTokens limits stop ts = .error e → e.isLimit = false := by
    intro e h'
    rw [h] at h'
    cases h'
    exact he
  rwa [ofTokens_eq, firstRefusal?_of_not_limit hn] at h

theorem met_of_read {e : Expr} (hc : e.Canonical) (hy : e.yield = ts.map Token.symbol)
    (h : read stop ts = .ok e) (hr : Progress.firstRefusal? limits (.before []) ts = none) :
    ∀ d ∈ e.demands 0, d.Met limits := by
  intro d hd
  obtain ⟨i, hi, rfl⟩ := List.getElem_of_mem hd
  have hi' : i < ts.length := by rwa [length_demands, hy, List.length_map] at hi
  have hs : ts.take i ++ ts[i] :: ts.drop (i + 1) = ts := by simp
  obtain ⟨p, hq, _⟩ := exists_of_bind_eq_ok h
  rw [← hs] at hq hr
  obtain ⟨q, hq, _⟩ := Progress.exists_of_foldlM_append hq
  have hg := Progress.agrees_of_canonical hc [] _ _ _ q e.rank_pos (by rw [hs, hy]) hq
  rw [List.length_take, Nat.min_eq_left (Nat.le_of_lt hi'), List.countP_nil,
    List.getElem?_eq_getElem hi] at hg
  rw [Option.some.inj hg]
  exact Progress.met_of_firstRefusal? hr hq

theorem ofTokens_eq_ok_iff_read (ht : ∀ t ∈ ts, t.Proper) (e : Expr) :
    ofTokens limits stop ts = .ok e ↔
      read stop ts = .ok e ∧ e.nest ≤ limits.maxDepth ∧ e.chain ≤ limits.maxChainLength := by
  constructor
  · intro h
    obtain ⟨hc, hy⟩ := canonical_of_ofTokens ht h
    have hr : Progress.firstRefusal? limits (.before []) ts = none :=
      @firstRefusal?_of_not_limit limits stop ts (by rw [h]; nofun)
    rw [ofTokens_eq, hr] at h
    exact ⟨h, by simpa using (met_demands_iff (Nat.zero_le _) e).1 (met_of_read hc hy h hr)⟩
  · rintro ⟨h, hd, hl⟩
    rw [← @ofTokens_eq_read ⟨ts.length, ts.length⟩ _ (Nat.le_refl _) (Nat.le_refl _)] at h
    obtain ⟨hc, hy⟩ := canonical_of_ofTokens ht h
    exact ofTokens_of_yield hc hd hl stop hy.symm

end

theorem asks_of_advance {us vs : List Token} {t : Token} {q : Progress}
    (hp : ∀ u ∈ us ++ t :: vs, u.Proper) (hq : us.foldlM Progress.advance (.before []) = .ok q)
    (hd : q.demand t ≠ .nothing) :
    Viable (Phrase 1) (us.map Token.symbol ++ [t.symbol]) ∧
      ∀ e : Expr, e.Canonical → us.map Token.symbol ++ [t.symbol] <+: e.yield →
        (e.demands 0)[us.length]? = some (q.demand t) := by
  constructor
  · have ht : ∀ u ∈ us ++ [t], u.Proper := fun u hu => hp u (by
      rw [List.append_cons]
      exact List.mem_append_left vs hu)
    obtain ⟨r, hr⟩ := Progress.exists_advance_of_demand hd
    have ha : (us ++ [t]).foldlM Progress.advance (.before []) = .ok r := by
      rw [Progress.foldlM_append_ok hq, Progress.foldlM_cons_ok hr]
      rfl
    have hv : Viable (Phrase 1) ((us ++ [t]).map Token.symbol) :=
      Progress.viable_of_spells (Progress.spells_advance (.before [] trivial) ht ha)
    rwa [List.map_append] at hv
  · rintro e hc ⟨more, hm⟩
    have hx : ∀ x ∈ more, x ∈ e.yield := fun x hx => by simp [← hm, hx]
    have hy : (us ++ t :: more.map Symbol.token).map Token.symbol = e.yield := by
      rw [List.map_append, List.map_cons, Symbol.map_symbol_token hx, ← hm]
      exact List.append_cons ..
    exact Progress.agrees_of_canonical hc [] us _ t q e.rank_pos hy hq

end Expr

namespace Statement

def demands : Statement → List Demand
  | expression e => e.demands 0
  | assignment _ e => .nothing :: .nothing :: e.demands 0

/-- A symbol asks this behind these, whatever comes next: it does so in each line that begins with
them, and there is one. -/
def Asks (us : List Symbol) (x : Symbol) (d : Demand) : Prop :=
  Viable Sentence (us ++ [x]) ∧
    ∀ r : Statement, r.expr.Canonical → us ++ [x] <+: r.yield → r.demands[us.length]? = some d

/-- How a line is read: what leads it is seen at once, and the rest is an expression. -/
structure Led (stop : Nat) (body : List Token) (f : Expr → Statement) (lead ts : List Token) :
    Prop where
  body_eq : body = lead ++ ts
  expr_eq (e : Expr) : (f e).expr = e
  ofTokens_eq (limits : Limits) :
    ofTokens limits (body ++ [Token.ending stop]) = f <$> Expr.ofTokens limits stop ts
  asks {us vs : List Token} {t : Token} {q : Progress} (hs : ts = us ++ t :: vs)
    (hq : us.foldlM Progress.advance (.before []) = .ok q) (hd : q.demand t ≠ .nothing) :
    Asks ((lead ++ us).map Token.symbol) t.symbol (q.demand t)

theorem asks_expression {body us vs : List Token} {t : Token} {q : Progress}
    (hp : ∀ t ∈ body, t.Proper) (hn : Token.NoAssignment body) (hs : body = us ++ t :: vs)
    (hq : us.foldlM Progress.advance (.before []) = .ok q) (hd : q.demand t ≠ .nothing) :
    Asks (us.map Token.symbol) t.symbol (q.demand t) := by
  subst hs
  obtain ⟨⟨more, hv⟩, ha⟩ := Expr.asks_of_advance hp hq hd
  refine ⟨⟨more, .expression hv⟩, ?_⟩
  rintro r hc ⟨rest, hr⟩
  have hn' : Token.NoAssignment ((us ++ [t]) ++ vs) := by simpa using hn
  have hy : r.yield = (us ++ [t]).map Token.symbol ++ rest := by
    rw [List.map_append]
    exact hr.symm
  rcases exists_of_yield hn' hy with ⟨e, rfl⟩ | ⟨h, _⟩ | ⟨x, name, h, hx, _⟩
  · rw [List.length_map]
    exact ha e hc ⟨rest, hr⟩
  · simp at h
  · obtain ⟨rfl, rfl⟩ : us = [] ∧ t = x := by cases us <;> simp_all
    cases hq
    have hk : t.kind = .identifier := congrArg Symbol.kind hx
    exact absurd (by simp [Progress.demand, hk]) hd

theorem asks_assignment {n a t : Token} {us vs : List Token} {q : Progress}
    (hn : n.symbol = .ofName n.lexeme) (ha : a.symbol = .assign)
    (hp : ∀ u ∈ us ++ t :: vs, u.Proper) (hq : us.foldlM Progress.advance (.before []) = .ok q)
    (hd : q.demand t ≠ .nothing) : Asks ((n :: a :: us).map Token.symbol) t.symbol (q.demand t) := by
  obtain ⟨⟨more, hv⟩, ha'⟩ := Expr.asks_of_advance hp hq hd
  rw [List.map_cons, List.map_cons, hn, ha]
  refine ⟨⟨more, sentence_assignment_iff.2 hv⟩, ?_⟩
  rintro r hc ⟨rest, hr⟩
  cases r with
  | expression e =>
      have hm : Symbol.assign ∈ (expression e).yield := by simp [← hr]
      exact absurd rfl (Expr.kind_ne_assign_of_mem_yield hm)
  | assignment name e =>
      have hy : us.map Token.symbol ++ [t.symbol] ++ rest = e.yield :=
        (List.cons.inj (List.cons.inj hr).2).2
      simpa [demands] using ha' e hc ⟨rest, hy⟩

theorem exists_led {body : List Token} (ht : ∀ t ∈ body, t.Formed) (stop : Nat) :
    ∃ f lead ts, Led stop body f lead ts := by
  have hb : ∀ t ∈ body, t.isEnding = false := fun t h => Token.isEnding_of_formed (ht t h)
  have hp : ∀ t ∈ body, t.Proper := fun t h => Token.proper_of_formed (ht t h)
  rcases Token.noAssignment_or ht with hn | ⟨x, a, rest, rfl, ⟨hx, hsx⟩, ha, hsa⟩
  · exact ⟨expression, [], body, rfl, fun _ => rfl,
      fun limits => ofTokens_expression limits hb hn, asks_expression hp hn⟩
  · refine ⟨assignment x.lexeme, [x, a], rest, rfl, fun _ => rfl,
      fun limits => ofTokens_assignment limits hb hx ha, ?_⟩
    rintro us vs t q rfl hq hd
    exact asks_assignment hsx hsa (fun u hu => hp u (by simp at hu ⊢; tauto)) hq hd

namespace Led

variable {stop : Nat} {body lead ts : List Token} {f : Expr → Statement} {limits : Limits}

theorem ok_iff (h : Led stop body f lead ts) (hp : ∀ t ∈ body, t.Proper) {inf : Limits}
    (hd : body.length ≤ inf.maxDepth) (hl : body.length ≤ inf.maxChainLength) (r : Statement) :
    ofTokens limits (body ++ [Token.ending stop]) = .ok r ↔
      ofTokens inf (body ++ [Token.ending stop]) = .ok r ∧
        r.expr.nest ≤ limits.maxDepth ∧ r.expr.chain ≤ limits.maxChainLength := by
  have hts : ts.length ≤ body.length := by simp [h.body_eq]
  have hp' : ∀ t ∈ ts, t.Proper := fun t ht => hp t (by simp [h.body_eq, ht])
  rw [h.ofTokens_eq, h.ofTokens_eq, map_eq_ok_iff, map_eq_ok_iff,
    Expr.ofTokens_eq_read (Nat.le_trans hts hd) (Nat.le_trans hts hl)]
  constructor
  · rintro ⟨e, he, rfl⟩
    obtain ⟨hr, hw⟩ := (Expr.ofTokens_eq_ok_iff_read hp' e).1 he
    exact ⟨⟨e, hr, rfl⟩, by rwa [h.expr_eq]⟩
  · rintro ⟨⟨e, hr, rfl⟩, hw⟩
    rw [h.expr_eq] at hw
    exact ⟨e, (Expr.ofTokens_eq_ok_iff_read hp' e).2 ⟨hr, hw⟩, rfl⟩

theorem error_of_not_limit (h : Led stop body f lead ts) {inf : Limits}
    (hd : body.length ≤ inf.maxDepth) (hl : body.length ≤ inf.maxChainLength) {err : ParseError}
    (he : ofTokens limits (body ++ [Token.ending stop]) = .error err) (hn : err.isLimit = false) :
    ofTokens inf (body ++ [Token.ending stop]) = .error err := by
  have hts : ts.length ≤ body.length := by simp [h.body_eq]
  rw [h.ofTokens_eq, map_eq_error_iff] at he ⊢
  rw [Expr.ofTokens_eq_read (Nat.le_trans hts hd) (Nat.le_trans hts hl)]
  exact Expr.read_of_ofTokens he hn

theorem ofTokens_mono (h : Led stop body f lead ts) {l : Limits}
    (hd : limits.maxDepth ≤ l.maxDepth) (hl : limits.maxChainLength ≤ l.maxChainLength)
    (hn : ∀ err, ofTokens limits (body ++ [Token.ending stop]) = .error err →
      err.isLimit = false) :
    ofTokens l (body ++ [Token.ending stop]) = ofTokens limits (body ++ [Token.ending stop]) := by
  rw [h.ofTokens_eq, h.ofTokens_eq]
  refine congrArg (f <$> ·) (Expr.ofTokens_mono hd hl fun err he => hn err ?_)
  rw [h.ofTokens_eq, map_eq_error_iff, he]

theorem exists_of_limit (h : Led stop body f lead ts) {err : ParseError}
    (he : ofTokens limits (body ++ [Token.ending stop]) = .error err) (hl : err.isLimit = true) :
    ∃ us t vs, ∃ q : Progress, body = us ++ t :: vs ∧ Progress.Within limits q.frames ∧
      (q.demand t).refusal? limits t.position = some err ∧
      Asks (us.map Token.symbol) t.symbol (q.demand t) := by
  rw [h.ofTokens_eq, map_eq_error_iff] at he
  obtain ⟨us, t, vs, q, hts, hq, hw, hr⟩ := Expr.exists_of_limit he hl
  have hd : q.demand t ≠ .nothing := by
    intro hd
    rw [hd] at hr
    cases hr
  exact ⟨lead ++ us, t, vs, q, by rw [h.body_eq, hts, List.append_assoc], hw, hr,
    h.asks hts hq hd⟩

end Led

/-- Limits are exact, and do nothing but refuse. A line is accepted just when it is without limits
and its tree keeps to them; an error that is about something else is there without limits too; and
what is refused is the token that asks for one more than they allow. -/
theorem ofTokens_eq_iff_within {text : String} {tokens : List Token}
    (h : Token.tokenize text = .ok tokens) (limits : Limits) :
    let body := tokens.dropLast
    (∀ inf : Limits, body.length ≤ inf.maxDepth → body.length ≤ inf.maxChainLength →
      (∀ r, ofTokens limits tokens = .ok r ↔ ofTokens inf tokens = .ok r ∧
        r.expr.nest ≤ limits.maxDepth ∧ r.expr.chain ≤ limits.maxChainLength) ∧
      (∀ err, ofTokens limits tokens = .error err → err.isLimit = false →
        ofTokens inf tokens = .error err)) ∧
    (∀ l : Limits, limits.maxDepth ≤ l.maxDepth → limits.maxChainLength ≤ l.maxChainLength →
      (∀ err, ofTokens limits tokens = .error err → err.isLimit = false) →
        ofTokens l tokens = ofTokens limits tokens) ∧
    (∀ n position, ofTokens limits tokens = .error (.nestingTooDeep n position) →
      n = limits.maxDepth ∧ ∃ us t vs, body = us ++ t :: vs ∧ position = t.position ∧
        (t.kind = .leftParen ∨ t.kind = .operator (.arithmetic .subtract)) ∧
        Asks (us.map Token.symbol) t.symbol (.depth (limits.maxDepth + 1))) ∧
    (∀ n position, ofTokens limits tokens = .error (.chainTooLong n position) →
      n = limits.maxChainLength ∧ ∃ us t vs op, body = us ++ t :: vs ∧ position = t.position ∧
        t.kind = .operator op ∧
        Asks (us.map Token.symbol) t.symbol (.length (limits.maxChainLength + 1))) := by
  obtain ⟨body, rfl, hf, _⟩ := Token.ordered_of_tokenize h
  rw [List.dropLast_concat]
  obtain ⟨f, lead, ts, hled⟩ := exists_led hf text.utf8ByteSize
  have hp : ∀ t ∈ body, t.Proper := fun t h => Token.proper_of_formed (hf t h)
  refine ⟨fun inf hd hl => ⟨hled.ok_iff hp hd hl, fun _ => hled.error_of_not_limit hd hl⟩,
    fun l => hled.ofTokens_mono, fun n position he => ?nesting, fun n position he => ?chain⟩
  case nesting =>
    obtain ⟨us, t, vs, q, hb, hw, hr, ha⟩ := hled.exists_of_limit he rfl
    obtain ⟨hd, rfl, rfl⟩ := Demand.eq_depth_of_refusal? (hw.demand t) hr
    rw [hd] at ha
    exact ⟨rfl, us, t, vs, hb, rfl, Progress.kind_of_demand_depth hd, ha⟩
  case chain =>
    obtain ⟨us, t, vs, q, hb, hw, hr, ha⟩ := hled.exists_of_limit he rfl
    obtain ⟨hd, rfl, rfl⟩ := Demand.eq_length_of_refusal? (hw.demand t) hr
    rw [hd] at ha
    obtain ⟨op, hk⟩ := Progress.kind_of_demand_length hd
    exact ⟨rfl, us, t, vs, op, hb, rfl, hk, ha⟩

theorem second_operator_of_chain :
    let body : List Token := [⟨.identifier, "a", 0, none⟩,
      ⟨.operator (.arithmetic .add), "+", 2, none⟩, ⟨.identifier, "b", 4, none⟩,
      ⟨.operator (.arithmetic .subtract), "-", 6, none⟩, ⟨.identifier, "c", 8, none⟩]
    let tokens := body ++ [.ending 9]
    let r := expression (.binary (.arithmetic .subtract)
      (.binary (.arithmetic .add) (.var "a") (.var "b")) (.var "c"))
    Token.tokenize "a + b - c" = .ok tokens ∧
      ofTokens ⟨0, 1⟩ tokens = .error (.chainTooLong 1 6) ∧
      ofTokens ⟨0, 2⟩ tokens = .ok r ∧ ofTokens ⟨5, 5⟩ tokens = .ok r ∧
      r.expr.nest ≤ 0 ∧ r.expr.chain ≤ 2 ∧
      ∃ us t vs op, body = us ++ t :: vs ∧ 6 = t.position ∧ t.kind = .operator op ∧
        Asks (us.map Token.symbol) t.symbol (.length 2) := by
  intro body tokens r
  have ht : Token.tokenize "a + b - c" = .ok tokens := by decide +kernel
  have he : ofTokens ⟨0, 1⟩ tokens = .error (.chainTooLong 1 6) := by decide +kernel
  have hr : ofTokens ⟨0, 2⟩ tokens = .ok r := by decide +kernel
  obtain ⟨_, _, _, hc⟩ := ofTokens_eq_iff_within ht ⟨0, 1⟩
  obtain ⟨hi, _⟩ := ofTokens_eq_iff_within ht ⟨0, 2⟩
  obtain ⟨hinf, hd, hl⟩ := ((hi ⟨5, 5⟩ (by decide) (by decide)).1 r).1 hr
  exact ⟨ht, he, hr, hinf, hd, hl, (hc 1 6 he).2⟩

end Statement

end Reckoner
