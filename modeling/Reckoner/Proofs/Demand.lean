import Reckoner.Except
import Reckoner.Expr.Parse

namespace Reckoner

/-- What a token asks of the limits: to open the level of nesting of this number, or to be the
operator of this number in its chain. -/
inductive Demand
  | nothing
  | depth (n : Nat)
  | length (n : Nat)
  deriving DecidableEq

namespace Demand

def Met (limits : Limits) : Demand → Prop
  | nothing => True
  | depth n => n ≤ limits.maxDepth
  | length n => n ≤ limits.maxChainLength

def refusal? (limits : Limits) (position : Nat) : Demand → Option ParseError
  | nothing => none
  | depth n =>
      if limits.maxDepth < n then some (.nestingTooDeep limits.maxDepth position) else none
  | length n =>
      if limits.maxChainLength < n then some (.chainTooLong limits.maxChainLength position)
      else none

def least : Demand → Limits
  | nothing => ⟨0, 0⟩
  | depth n => ⟨n, 0⟩
  | length n => ⟨0, n⟩

@[simp] theorem met_nothing (limits : Limits) : nothing.Met limits := trivial

@[simp] theorem met_depth {limits : Limits} {n : Nat} :
    (depth n).Met limits ↔ n ≤ limits.maxDepth := Iff.rfl

@[simp] theorem met_length {limits : Limits} {n : Nat} :
    (length n).Met limits ↔ n ≤ limits.maxChainLength := Iff.rfl

theorem refusal?_eq_none_iff {limits : Limits} {position : Nat} {d : Demand} :
    d.refusal? limits position = none ↔ d.Met limits := by
  cases d with
  | nothing => simp [refusal?]
  | depth n | length n => simp [refusal?]

theorem Met.mono {l l' : Limits} {d : Demand} (h : d.Met l) (hd : l.maxDepth ≤ l'.maxDepth)
    (hl : l.maxChainLength ≤ l'.maxChainLength) : d.Met l' := by
  cases d with
  | nothing => trivial
  | depth n => exact Nat.le_trans h hd
  | length n => exact Nat.le_trans h hl

end Demand

namespace Frame

def number : Frame → Nat
  | operation _ _ n => n
  | negation | group _ => 0

end Frame

namespace Progress

def frames : Progress → List Frame
  | before fs | after fs _ => fs

def demand : Progress → Token → Demand
  | before fs, t =>
      match t.kind with
      | .operator (.arithmetic .subtract) | .leftParen => .depth (fs.countP Frame.nests + 1)
      | _ => .nothing
  | after fs e, t =>
      match t.kind with
      | .operator op => .length ((join op.rank fs e 0).2.2 + 1)
      | _ => .nothing

def advance (p : Progress) (t : Token) : Except ParseError Progress := step (p.demand t).least p t

/-- What a token can do: open a form, be an operand, extend an operand by an operator, or close a
group. -/
inductive Moves : Progress → Token → Progress → Prop
  | minus {t : Token} {fs : List Frame} (hk : t.kind = .operator (.arithmetic .subtract)) :
      Moves (before fs) t (before (.negation :: fs))
  | opening {t : Token} {fs : List Frame} (hk : t.kind = .leftParen) :
      Moves (before fs) t (before (.group t.position :: fs))
  | operand {t : Token} {fs : List Frame} {e : Expr} (hd : (before fs).demand t = .nothing)
      (hk : t.kind ≠ .rightParen) : Moves (before fs) t (complete fs e)
  | operator {t : Token} {op : BinaryOperator} {fs fs' : List Frame} {e left : Expr} {n : Nat}
      (hk : t.kind = .operator op) (hj : join op.rank fs e 0 = (fs', left, n)) :
      Moves (after fs e) t (before (.operation op left (n + 1) :: fs'))
  | closing {t : Token} {position : Nat} {fs fs' : List Frame} {e inner : Expr} {n : Nat}
      (hk : t.kind = .rightParen) (hj : join 0 fs e 0 = (.group position :: fs', inner, n)) :
      Moves (after fs e) t (complete fs' (.grouping inner))

/-- The limits do nothing but refuse. -/
theorem step_eq (limits : Limits) (p : Progress) (t : Token) :
    step limits p t = match (p.demand t).refusal? limits t.position with
      | some e => .error e
      | none => p.advance t := by
  cases p with
  | before fs =>
      cases hk : t.kind with
      | operator op =>
          by_cases ho : op = .arithmetic .subtract
          · subst ho
            simp only [advance, step, stepBefore, demand, hk, enter, Demand.refusal?, Demand.least]
            split <;> simp [*]
          · simp [advance, step, stepBefore, demand, hk, ho, Demand.refusal?]
      | leftParen =>
          simp only [advance, step, stepBefore, demand, hk, enter, Demand.refusal?, Demand.least]
          split <;> simp [*]
      | number | string | boolean | identifier | rightParen | assign | endOfInput =>
          simp [advance, step, stepBefore, demand, hk, Demand.refusal?]
  | after fs e =>
      cases hk : t.kind with
      | operator op =>
          simp only [advance, step, stepAfter, demand, hk, Demand.refusal?, Demand.least]
          split <;> simp [*]
      | number | string | boolean | identifier | leftParen | rightParen | assign | endOfInput =>
          simp [advance, step, stepAfter, demand, hk, Demand.refusal?]

theorem advance_of_step {limits : Limits} {p q : Progress} {t : Token}
    (h : step limits p t = .ok q) : p.advance t = .ok q := by
  rw [step_eq] at h
  split at h
  · cases h
  · exact h

theorem advance_cases (p : Progress) (t : Token) :
    (∃ q, p.advance t = .ok q ∧ Moves p t q) ∨
      p.advance t = .error (unexpected t) ∧ p.demand t = .nothing := by
  cases p with
  | before fs =>
      cases hk : t.kind with
      | operator op =>
          by_cases ho : op = .arithmetic .subtract
          · subst ho
            refine .inl ⟨_, ?_, .minus hk⟩
            simp [advance, step, stepBefore, demand, hk, enter, Demand.least]
          · refine .inr ⟨?_, ?_⟩
            · simp [advance, step, stepBefore, hk, ho]
            · simp [demand, hk, ho]
      | leftParen =>
          refine .inl ⟨_, ?_, .opening hk⟩
          simp [advance, step, stepBefore, demand, hk, enter, Demand.least]
      | identifier =>
          have hd : (before fs).demand t = .nothing := by simp [demand, hk]
          refine .inl ⟨complete fs (.var t.lexeme), ?_, .operand hd (by simp [hk])⟩
          simp only [advance, step, stepBefore, hk]
      | number | string | boolean =>
          have hd : (before fs).demand t = .nothing := by simp [demand, hk]
          cases hl : t.literal with
          | some v =>
              refine .inl ⟨complete fs (.literal v), ?_, .operand hd (by simp [hk])⟩
              simp only [advance, step, stepBefore, hk, hl]
          | none =>
              refine .inr ⟨?_, hd⟩
              simp only [advance, step, stepBefore, hk, hl]
      | rightParen | assign | endOfInput =>
          refine .inr ⟨?_, ?_⟩
          · simp only [advance, step, stepBefore, hk]
          · simp [demand, hk]
  | after fs e =>
      cases hk : t.kind with
      | operator op =>
          refine .inl ⟨_, ?_, .operator hk rfl⟩
          simp [advance, step, stepAfter, demand, hk, Demand.least]
      | rightParen =>
          have hd : (after fs e).demand t = .nothing := by simp [demand, hk]
          simp only [advance, step, stepAfter, hk]
          split
          · rename_i hj
            exact .inl ⟨_, rfl, .closing hk hj⟩
          · exact .inr ⟨rfl, hd⟩
      | number | string | boolean | identifier | leftParen | assign | endOfInput =>
          refine .inr ⟨?_, ?_⟩
          · simp only [advance, step, stepAfter, hk]
          · simp [demand, hk]

theorem moves_of_advance {p q : Progress} {t : Token} (h : p.advance t = .ok q) : Moves p t q := by
  rcases advance_cases p t with ⟨r, hr, hm⟩ | ⟨he, _⟩
  · obtain rfl : r = q := Except.ok.inj (hr.symm.trans h)
    exact hm
  · cases he.symm.trans h

theorem advance_eq_error {p : Progress} {t : Token} {err : ParseError}
    (h : p.advance t = .error err) : err = unexpected t ∧ p.demand t = .nothing := by
  rcases advance_cases p t with ⟨r, hr, _⟩ | ⟨he, hd⟩
  · cases hr.symm.trans h
  · exact ⟨(Except.error.inj (he.symm.trans h)).symm, hd⟩

theorem exists_advance_of_demand {p : Progress} {t : Token} (h : p.demand t ≠ .nothing) :
    ∃ q, p.advance t = .ok q := by
  cases ha : p.advance t with
  | error err => exact absurd (advance_eq_error ha).2 h
  | ok q => exact ⟨q, rfl⟩

theorem kind_of_demand_depth {p : Progress} {t : Token} {n : Nat} (h : p.demand t = .depth n) :
    t.kind = .leftParen ∨ t.kind = .operator (.arithmetic .subtract) := by
  cases p with
  | before fs =>
      rw [demand] at h
      split at h
      · exact .inr ‹_›
      · exact .inl ‹_›
      · cases h
  | after fs e =>
      rw [demand] at h
      split at h <;> cases h

theorem kind_of_demand_length {p : Progress} {t : Token} {n : Nat} (h : p.demand t = .length n) :
    ∃ op, t.kind = .operator op := by
  cases p with
  | before fs =>
      rw [demand] at h
      split at h <;> cases h
  | after fs e =>
      rw [demand] at h
      split at h
      · exact ⟨_, ‹_›⟩
      · cases h

theorem join_suffix (k : Nat) (fs : List Frame) (e : Expr) (n : Nat) :
    (join k fs e n).1 <:+ fs := by
  induction fs generalizing e n with
  | nil => exact List.suffix_refl _
  | cons f fs ih =>
      cases f with
      | negation | group => exact List.suffix_refl _
      | operation op left number =>
          rw [join]
          split
          · exact List.suffix_refl _
          · exact (ih ..).trans (List.suffix_cons ..)

theorem join_number_le {k m : Nat} {fs : List Frame} (h : ∀ f ∈ fs, f.number ≤ m) (e : Expr)
    {n : Nat} (hn : n ≤ m) : (join k fs e n).2.2 ≤ m := by
  induction fs generalizing e n with
  | nil => exact hn
  | cons f fs ih =>
      cases f with
      | negation | group => exact hn
      | operation op left number =>
          rw [join]
          have hf : number ≤ m := h _ (List.mem_cons_self ..)
          split
          · exact hn
          · refine ih (fun f hf => h f (List.mem_cons_of_mem _ hf)) _ ?_
            split
            · exact hf
            · exact hn

theorem exists_of_complete (fs : List Frame) (e : Expr) :
    ∃ fs' e', complete fs e = after fs' e' ∧ fs' <:+ fs := by
  induction fs generalizing e with
  | nil => exact ⟨[], e, rfl, List.suffix_refl _⟩
  | cons f fs ih =>
      cases f with
      | group | operation => exact ⟨_, e, rfl, List.suffix_refl _⟩
      | negation =>
          obtain ⟨fs', e', h, hs⟩ := ih (.unary .negate e)
          exact ⟨fs', e', h, hs.trans (List.suffix_cons ..)⟩

structure Within (limits : Limits) (fs : List Frame) : Prop where
  depth : fs.countP Frame.nests ≤ limits.maxDepth
  length : ∀ f ∈ fs, f.number ≤ limits.maxChainLength

section

variable {limits : Limits} {fs fs' : List Frame} {p q : Progress} {t : Token}

theorem within_nil (limits : Limits) : Within limits [] := ⟨Nat.zero_le _, nofun⟩

theorem Within.suffix (h : Within limits fs) (hs : fs' <:+ fs) : Within limits fs' :=
  ⟨Nat.le_trans hs.sublist.countP_le h.depth, fun f hf => h.length f (hs.mem hf)⟩

theorem Within.mono {l : Limits} (h : Within limits fs) (hd : limits.maxDepth ≤ l.maxDepth)
    (hl : limits.maxChainLength ≤ l.maxChainLength) : Within l fs :=
  ⟨Nat.le_trans h.depth hd, fun f hf => Nat.le_trans (h.length f hf) hl⟩

theorem Within.complete (h : Within limits fs) (e : Expr) :
    Within limits (complete fs e).frames := by
  obtain ⟨fs', e', hc, hs⟩ := exists_of_complete fs e
  rw [hc]
  exact h.suffix hs

/-- Each token asks for one more than what is waiting already, at most. -/
theorem Within.demand (h : Within limits p.frames) (t : Token) :
    (p.demand t).Met ⟨limits.maxDepth + 1, limits.maxChainLength + 1⟩ := by
  cases p with
  | before fs =>
      rw [Progress.demand]
      split
      · exact Nat.succ_le_succ h.depth
      · exact Nat.succ_le_succ h.depth
      · trivial
  | after fs e =>
      rw [Progress.demand]
      split
      · exact Nat.succ_le_succ (join_number_le h.length e (Nat.zero_le _))
      · trivial

theorem within_of_moves (h : Within limits p.frames) (hd : (p.demand t).Met limits)
    (hm : Moves p t q) : Within limits q.frames := by
  cases hm with
  | minus hk | opening hk =>
      simp only [Progress.demand, hk, Demand.Met] at hd
      refine ⟨?_, ?_⟩
      · simpa [frames, List.countP_cons, Frame.nests] using hd
      · simpa [frames, Frame.number] using h.length
  | operand => exact h.complete _
  | @operator t op fs fs' e left n hk hj =>
      have hs := join_suffix op.rank fs e 0
      simp only [Progress.demand, hk, hj, Demand.Met] at hd
      rw [hj] at hs
      have hw := h.suffix hs
      refine ⟨?_, ?_⟩
      · simpa [frames, Frame.nests] using hw.depth
      · simpa [frames, Frame.number, hd] using hw.length
  | @closing t position fs fs' e inner n hk hj =>
      have hs := join_suffix 0 fs e 0
      rw [hj] at hs
      exact (h.suffix ((List.suffix_cons ..).trans hs)).complete _

end

def firstRefusal? (limits : Limits) : Progress → List Token → Option ParseError
  | _, [] => none
  | p, t :: ts =>
      match (p.demand t).refusal? limits t.position with
      | some e => some e
      | none =>
          match p.advance t with
          | .ok q => firstRefusal? limits q ts
          | .error _ => none

theorem foldlM_step (limits : Limits) (p : Progress) (ts : List Token) :
    ts.foldlM (step limits) p = match firstRefusal? limits p ts with
      | some e => .error e
      | none => ts.foldlM advance p := by
  induction ts generalizing p with
  | nil => rfl
  | cons t ts ih =>
      rw [List.foldlM_cons, List.foldlM_cons, step_eq, firstRefusal?]
      cases (p.demand t).refusal? limits t.position with
      | some e => rfl
      | none =>
          cases p.advance t with
          | error e => rfl
          | ok q => exact ih q

section

variable {limits : Limits} {p q : Progress} {ts us vs : List Token} {t : Token} {err : ParseError}

theorem exists_of_foldlM_append (h : (us ++ vs).foldlM advance p = .ok q) :
    ∃ r, us.foldlM advance p = .ok r ∧ vs.foldlM advance r = .ok q := by
  rw [List.foldlM_append] at h
  exact exists_of_bind_eq_ok h

theorem exists_of_foldlM_cons (h : (t :: ts).foldlM advance p = .ok q) :
    ∃ r, p.advance t = .ok r ∧ ts.foldlM advance r = .ok q := by
  rw [List.foldlM_cons] at h
  exact exists_of_bind_eq_ok h

theorem foldlM_cons_ok (h : p.advance t = .ok q) (ts : List Token) :
    (t :: ts).foldlM advance p = ts.foldlM advance q := by
  rw [List.foldlM_cons, h]
  rfl

theorem foldlM_append_ok (h : us.foldlM advance p = .ok q) (vs : List Token) :
    (us ++ vs).foldlM advance p = vs.foldlM advance q := by
  rw [List.foldlM_append, h]
  rfl

/-- The first refusal is of a token that asks for just one more than the limits allow. -/
theorem exists_of_firstRefusal? (hw : Within limits p.frames)
    (h : firstRefusal? limits p ts = some err) :
    ∃ us t vs q, ts = us ++ t :: vs ∧ us.foldlM advance p = .ok q ∧ Within limits q.frames ∧
      (q.demand t).refusal? limits t.position = some err := by
  induction ts generalizing p with
  | nil => cases h
  | cons t ts ih =>
      rw [firstRefusal?] at h
      cases hr : (p.demand t).refusal? limits t.position with
      | some e =>
          rw [hr] at h
          cases h
          exact ⟨[], t, ts, p, rfl, rfl, hw, hr⟩
      | none =>
          rw [hr] at h
          cases ha : p.advance t with
          | error e => simp only [ha] at h; cases h
          | ok q =>
              simp only [ha] at h
              have hq := within_of_moves hw (Demand.refusal?_eq_none_iff.1 hr) (moves_of_advance ha)
              obtain ⟨us, u, vs, r, rfl, hu, hrest⟩ := ih hq h
              exact ⟨t :: us, u, vs, r, rfl, by rw [foldlM_cons_ok ha, hu], hrest⟩

theorem met_of_firstRefusal? (h : firstRefusal? limits p (us ++ t :: vs) = none)
    (hq : us.foldlM advance p = .ok q) : (q.demand t).Met limits := by
  induction us generalizing p with
  | nil =>
      cases hq
      rw [List.nil_append, firstRefusal?] at h
      split at h
      · cases h
      · rename_i hr
        exact Demand.refusal?_eq_none_iff.1 hr
  | cons u us ih =>
      rw [List.cons_append, firstRefusal?] at h
      split at h
      · cases h
      · obtain ⟨r, ha, hq⟩ := exists_of_foldlM_cons hq
        simp only [ha] at h
        exact ih h hq

theorem firstRefusal?_mono {l : Limits} (hw : Within l p.frames)
    (h : firstRefusal? limits p ts = none) (hd : limits.maxDepth ≤ l.maxDepth)
    (hl : limits.maxChainLength ≤ l.maxChainLength) : firstRefusal? l p ts = none := by
  cases hr : firstRefusal? l p ts with
  | none => rfl
  | some e =>
      obtain ⟨us, t, vs, q, rfl, hq, _, he⟩ := exists_of_firstRefusal? hw hr
      have hm := (met_of_firstRefusal? h hq).mono hd hl
      rw [Demand.refusal?_eq_none_iff.2 hm] at he
      cases he

theorem firstRefusal?_eq_none_of_length {l : Limits} (hw : Within l p.frames)
    (hd : l.maxDepth + ts.length ≤ limits.maxDepth)
    (hl : l.maxChainLength + ts.length ≤ limits.maxChainLength) :
    firstRefusal? limits p ts = none := by
  induction ts generalizing p l with
  | nil => rfl
  | cons t ts ih =>
      rw [List.length_cons] at hd hl
      have hm := hw.demand t
      have hm' : (p.demand t).Met limits := hm.mono (by simp only; omega) (by simp only; omega)
      rw [firstRefusal?, Demand.refusal?_eq_none_iff.2 hm']
      cases ha : p.advance t with
      | error e => rfl
      | ok q =>
          have hw' : Within ⟨l.maxDepth + 1, l.maxChainLength + 1⟩ p.frames :=
            hw.mono (Nat.le_succ _) (Nat.le_succ _)
          have hq := within_of_moves hw' hm (moves_of_advance ha)
          exact ih hq (by simp only; omega) (by simp only; omega)

end

end Progress

/-- An expression of any depth with chains of any length. -/
def Expr.read (stop : Nat) (tokens : List Token) : Except ParseError Expr := do
  (← tokens.foldlM Progress.advance (.before [])).finish stop

theorem Expr.ofTokens_eq (limits : Limits) (stop : Nat) (ts : List Token) :
    ofTokens limits stop ts = match Progress.firstRefusal? limits (.before []) ts with
      | some e => .error e
      | none => read stop ts := by
  rw [ofTokens, Progress.foldlM_step]
  cases Progress.firstRefusal? limits (.before []) ts <;> rfl

theorem Expr.ofTokens_eq_read {limits : Limits} {ts : List Token}
    (hd : ts.length ≤ limits.maxDepth) (hl : ts.length ≤ limits.maxChainLength) (stop : Nat) :
    ofTokens limits stop ts = read stop ts := by
  have hn : Progress.firstRefusal? limits (.before []) ts = none :=
    Progress.firstRefusal?_eq_none_of_length (Progress.within_nil ⟨0, 0⟩) (by simpa using hd)
      (by simpa using hl)
  rw [ofTokens_eq, hn]

end Reckoner
