import Reckoner.Proofs.Demand
import Reckoner.Proofs.Grammar
import Reckoner.Proofs.ParseSpelling

namespace Reckoner

/-- The beginning of something that is accepted. -/
def Viable (accepts : List Symbol → Prop) (s : List Symbol) : Prop := ∃ more, accepts (s ++ more)

def Closable (accepts : List Symbol → Prop) (s : List Symbol) : Prop :=
  ∃ k, 0 < k ∧ accepts (s ++ List.replicate k .rightParen)

theorem Viable.of_append {accepts : List Symbol → Prop} {s t : List Symbol}
    (h : Viable accepts (s ++ t)) : Viable accepts s := by
  obtain ⟨more, hm⟩ := h
  exact ⟨t ++ more, by rwa [← List.append_assoc]⟩

def Token.track (opened : List Nat) (t : Token) : List Nat :=
  match t.kind with
  | .leftParen => t.position :: opened
  | .rightParen => opened.tail
  | _ => opened

def Token.openings (ts : List Token) : List Nat := ts.foldl track []

namespace Symbol

def token (s : Symbol) : Token := ⟨s.kind, s.name, 0, s.literal⟩

theorem symbol_token_of_mem_yield {s : Symbol} {e : Expr} (h : s ∈ e.yield) :
    s.token.symbol = s := by
  cases Expr.ofExpr_of_mem_yield h with
  | value v => cases v <;> rfl
  | name | operator | leftParen | rightParen => rfl

theorem map_symbol_token {s : List Symbol} {e : Expr} (h : ∀ x ∈ s, x ∈ e.yield) :
    (s.map token).map Token.symbol = s := by
  rw [List.map_map]
  exact (List.map_congr_left fun x hx => symbol_token_of_mem_yield (h x hx)).trans (List.map_id s)

end Symbol

theorem phrase_iff {s : List Symbol} : Phrase 1 s ↔ ∃ e : Expr, e.Canonical ∧ e.yield = s := by
  constructor
  · intro h
    obtain ⟨e, hc, _, hy⟩ := h.exists_canonical
    exact ⟨e, hc, hy⟩
  · rintro ⟨e, hc, rfl⟩
    exact (Phrase.of_canonical hc).lower_le (Nat.le_refl 1) e.rank_pos e.rank_le

namespace Progress

theorem foldlM_advance_yield {e : Expr} (hc : e.Canonical) (fs : List Frame)
    (hf : floor fs ≤ e.rank) {ts : List Token} (hts : ts.map Token.symbol = e.yield) :
    ts.foldlM advance (before fs) = .ok (settle fs e) := by
  have h := foldlM_yield ⟨fs.countP Frame.nests + e.nest, e.chain⟩ hc (Nat.le_refl _) fs hf
    (Nat.le_refl _) hts
  rw [foldlM_step] at h
  split at h
  · cases h
  · exact h

theorem spells_advance {s : List Symbol} {p q : Progress} {ts : List Token} (hp : Spells s p)
    (ht : ∀ t ∈ ts, t.Proper) (h : ts.foldlM advance p = .ok q) :
    Spells (s ++ ts.map Token.symbol) q := by
  induction ts generalizing s p with
  | nil =>
      cases h
      simpa using hp
  | cons t ts ih =>
      obtain ⟨r, hr, h⟩ := exists_of_foldlM_cons h
      have hs := spells_step hp (ht t (List.mem_cons_self ..)) hr
      simpa using ih hs (fun u hu => ht u (List.mem_cons_of_mem _ hu)) h

end Progress

namespace Frame

def opening? : Frame → Option Nat
  | group position => some position
  | negation | operation .. => none

end Frame

namespace Progress

def openings (fs : List Frame) : List Nat := fs.filterMap Frame.opening?

@[simp] theorem openings_negation (fs : List Frame) :
    openings (.negation :: fs) = openings fs := rfl

@[simp] theorem openings_group (position : Nat) (fs : List Frame) :
    openings (.group position :: fs) = position :: openings fs := rfl

@[simp] theorem openings_operation (op : BinaryOperator) (left : Expr) (n : Nat)
    (fs : List Frame) : openings (.operation op left n :: fs) = openings fs := rfl

theorem openings_join (k : Nat) (fs : List Frame) (e : Expr) (n : Nat) :
    openings (join k fs e n).1 = openings fs := by
  induction fs generalizing e n with
  | nil => rfl
  | cons f fs ih =>
      cases f with
      | negation | group => rfl
      | operation op left number =>
          rw [join]
          split
          · rfl
          · exact ih ..

theorem openings_complete (fs : List Frame) (e : Expr) :
    openings (complete fs e).frames = openings fs := by
  induction fs generalizing e with
  | nil => rfl
  | cons f fs ih =>
      cases f with
      | group | operation => rfl
      | negation => exact ih ..

theorem openings_of_moves {p q : Progress} {t : Token} (h : Moves p t q) :
    openings q.frames = Token.track (openings p.frames) t := by
  cases h with
  | minus hk => simp [Token.track, hk, frames]
  | opening hk => simp [Token.track, hk, frames]
  | @operand t fs e hd hk =>
      have hl : t.kind ≠ .leftParen := by
        intro hk'
        simp [demand, hk'] at hd
      rw [openings_complete, Token.track]
      split
      · exact absurd ‹_› hl
      · exact absurd ‹_› hk
      · rfl
  | @operator t op fs fs' e left n hk hj =>
      have ho := openings_join op.rank fs e 0
      rw [hj] at ho
      simpa [Token.track, hk, frames] using ho
  | @closing t position fs fs' e inner n hk hj =>
      have ho := openings_join 0 fs e 0
      rw [hj] at ho
      rw [openings_complete]
      simp [Token.track, hk, frames, ← ho]

theorem openings_foldlM {p q : Progress} {ts : List Token} (h : ts.foldlM advance p = .ok q) :
    openings q.frames = ts.foldl Token.track (openings p.frames) := by
  induction ts generalizing p with
  | nil =>
      cases h
      rfl
  | cons t ts ih =>
      obtain ⟨r, hr, h⟩ := exists_of_foldlM_cons h
      rw [ih h, List.foldl_cons, openings_of_moves (moves_of_advance hr)]

/-- Behind any operand that they can take, the waiting forms need only their closing
parentheses. -/
theorem exists_closed {fs : List Frame} (hs : Stacked fs) {e : Expr} (hf : floor fs ≤ e.rank)
    (hc : e.Canonical) : ∃ whole : Expr, whole.Canonical ∧ whole.yield =
      spelled fs ++ e.yield ++ List.replicate (openings fs).length .rightParen := by
  induction fs generalizing e with
  | nil => exact ⟨e, hc, by simp [spelled, openings]⟩
  | cons f fs ih =>
      obtain ⟨hcf, hff, hs⟩ := hs
      cases f with
      | negation =>
          obtain ⟨whole, hw, hy⟩ := ih hs (e := .unary .negate e) hff ⟨hf, hc⟩
          exact ⟨whole, hw, by simpa [spelled, Frame.yield, Expr.yield] using hy⟩
      | group position =>
          obtain ⟨whole, hw, hy⟩ := ih hs (e := .grouping e) hff hc
          refine ⟨whole, hw, hy.trans ?_⟩
          simp [spelled, Frame.yield, Expr.yield, List.replicate_succ]
      | operation op left number =>
          obtain ⟨whole, hw, hy⟩ := ih hs (e := .binary op left e) hff ⟨⟨hcf.1, hf⟩, hcf.2, hc⟩
          exact ⟨whole, hw, by simpa [spelled, Frame.yield, Expr.yield] using hy⟩

section

variable {s : List Symbol} {p q : Progress} {us : List Token} {t : Token}

theorem viable_of_spells (h : Spells s p) : Viable (Phrase 1) s := by
  cases h with
  | before fs hs =>
      have hf : floor fs ≤ 6 := Nat.le_trans (floor_le fs) (by decide)
      obtain ⟨e, hc, hy⟩ := exists_closed hs (e := .literal (.boolean true)) hf trivial
      rw [List.append_assoc] at hy
      exact ⟨_, phrase_iff.2 ⟨e, hc, hy⟩⟩
  | after fs e hs hn hr hc =>
      obtain ⟨e, hc, hy⟩ := exists_closed hs (Nat.le_trans (floor_le fs) hr) hc
      exact ⟨_, phrase_iff.2 ⟨e, hc, hy⟩⟩

theorem closable_of_spells {fs : List Frame} {e : Expr} {position : Nat} {more : List Nat}
    (h : Spells s (after fs e)) (ho : openings fs = position :: more) :
    Closable (Phrase 1) s := by
  cases h with
  | after _ _ hs _ hr hc =>
      obtain ⟨whole, hw, hy⟩ := exists_closed hs (Nat.le_trans (floor_le fs) hr) hc
      rw [ho] at hy
      exact ⟨_, Nat.succ_pos more.length, phrase_iff.2 ⟨whole, hw, hy⟩⟩

theorem advance_foldlM_of_viable (hv : Viable (Phrase 1) (us.map Token.symbol)) :
    ∃ q, us.foldlM advance (before []) = .ok q := by
  obtain ⟨more, hm⟩ := hv
  obtain ⟨e, hc, hy⟩ := phrase_iff.1 hm
  have hx : ∀ x ∈ more, x ∈ e.yield := fun x hx => by simp [hy, hx]
  have hts : (us ++ more.map Symbol.token).map Token.symbol = e.yield := by
    rw [List.map_append, Symbol.map_symbol_token hx, hy]
  obtain ⟨q, hq, _⟩ := exists_of_foldlM_append (foldlM_advance_yield hc [] e.rank_pos hts)
  exact ⟨q, hq⟩

theorem exists_of_finish_after {stop : Nat} {fs : List Frame} {e : Expr} {err : ParseError}
    (h : finish stop (after fs e) = .error err) :
    ∃ position more, err = .unmatchedParenthesis position ∧ openings fs = position :: more := by
  have ho := openings_join 0 fs e 0
  rw [finish] at h
  split at h
  · rename_i position fs' _ _ hj
    rw [hj] at ho
    cases h
    exact ⟨position, openings fs', rfl, ho.symm⟩
  · cases h

/-- What cannot be read cannot be made up for by what comes after it. -/
theorem not_viable_of_advance {err : ParseError} (hq : us.foldlM advance (before []) = .ok q)
    (ht : q.advance t = .error err) : ¬ Viable (Phrase 1) ((us ++ [t]).map Token.symbol) := by
  intro hv
  obtain ⟨r, hr⟩ := advance_foldlM_of_viable hv
  obtain ⟨q', hq', hr⟩ := exists_of_foldlM_append hr
  obtain rfl : q = q' := Except.ok.inj (hq.symm.trans hq')
  obtain ⟨r, hr, _⟩ := exists_of_foldlM_cons hr
  rw [ht] at hr
  cases hr

end

end Progress

/-- What reading tokens comes to, by what they are the beginning of: all is accepted; one of them is
the first that cannot stand where it does; or all can stand, and more is missing than closing
parentheses, or just these. -/
inductive Verdict {α : Type} (accepts : List Symbol → Prop) (stop : Nat) (ts : List Token) :
    Except ParseError α → Prop
  | accepted (a : α) (h : accepts (ts.map Token.symbol)) : Verdict accepts stop ts (.ok a)
  | wrong {us vs : List Token} {t : Token} (hs : ts = us ++ t :: vs)
      (hu : Viable accepts (us.map Token.symbol))
      (ht : ¬ Viable accepts ((us ++ [t]).map Token.symbol)) :
      Verdict accepts stop ts (.error (unexpected t))
  | incomplete (hn : ¬ accepts (ts.map Token.symbol)) (hv : Viable accepts (ts.map Token.symbol))
      (hc : ¬ Closable accepts (ts.map Token.symbol)) :
      Verdict accepts stop ts (.error (.unexpectedEnd stop))
  | unclosed {position : Nat} (hn : ¬ accepts (ts.map Token.symbol))
      (hc : Closable accepts (ts.map Token.symbol))
      (ho : (Token.openings ts).head? = some position) :
      Verdict accepts stop ts (.error (.unmatchedParenthesis position))

namespace Expr

variable {ts : List Token}

theorem read_of_phrase (h : Phrase 1 (ts.map Token.symbol)) (stop : Nat) :
    ∃ e, read stop ts = .ok e := by
  obtain ⟨e, hc, hy⟩ := phrase_iff.1 h
  let limits : Limits := ⟨max ts.length e.nest, max ts.length e.chain⟩
  have ho : ofTokens limits stop ts = .ok e :=
    ofTokens_of_yield hc (Nat.le_max_right ..) (Nat.le_max_right ..) stop hy.symm
  rw [ofTokens_eq_read (Nat.le_max_left ..) (Nat.le_max_left ..)] at ho
  exact ⟨e, ho⟩

theorem verdict_finish {p : Progress} (ht : ∀ t ∈ ts, t.Proper)
    (hp : ts.foldlM Progress.advance (.before []) = .ok p) (stop : Nat) :
    Verdict (Phrase 1) stop ts (p.finish stop) := by
  have hs := Progress.spells_advance (.before [] trivial) ht hp
  have ho := Progress.openings_foldlM hp
  change Progress.openings p.frames = Token.openings ts at ho
  have hn {err : ParseError} (he : p.finish stop = .error err) :
      ¬ Phrase 1 (ts.map Token.symbol) := by
    intro h
    obtain ⟨e, h⟩ := read_of_phrase h stop
    rw [read, hp] at h
    cases he.symm.trans h
  cases p with
  | before fs =>
      refine .incomplete (hn rfl) (Progress.viable_of_spells hs) ?_
      -- A closing parenthesis cannot stand where an operand is missing.
      rintro ⟨k, hk, hc⟩
      obtain ⟨k, rfl⟩ := Nat.exists_eq_succ_of_ne_zero (Nat.ne_of_gt hk)
      refine Progress.not_viable_of_advance (t := Symbol.rightParen.token) hp rfl ?_
      refine ⟨List.replicate k .rightParen, ?_⟩
      rw [List.map_append, List.append_assoc]
      exact hc
  | after fs e =>
      cases hf : Progress.finish stop (.after fs e) with
      | ok whole =>
          obtain ⟨hc, hy⟩ := Progress.finish_eq_ok hs hf
          exact .accepted whole (phrase_iff.2 ⟨whole, hc, hy⟩)
      | error err =>
          obtain ⟨position, more, rfl, hm⟩ := Progress.exists_of_finish_after hf
          exact .unclosed (hn hf) (Progress.closable_of_spells hs hm)
            (by rw [← ho, Progress.frames, hm]; rfl)

theorem exists_of_foldlM_advance {p : Progress} {err : ParseError}
    (h : ts.foldlM Progress.advance p = .error err) : ∃ us t vs q, ts = us ++ t :: vs ∧
      us.foldlM Progress.advance p = .ok q ∧ q.advance t = .error err := by
  induction ts generalizing p with
  | nil => cases h
  | cons t ts ih =>
      cases ha : p.advance t with
      | error e =>
          rw [List.foldlM_cons, ha] at h
          cases h
          exact ⟨[], t, ts, p, rfl, rfl, ha⟩
      | ok q =>
          rw [Progress.foldlM_cons_ok ha] at h
          obtain ⟨us, u, vs, r, rfl, hu, hr⟩ := ih h
          exact ⟨t :: us, u, vs, r, rfl, by rw [Progress.foldlM_cons_ok ha, hu], hr⟩

/-- Reading stops at the first token that no expression has there, and names it. -/
theorem verdict_read (ht : ∀ t ∈ ts, t.Proper) (stop : Nat) :
    Verdict (Phrase 1) stop ts (read stop ts) := by
  cases hp : ts.foldlM Progress.advance (.before []) with
  | ok p =>
      have hv := verdict_finish ht hp stop
      rwa [read, hp]
  | error err =>
      obtain ⟨us, t, vs, q, rfl, hu, hq⟩ := exists_of_foldlM_advance hp
      rw [read, hp, (Progress.advance_eq_error hq).1]
      have hus : ∀ u ∈ us, u.Proper := fun u hu => ht u (by simp [hu])
      have hs := Progress.spells_advance (.before [] trivial) hus hu
      exact .wrong rfl (Progress.viable_of_spells hs) (Progress.not_viable_of_advance hu hq)

end Expr

end Reckoner
