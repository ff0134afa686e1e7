import Reckoner.Except
import Reckoner.Proofs.ParseYield

namespace Reckoner

/-- A literal carries a value of its kind, and no other token carries one. -/
def Token.Proper (t : Token) : Prop :=
  match t.kind with
  | .number | .string | .boolean => ∃ v, t.symbol = .ofValue v
  | _ => t.literal = none

def TokenKind.isMark : TokenKind → Bool
  | number | string | boolean | identifier => false
  | operator _ | leftParen | rightParen | assign | endOfInput => true

namespace Token

variable {t : Token} (ht : t.Proper)

include ht

theorem symbol_of_isMark {k : TokenKind} (hk : t.kind = k) (hm : k.isMark = true) :
    t.symbol = ⟨k, "", none⟩ := by
  subst hk
  have hi : t.kind ≠ .identifier := by
    intro h
    simp [h, TokenKind.isMark] at hm
  have hl : t.literal = none := by
    rw [Proper] at ht
    cases hk : t.kind <;> simp_all [TokenKind.isMark]
  rw [symbol, if_neg hi, hl]

theorem symbol_of_identifier (hk : t.kind = .identifier) : t.symbol = .ofName t.lexeme := by
  have hl : t.literal = none := by simpa only [Proper, hk] using ht
  rw [symbol, if_pos hk, hk, hl]
  rfl

end Token

namespace Frame

def yield : Frame → List Symbol
  | negation => [.minus]
  | group _ => [.leftParen]
  | operation op left _ => left.yield ++ [.ofOperator op]

def rank : Frame → Nat
  | negation => 5
  | group _ => 6
  | operation op _ _ => op.rank

def Canonical : Frame → Prop
  | negation | group _ => True
  | operation op left _ => op.rank ≤ left.rank ∧ left.Canonical

end Frame

namespace Progress

def spelled : List Frame → List Symbol
  | [] => []
  | f :: fs => spelled fs ++ f.yield

def Stacked : List Frame → Prop
  | [] => True
  | f :: fs => f.Canonical ∧ floor fs ≤ f.rank ∧ Stacked fs

/-- The state stands for these symbols, none lost and none read twice. -/
inductive Spells : List Symbol → Progress → Prop
  | before (fs : List Frame) (hs : Stacked fs) : Spells (spelled fs) (before fs)
  | after (fs : List Frame) (e : Expr) (hs : Stacked fs) (hn : Settled fs) (hr : 5 ≤ e.rank)
      (hc : e.Canonical) : Spells (spelled fs ++ e.yield) (after fs e)

structure Joined (k : Nat) (fs : List Frame) (e : Expr) (r : List Frame × Expr × Nat) : Prop where
  stacked : Stacked r.1
  floor_le : floor r.1 ≤ max 1 k
  canonical : r.2.1.Canonical
  rank_le : k ≤ r.2.1.rank
  spelled : spelled r.1 ++ r.2.1.yield = spelled fs ++ e.yield

theorem joined_join {k : Nat} {fs : List Frame} {e : Expr} (hs : Stacked fs) (hn : Settled fs)
    (hf : floor fs ≤ e.rank) (hc : e.Canonical) (hk : k ≤ e.rank) (n : Nat) :
    Joined k fs e (join k fs e n) := by
  induction fs generalizing e n with
  | nil => exact ⟨hs, Nat.le_max_left 1 k, hc, hk, rfl⟩
  | cons f fs ih =>
      cases f with
      | negation => exact hn.elim
      | group p => exact ⟨hs, Nat.le_max_left 1 k, hc, hk, rfl⟩
      | operation op left number =>
          rw [join]
          by_cases hop : op.rank < k
          · rw [if_pos hop]
            exact ⟨hs, Nat.le_trans hop (Nat.le_max_right 1 k), hc, hk, rfl⟩
          · rw [if_neg hop]
            have hn' : Settled fs := settled_of_floor (Nat.le_trans hs.2.1 op.rank_le)
            have hj := ih (e := .binary op left e) hs.2.2 hn' hs.2.1
              ⟨⟨hs.1.1, hf⟩, hs.1.2, hc⟩ (Nat.le_of_not_lt hop) (if op.rank = k then number else n)
            refine { hj with spelled := ?_ }
            rw [hj.spelled]
            simp [Progress.spelled, Frame.yield, Expr.yield]

theorem spells_complete {fs : List Frame} (hs : Stacked fs) (e : Expr) (hr : 5 ≤ e.rank)
    (hc : e.Canonical) : Spells (spelled fs ++ e.yield) (complete fs e) := by
  induction fs generalizing e with
  | nil => exact .after _ e hs trivial hr hc
  | cons f fs ih =>
      cases f with
      | group | operation => exact .after _ e hs trivial hr hc
      | negation =>
          have h := ih hs.2.2 (.unary .negate e) (Nat.le_refl 5) ⟨hr, hc⟩
          rw [complete, spelled, List.append_assoc]
          exact h

theorem floor_le (fs : List Frame) : floor fs ≤ 5 := by
  cases fs with
  | nil => decide
  | cons f fs =>
      cases f with
      | negation | group => simp [floor]
      | operation op => exact Nat.succ_le_succ op.rank_le

section

variable {limits : Limits} {fs : List Frame} {e : Expr} {t : Token} {p q : Progress}
  {s : List Symbol}

theorem spells_of_enter (f : Frame) {position : Nat} (hs : Stacked (f :: fs))
    (h : enter limits position fs f = .ok q) : Spells (spelled fs ++ f.yield) q := by
  rw [enter] at h
  split at h
  · cases h
  · cases h
    exact .before _ hs

theorem spells_of_stepBefore (hs : Stacked fs) (hp : t.Proper)
    (h : stepBefore limits fs t = .ok q) : Spells (spelled fs ++ [t.symbol]) q := by
  cases hk : t.kind with
  | number | string | boolean =>
      obtain ⟨v, hv⟩ : ∃ v, t.symbol = .ofValue v := by simpa only [Token.Proper, hk] using hp
      rw [stepBefore_value limits fs hv] at h
      cases h
      rw [hv]
      exact spells_complete hs (.literal v) (Nat.le_succ 5) trivial
  | identifier =>
      have ht : t.symbol = .ofName t.lexeme := Token.symbol_of_identifier hp hk
      rw [stepBefore_name limits fs ht] at h
      cases h
      rw [ht]
      exact spells_complete hs (.var t.lexeme) (Nat.le_succ 5) trivial
  | leftParen =>
      have ht : t.symbol = .leftParen := Token.symbol_of_isMark hp hk rfl
      rw [stepBefore_leftParen limits fs ht] at h
      rw [ht]
      exact spells_of_enter (.group t.position)
        ⟨trivial, Nat.le_trans (floor_le fs) (Nat.le_succ 5), hs⟩ h
  | operator op =>
      by_cases ho : op = .arithmetic .subtract
      · subst ho
        have ht : t.symbol = .minus := Token.symbol_of_isMark hp hk rfl
        rw [stepBefore_minus limits fs ht] at h
        rw [ht]
        exact spells_of_enter .negation ⟨trivial, floor_le fs, hs⟩ h
      · simp [stepBefore, hk, ho] at h
  | rightParen | assign | endOfInput => simp [stepBefore, hk] at h

theorem spells_of_stepAfter (hs : Stacked fs) (hn : Settled fs) (hr : 5 ≤ e.rank)
    (hc : e.Canonical) (hp : t.Proper) (h : stepAfter limits fs e t = .ok q) :
    Spells (spelled fs ++ e.yield ++ [t.symbol]) q := by
  have hf : floor fs ≤ e.rank := Nat.le_trans (floor_le fs) hr
  cases hk : t.kind with
  | operator op =>
      have ht : t.symbol = .ofOperator op := Token.symbol_of_isMark hp hk rfl
      have hj := joined_join hs hn hf hc (Nat.le_trans op.rank_le (Nat.le_of_succ_le hr)) 0
      simp only [stepAfter, hk] at h
      generalize join op.rank fs e 0 = r at h hj
      obtain ⟨fs', left, n⟩ := r
      split at h
      · cases h
      · cases h
        have hb := hj.floor_le
        rw [Nat.max_eq_right op.rank_pos] at hb
        have hq := Spells.before (.operation op left (n + 1) :: fs')
          ⟨⟨hj.rank_le, hj.canonical⟩, hb, hj.stacked⟩
        rw [← hj.spelled, ht]
        simpa [Progress.spelled, Frame.yield] using hq
  | rightParen =>
      have ht : t.symbol = .rightParen := Token.symbol_of_isMark hp hk rfl
      have hj := joined_join hs hn hf hc (Nat.zero_le _) 0
      simp only [stepAfter, hk] at h
      generalize join 0 fs e 0 = r at h hj
      split at h
      · rename_i position fs' inner n
        cases h
        have hq := spells_complete hj.stacked.2.2 (.grouping inner) (Nat.le_succ 5) hj.canonical
        rw [← hj.spelled, ht]
        simpa [Progress.spelled, Frame.yield, Expr.yield] using hq
      · cases h
  | number | string | boolean | identifier | leftParen | assign | endOfInput =>
      simp [stepAfter, hk] at h

theorem spells_step (hp : Spells s p) (ht : t.Proper) (h : step limits p t = .ok q) :
    Spells (s ++ [t.symbol]) q := by
  cases hp with
  | before fs hs => exact spells_of_stepBefore hs ht h
  | after fs e hs hn hr hc => exact spells_of_stepAfter hs hn hr hc ht h

theorem spells_foldlM {ts : List Token} (hp : Spells s p) (ht : ∀ t ∈ ts, t.Proper)
    (h : ts.foldlM (step limits) p = .ok q) : Spells (s ++ ts.map Token.symbol) q := by
  induction ts generalizing s p with
  | nil =>
      cases h
      simpa using hp
  | cons t ts ih =>
      rw [List.foldlM_cons] at h
      obtain ⟨r, hq, h⟩ := exists_of_bind_eq_ok h
      have hr := spells_step hp (ht t (List.mem_cons_self ..)) hq
      simpa using ih hr (fun u hu => ht u (List.mem_cons_of_mem _ hu)) h

theorem finish_eq_ok {stop : Nat} (hp : Spells s p) (h : p.finish stop = .ok e) :
    e.Canonical ∧ e.yield = s := by
  cases hp with
  | before fs hs => cases h
  | after fs e' hs hn hr hc =>
      have hj := joined_join hs hn (Nat.le_trans (floor_le fs) hr) hc (Nat.zero_le _) 0
      simp only [finish] at h
      generalize join 0 fs e' 0 = r at h hj
      obtain ⟨fs', whole, n⟩ := r
      cases fs' with
      | nil =>
          cases h
          exact ⟨hj.canonical, by simpa [Progress.spelled] using hj.spelled⟩
      | cons f fs' =>
          have hb : floor (f :: fs') ≤ 1 := hj.floor_le
          cases f with
          | group => cases h
          | negation => simp [floor] at hb
          | operation op => exact absurd hb (Nat.not_le.2 (Nat.succ_le_succ op.rank_pos))

end

end Progress

/-- What is read from tokens is canonical and consists of their symbols. -/
theorem Expr.canonical_of_ofTokens {limits : Limits} {stop : Nat} {ts : List Token} {e : Expr}
    (ht : ∀ t ∈ ts, t.Proper) (h : Expr.ofTokens limits stop ts = .ok e) :
    e.Canonical ∧ e.yield = ts.map Token.symbol := by
  obtain ⟨q, hq, h⟩ := exists_of_bind_eq_ok h
  exact Progress.finish_eq_ok (Progress.spells_foldlM (.before [] trivial) ht hq) h

end Reckoner
