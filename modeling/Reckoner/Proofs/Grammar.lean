import Reckoner.Proofs.Canonical

namespace Reckoner

/-- The phrases of each level of the grammar: from 1 to 4 chains of operators of this rank between
phrases of the next level, at 5 minus signs in front of a primary, and at 6 the primaries. -/
inductive Phrase : Nat → List Symbol → Prop
  | chain {k : Nat} (hk : 1 ≤ k ∧ k ≤ 4) {first : List Symbol}
      (links : List (BinaryOperator × List Symbol)) (hf : Phrase (k + 1) first)
      (hr : ∀ l ∈ links, l.1.rank = k) (hl : ∀ l ∈ links, Phrase (k + 1) l.2) :
      Phrase k (first ++ links.flatMap fun l => .ofOperator l.1 :: l.2)
  | minus {s : List Symbol} (hs : Phrase 5 s) : Phrase 5 (.minus :: s)
  | primary {s : List Symbol} (hs : Phrase 6 s) : Phrase 5 s
  | literal (v : Value) : Phrase 6 [.ofValue v]
  | name (name : String) : Phrase 6 [.ofName name]
  | group {s : List Symbol} (hs : Phrase 1 s) : Phrase 6 (.leftParen :: s ++ [.rightParen])

inductive Sentence : List Symbol → Prop
  | assignment (name : String) {s : List Symbol} (hs : Phrase 1 s) :
      Sentence (.ofName name :: .assign :: s)
  | expression {s : List Symbol} (hs : Phrase 1 s) : Sentence s

namespace Phrase

theorem lower {k : Nat} {s : List Symbol} (h : Phrase (k + 1) s) (h1 : 1 ≤ k) (h5 : k ≤ 5) :
    Phrase k s := by
  by_cases hk : k = 5
  · subst hk
    exact primary h
  · simpa using chain ⟨h1, by omega⟩ [] h nofun nofun

theorem lower_le {j k : Nat} {s : List Symbol} (h : Phrase k s) (hj : 1 ≤ j) (hjk : j ≤ k)
    (hk : k ≤ 6) : Phrase j s := by
  induction hjk with
  | refl => exact h
  | step hjk ih => exact ih (h.lower (Nat.le_trans hj hjk) (Nat.le_of_succ_le_succ hk)) (by omega)

theorem snoc {op : BinaryOperator} {s t : List Symbol} (hs : Phrase op.rank s)
    (ht : Phrase (op.rank + 1) t) : Phrase op.rank (s ++ .ofOperator op :: t) := by
  generalize hk : op.rank = k at hs ht
  have h4 := op.rank_le
  cases hs with
  | @chain _ hk' first links hf hr hl =>
      have h := chain hk' (links ++ [(op, t)]) hf
        (by simpa [or_imp, forall_and, hk] using hr) (by simpa [or_imp, forall_and, ht] using hl)
      simpa using h
  | minus | primary | literal | name | group => omega

end Phrase

theorem Expr.exists_of_links {k : Nat} (links : List (BinaryOperator × List Symbol))
    (hr : ∀ l ∈ links, l.1.rank = k)
    (hl : ∀ l ∈ links, ∃ e : Expr, e.Canonical ∧ k + 1 ≤ e.rank ∧ e.yield = l.2)
    {e : Expr} (hc : e.Canonical) (hk : k ≤ e.rank) :
    ∃ e' : Expr, e'.Canonical ∧ k ≤ e'.rank ∧
      e'.yield = e.yield ++ links.flatMap fun l => .ofOperator l.1 :: l.2 := by
  induction links generalizing e with
  | nil => exact ⟨e, hc, hk, by simp⟩
  | cons l links ih =>
      obtain ⟨op, s⟩ := l
      obtain ⟨right, hcr, hkr, rfl⟩ := hl _ (List.mem_cons_self ..)
      have hop : op.rank = k := hr _ (List.mem_cons_self ..)
      obtain ⟨e', hc', hk', hy'⟩ := ih (fun l h => hr l (List.mem_cons_of_mem _ h))
        (fun l h => hl l (List.mem_cons_of_mem _ h)) (e := .binary op e right)
        ⟨⟨by omega, by omega⟩, hc, hcr⟩ (Nat.le_of_eq hop.symm)
      exact ⟨e', hc', hk', by simp [hy', Expr.yield]⟩

theorem Phrase.exists_canonical {k : Nat} {s : List Symbol} (h : Phrase k s) :
    ∃ e : Expr, e.Canonical ∧ k ≤ e.rank ∧ e.yield = s := by
  induction h with
  | chain hk links hf hr hl ihf ihl =>
      obtain ⟨e, hc, hk', rfl⟩ := ihf
      exact Expr.exists_of_links links hr ihl hc (Nat.le_of_succ_le hk')
  | minus hs ih =>
      obtain ⟨e, hc, hk, rfl⟩ := ih
      exact ⟨.unary .negate e, ⟨hk, hc⟩, Nat.le_refl 5, rfl⟩
  | primary hs ih =>
      obtain ⟨e, hc, hk, rfl⟩ := ih
      exact ⟨e, hc, Nat.le_of_succ_le hk, rfl⟩
  | literal v => exact ⟨.literal v, trivial, Nat.le_refl 6, rfl⟩
  | name name => exact ⟨.var name, trivial, Nat.le_refl 6, rfl⟩
  | group hs ih =>
      obtain ⟨e, hc, _, rfl⟩ := ih
      exact ⟨.grouping e, hc, Nat.le_refl 6, rfl⟩

theorem Phrase.of_canonical {e : Expr} (hc : e.Canonical) : Phrase e.rank e.yield := by
  induction e with
  | literal v => exact .literal v
  | var name => exact .name name
  | grouping inner ih =>
      exact .group ((ih hc).lower_le (Nat.le_refl 1) inner.rank_pos inner.rank_le)
  | unary op operand ih =>
      cases op
      exact .minus ((ih hc.2).lower_le (by decide) hc.1 operand.rank_le)
  | binary op left right ihl ihr =>
      obtain ⟨⟨hl, hr⟩, hcl, hcr⟩ := hc
      exact ((ihl hcl).lower_le op.rank_pos hl left.rank_le).snoc
        ((ihr hcr).lower_le (Nat.le_add_left ..) hr right.rank_le)

/-- The lines of the grammar are what the canonical statements yield. -/
theorem sentence_iff {s : List Symbol} :
    Sentence s ↔ ∃ r : Statement, r.expr.Canonical ∧ r.yield = s := by
  constructor
  · intro h
    cases h with
    | assignment name hs =>
        obtain ⟨e, hc, _, rfl⟩ := hs.exists_canonical
        exact ⟨.assignment name e, hc, rfl⟩
    | expression hs =>
        obtain ⟨e, hc, _, rfl⟩ := hs.exists_canonical
        exact ⟨.expression e, hc, rfl⟩
  · rintro ⟨r, hc, rfl⟩
    cases r with
    | expression e =>
        exact .expression ((Phrase.of_canonical hc).lower_le (Nat.le_refl 1) e.rank_pos e.rank_le)
    | assignment name e =>
        exact .assignment name
          ((Phrase.of_canonical hc).lower_le (Nat.le_refl 1) e.rank_pos e.rank_le)

end Reckoner
