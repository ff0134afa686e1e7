import Reckoner.Transcript
import Reckoner.Proofs.InfixForm

namespace Reckoner

theorem Bindings.mem_entries_iff {α : Type} (b : Bindings α) {name : String} {a : α} :
    (name, a) ∈ b.entries ↔ b.find? name = some a := by
  have key (l : List (String × α)) (h : l.Pairwise (·.1 < ·.1)) :
      (name, a) ∈ l ↔ l.lookup name = some a := by
    induction l with
    | nil => exact ⟨nofun, nofun⟩
    | cons e r ih =>
        obtain ⟨he, hr⟩ := List.pairwise_cons.1 h
        rw [List.mem_cons, lookup_cons, ih hr]
        by_cases hk : name = e.1
        · have hn : r.lookup name ≠ some a := fun hl =>
            String.lt_irrefl _ (hk ▸ he _ ((ih hr).2 hl))
          rw [if_pos hk, Option.some.injEq, Prod.ext_iff]
          exact ⟨fun h => (h.resolve_right hn).2.symm, fun h => .inl ⟨hk, h.symm⟩⟩
        · rw [if_neg hk, Prod.ext_iff]
          exact or_iff_right fun h => hk h.1
  exact key b.entries b.sorted

namespace Token

theorem trim_of_isName {name : String} (h : IsName name) {before after : List Char}
    (hb : ∀ x ∈ before, Text.isBlank x = true) (ha : ∀ x ∈ after, Text.isBlank x = true) :
    Text.trim (String.ofList (before ++ name.toList ++ after)) = name := by
  obtain ⟨c, cs, rfl, hs, hc⟩ := exists_of_isIdentifier h.1
  have hn : ∀ x ∈ c :: cs, Text.isBlank x = false :=
    List.forall_mem_cons.2 ⟨isBlank_of_continuesWord (continuesWord_of_startsWord hs),
      fun x hx => isBlank_of_continuesWord (hc x hx)⟩
  have hl : ∀ x ∈ (c :: cs).reverse.head?, Text.isBlank x = false := fun x hx =>
    hn x (List.mem_reverse.1 (List.mem_of_mem_head? hx))
  have hr : ∀ x ∈ after.reverse, Text.isBlank x = true := fun x hx => ha x (List.mem_reverse.1 hx)
  rw [Text.trim, String.toList_ofList, String.toList_ofList, List.append_assoc,
    (takeWhile_run hb (c :: cs ++ after) (by simpa using hn c)).2, List.reverse_append,
    (takeWhile_run hr (c :: cs).reverse hl).2, List.reverse_reverse]

end Token

theorem Statement.yield_ne_nil (r : Statement) : r.yield ≠ [] := by
  have expression (e : Expr) : e.yield ≠ [] := by
    cases e with
    | unary op operand => cases op; simp [Expr.yield]
    | literal | var | grouping | binary => simp [Expr.yield]
  cases r with
  | expression e => exact expression e
  | assignment name e => simp [yield]

/-- What a session answers on its own is no expression and no assignment. -/
theorem Statement.ofText_ne_of_builtin (limits : Limits) {text : String}
    (h : text = "" ∨ text = ":quit" ∨ text = ":vars") (r : Statement) :
    ofText limits text ≠ .ok r := by
  have refused {text : String} {e : LexError} (ht : Token.tokenize text = .error e) :
      ofText limits text ≠ .ok r := by
    intro h
    obtain ⟨tokens, ht', _⟩ := ofText_eq_ok_iff.1 h
    cases ht.symm.trans ht'
  rcases h with rfl | rfl | rfl
  · intro h
    obtain ⟨tokens, ht, ho⟩ := ofText_eq_ok_iff.1 h
    have h0 : Token.tokenize "" = .ok ([] ++ [Token.ending 0]) := by decide +kernel
    obtain rfl := Except.ok.inj (h0.symm.trans ht)
    exact yield_ne_nil r (canonical_of_ofTokens (by simp) ho).1.2
  · exact refused (e := .unexpectedCharacter ':' 0) (by decide +kernel)
  · exact refused (e := .unexpectedCharacter ':' 0) (by decide +kernel)

theorem Calculator.evaluate_of_unlimited (c : Calculator) {env : Environment} {e : Expr}
    {v : Value} (hr : c.settings.policy.reach env 1 e = 1)
    (h : c.settings.policy.unlimited env e = .ok v) : c.evaluate env e = .ok v := by
  have hd : 1 ≤ c.settings.policy.maxDepth := c.usable.maxDepth_pos
  rw [evaluate, Policy.evaluate_of_reach_le _ env (hr.trans_le hd), h]
  rfl

theorem Calculator.evaluate_literal (c : Calculator) (env : Environment) (v : Value) :
    c.evaluate env (.literal v) = .ok v := c.evaluate_of_unlimited rfl rfl

theorem Calculator.evaluate_var (c : Calculator) {env : Environment} {name : String} {v : Value}
    (h : env name = some v) : c.evaluate env (.var name) = .ok v := by
  refine c.evaluate_of_unlimited rfl ?_
  rw [Policy.unlimited, h]

namespace Session

theorem line_of_ok {s : Session} {text : String} {r : Statement} {v : Value}
    (hp : s.calculator.parse text = .ok r)
    (hv : s.calculator.evaluate s.environment r.expr = .ok v) :
    s.line text = .ok (⟨r.name?, v⟩, (r.name?.map fun name => s.assign name v).getD s) := by
  rw [line, hp]
  change s.calculator.evaluate s.environment r.expr >>= _ = _
  rw [hv]
  rfl

theorem exists_of_line {s : Session} {text : String} {x : Answer × Session}
    (h : s.line text = .ok x) : ∃ r v, s.calculator.parse text = .ok r ∧
      s.calculator.evaluate s.environment r.expr = .ok v := by
  rw [line] at h
  obtain ⟨r, hp, h⟩ := exists_of_bind_eq_ok h
  obtain ⟨v, hv, _⟩ := exists_of_bind_eq_ok h
  exact ⟨r, v, hp, hv⟩

end Session

namespace Transcript

variable {s : Session} {line name : String} {v : Value}

/-- The line is an assignment of the value to the name, and nothing is wrong with it. -/
def Assigns (s : Session) (line name : String) (v : Value) : Prop :=
  ∃ e, s.calculator.parse (Text.trim line) = .ok (.assignment name e) ∧
    s.calculator.evaluate s.environment e = .ok v

theorem ofLine_cases (line : String) :
    (Text.trim line = "" ∧ Request.ofLine line = .nothing) ∨
    (Text.trim line = ":quit" ∧ Request.ofLine line = .quit) ∨
    (Text.trim line = ":vars" ∧ Request.ofLine line = .listing) ∨
    (Text.trim line ≠ ":quit" ∧ Request.ofLine line = .statement (Text.trim line)) := by
  unfold Request.ofLine
  generalize Text.trim line = text
  split
  · exact .inl ⟨rfl, rfl⟩
  · exact .inr (.inl ⟨rfl, rfl⟩)
  · exact .inr (.inr (.inl ⟨rfl, rfl⟩))
  · rename_i hq _
    exact .inr (.inr (.inr ⟨hq, rfl⟩))

theorem ofLine_of_parse {c : Calculator} {r : Statement}
    (h : c.parse (Text.trim line) = .ok r) :
    Request.ofLine line = .statement (Text.trim line) := by
  have hb : ¬ (Text.trim line = "" ∨ Text.trim line = ":quit" ∨ Text.trim line = ":vars") :=
    fun hb => Statement.ofText_ne_of_builtin c.settings.limits hb r h
  rcases ofLine_cases line with ⟨h, _⟩ | ⟨h, _⟩ | ⟨h, _⟩ | ⟨_, h⟩
  · exact absurd (.inl h) hb
  · exact absurd (.inr (.inl h)) hb
  · exact absurd (.inr (.inr h)) hb
  · exact h

theorem reply?_of_ok {r : Statement} (hp : s.calculator.parse (Text.trim line) = .ok r)
    (hv : s.calculator.evaluate s.environment r.expr = .ok v) :
    reply? s line = some ((Answer.mk r.name? v).text ++ "\n",
      (r.name?.map fun name => s.assign name v).getD s) := by
  rw [reply?, ofLine_of_parse hp]
  simp only [Session.line_of_ok hp hv]

theorem reply?_of_assigns (h : Assigns s line name v) :
    reply? s line = some (name ++ " = " ++ v.text ++ "\n", s.assign name v) := by
  obtain ⟨e, hp, hv⟩ := h
  exact reply?_of_ok hp hv

theorem reply?_eq_none_iff : reply? s line = none ↔ Text.trim line = ":quit" := by
  rcases ofLine_cases line with ⟨ht, h⟩ | ⟨ht, h⟩ | ⟨ht, h⟩ | ⟨ht, h⟩ <;> rw [reply?, h]
  · simp [ht]
  · simp [ht]
  · simp [ht]
  · simp only [ht, iff_false]
    split <;> nofun

/-- All that a line can do to a session is to assign a value to a name. -/
theorem eq_of_reply? {answer : String} {s' : Session} (h : reply? s line = some (answer, s'))
    (hn : ∀ name v, ¬ Assigns s line name v) : s' = s := by
  rcases ofLine_cases line with ⟨_, ht⟩ | ⟨_, ht⟩ | ⟨_, ht⟩ | ⟨_, ht⟩
  · simp only [reply?, ht, Option.some.injEq, Prod.mk.injEq] at h
    exact h.2.symm
  · simp only [reply?, ht, reduceCtorEq] at h
  · simp only [reply?, ht, Option.some.injEq, Prod.mk.injEq] at h
    exact h.2.symm
  · cases hl : s.line (Text.trim line) with
    | error f =>
        simp only [reply?, ht, hl, Option.some.injEq, Prod.mk.injEq] at h
        exact h.2.symm
    | ok x =>
        obtain ⟨r, v, hp, hv⟩ := Session.exists_of_line hl
        rw [reply?_of_ok hp hv, Option.some.injEq, Prod.mk.injEq] at h
        cases r with
        | expression e => exact h.2.symm
        | assignment name e => exact absurd ⟨e, hp, hv⟩ (hn name v)

theorem reply?_of_listing (h : Text.trim line = ":vars") :
    reply? s line = some (listing s, s) := by
  rw [reply?, Request.ofLine, h]
  rfl

theorem reply?_of_isName (hn : Token.IsName name) (hv : s.environment name = some v)
    (ht : Text.trim line = name) : reply? s line = some (v.text ++ "\n", s) := by
  subst ht
  exact reply?_of_ok (r := .expression (.var _)) (Statement.ofText_of_isName _ hn)
    (s.calculator.evaluate_var hv)

end Transcript

end Reckoner
