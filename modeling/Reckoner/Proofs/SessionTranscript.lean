import Reckoner.Proofs.ByteOrder
import Reckoner.Proofs.LineReply

namespace Reckoner.Transcript

def after? (s : Session) (lines : List String) : Option Session :=
  lines.foldlM (fun s line => (reply? s line).map (·.2)) s

def answers (s : Session) : List String → List String
  | [] => []
  | line :: lines =>
      match reply? s line with
      | some (answer, s) => answer :: answers s lines
      | none => []

variable {c : Calculator} {s s' t : Session} {line answer : String}
  {lines before after : List String}

theorem after?_cons_of_some (h : reply? s line = some (answer, s')) (lines : List String) :
    after? s (line :: lines) = after? s' lines := by
  rw [after?, List.foldlM_cons, h]
  rfl

theorem after?_cons_of_none (h : reply? s line = none) (lines : List String) :
    after? s (line :: lines) = none := by
  rw [after?, List.foldlM_cons, h]
  rfl

theorem answers_cons_of_some (h : reply? s line = some (answer, s')) (lines : List String) :
    answers s (line :: lines) = answer :: answers s' lines := by
  rw [answers, h]

theorem answers_cons_of_none (h : reply? s line = none) (lines : List String) :
    answers s (line :: lines) = [] := by
  rw [answers, h]

theorem replies_eq (s : Session) (lines : List String) :
    replies s lines = String.join ((answers s lines).map (· ++ prompt)) := by
  induction lines generalizing s with
  | nil => rfl
  | cons line lines ih =>
      cases h : reply? s line with
      | none => rw [replies, answers_cons_of_none h, h]; rfl
      | some x =>
          rw [replies, answers_cons_of_some h, h, List.map_cons, String.join_cons, ← ih]

theorem length_answers (s : Session) (lines : List String) : (answers s lines).length =
    (lines.takeWhile fun line => Text.trim line != ":quit").length := by
  induction lines generalizing s with
  | nil => rfl
  | cons line lines ih =>
      cases h : reply? s line with
      | none =>
          have hq := reply?_eq_none_iff.1 h
          rw [answers_cons_of_none h, List.takeWhile_cons_of_neg (by simp [hq])]
      | some x =>
          have hq : Text.trim line ≠ ":quit" := fun hq => by
            rw [reply?_eq_none_iff.2 hq] at h
            cases h
          rw [answers_cons_of_some h, List.takeWhile_cons_of_pos (by simpa using hq),
            List.length_cons, List.length_cons, ih]

theorem getElem?_answers_eq_some_iff {i : Nat} : (answers s lines)[i]? = some answer ↔
    ∃ line t t', lines[i]? = some line ∧ after? s (lines.take i) = some t ∧
      reply? t line = some (answer, t') := by
  induction lines generalizing s i with
  | nil => simp [answers]
  | cons line lines ih =>
      cases h : reply? s line with
      | none =>
          rw [answers_cons_of_none h]
          cases i with
          | zero => simp [after?, h]
          | succ i => simp [after?_cons_of_none h]
      | some x =>
          rw [answers_cons_of_some h]
          cases i with
          | zero =>
              constructor
              · rintro ⟨⟩
                exact ⟨line, s, x.2, rfl, rfl, h⟩
              · rintro ⟨_, _, _, ⟨⟩, ⟨⟩, hr⟩
                rw [h] at hr
                cases hr
                rfl
          | succ i => simp [after?_cons_of_some h, ih]

theorem answers_append_of_some (h : after? s before = some t) (after : List String) :
    (answers s before).length = before.length ∧
      answers s (before ++ after) = answers s before ++ answers t after := by
  induction before generalizing s with
  | nil =>
      cases h
      exact ⟨rfl, rfl⟩
  | cons line before ih =>
      cases hr : reply? s line with
      | none => cases (after?_cons_of_none hr before).symm.trans h
      | some x =>
          rw [after?_cons_of_some hr] at h
          obtain ⟨hl, ha⟩ := ih h
          rw [List.cons_append, answers_cons_of_some hr, answers_cons_of_some hr, ha]
          exact ⟨congrArg (· + 1) hl, rfl⟩

theorem answers_append_of_none (h : after? s before = none) (after : List String) :
    (answers s before).length < before.length ∧
      answers s (before ++ after) = answers s before := by
  induction before generalizing s with
  | nil => cases h
  | cons line before ih =>
      cases hr : reply? s line with
      | none =>
          rw [List.cons_append, answers_cons_of_none hr, answers_cons_of_none hr]
          exact ⟨Nat.zero_lt_succ _, rfl⟩
      | some x =>
          rw [after?_cons_of_some hr] at h
          obtain ⟨hl, ha⟩ := ih h
          rw [List.cons_append, answers_cons_of_some hr, answers_cons_of_some hr, ha]
          exact ⟨Nat.succ_lt_succ hl, rfl⟩

/-- A line that assigns nothing is missed by no other line. -/
theorem answers_append_of_not_assigns (hq : Text.trim line ≠ ":quit")
    (hn : ∀ t, after? s before = some t → ∀ name v, ¬ Assigns t line name v) :
    answers s (before ++ after) =
      (answers s (before ++ line :: after)).eraseIdx before.length := by
  cases hb : after? s before with
  | none =>
      obtain ⟨hl, ha⟩ := answers_append_of_none hb after
      obtain ⟨_, ha'⟩ := answers_append_of_none hb (line :: after)
      rw [ha, ha', List.eraseIdx_of_length_le (Nat.le_of_lt hl)]
  | some t =>
      obtain ⟨hl, ha⟩ := answers_append_of_some hb after
      obtain ⟨_, ha'⟩ := answers_append_of_some hb (line :: after)
      obtain ⟨⟨answer, t'⟩, hr⟩ :=
        Option.ne_none_iff_exists'.1 fun hr => hq (reply?_eq_none_iff.1 hr)
      obtain rfl := eq_of_reply? hr (hn t hb)
      rw [ha, ha', answers_cons_of_some hr, ← hl,
        List.eraseIdx_append_of_length_le (Nat.le_refl _), Nat.sub_self, List.eraseIdx_cons_zero]

/-- What lines do in a session of the calculator. -/
structure Lawful (c : Calculator) (s : Session) : Prop where
  calculator : s.calculator = c
  isName : ∀ name v, s.environment name = some v → Token.IsName name
  /-- An assignment that goes well binds its name to its value, and nothing else. -/
  assigned : ∀ line name v, Assigns s line name v → ∃ s',
    reply? s line = some (name ++ " = " ++ v.text ++ "\n", s') ∧
      ∀ y, s'.environment y = if y = name then some v else s.environment y
  /-- Nothing else, and nothing that fails, leaves a trace. -/
  unchanged : ∀ line answer s', (∀ name v, ¬ Assigns s line name v) →
    reply? s line = some (answer, s') → s' = s
  ended : ∀ line, reply? s line = none ↔ Text.trim line = ":quit"
  /-- What is bound can be asked for by its name. -/
  recalled : ∀ name v, s.environment name = some v → ∀ before after : List Char,
    (∀ x ∈ before, Text.isBlank x = true) → (∀ x ∈ after, Text.isBlank x = true) →
      reply? s (String.ofList (before ++ name.toList ++ after)) = some (v.text ++ "\n", s)
  /-- The listing has every name once, in the order of the bytes. -/
  listed : ∀ line, Text.trim line = ":vars" → ∃ entries : List (String × Value),
    reply? s line = some
      (String.join (entries.map fun e => e.1 ++ " = " ++ e.2.taggedText ++ "\n"), s) ∧
    entries.Pairwise (fun e f => Text.bytes e.1 < Text.bytes f.1) ∧
    ∀ name v, (name, v) ∈ entries ↔ s.environment name = some v

theorem lawful_of_isName (hc : s.calculator = c)
    (hn : ∀ name v, s.environment name = some v → Token.IsName name) : Lawful c s where
  calculator := hc
  isName := hn
  assigned _ name v h :=
    ⟨s.assign name v, reply?_of_assigns h, s.assigned.find?_insert name v⟩
  unchanged _ _ _ hn h := eq_of_reply? h hn
  ended _ := reply?_eq_none_iff
  recalled name v hv _ _ hb ha :=
    reply?_of_isName (hn name v hv) hv (Token.trim_of_isName (hn name v hv) hb ha)
  listed _ h := ⟨s.assigned.entries, reply?_of_listing h,
    s.assigned.sorted.imp Text.bytes_lt, fun _ _ => s.assigned.mem_entries_iff⟩

theorem lawful_start (c : Calculator) : Lawful c (.start c) := by
  refine lawful_of_isName rfl fun name v h => ?_
  rw [show (Session.start c).environment name = none from rfl] at h
  cases h

theorem lawful_of_reply? (h : Lawful c s) (hr : reply? s line = some (answer, s')) :
    Lawful c s' := by
  by_cases ha : ∃ name v, Assigns s line name v
  · obtain ⟨name, v, ha⟩ := ha
    have hn : Token.IsName name := by
      obtain ⟨e, hp, _⟩ := ha
      exact (Statement.written_of_ofText hp).1
    rw [reply?_of_assigns ha] at hr
    cases hr
    refine lawful_of_isName h.calculator fun y w hy => ?_
    change (s.assigned.insert name v).find? y = some w at hy
    rw [Bindings.find?_insert] at hy
    split at hy
    · rename_i hy'
      exact hy' ▸ hn
    · exact h.isName y w hy
  · rwa [eq_of_reply? hr fun name v hs => ha ⟨name, v, hs⟩]

theorem lawful_of_after? (h : Lawful c s) (ha : after? s lines = some s') : Lawful c s' := by
  induction lines generalizing s with
  | nil =>
      cases ha
      exact h
  | cons line lines ih =>
      cases hr : reply? s line with
      | none => cases (after?_cons_of_none hr lines).symm.trans ha
      | some x =>
          rw [after?_cons_of_some hr] at ha
          exact ih (lawful_of_reply? h hr) ha

/-- Whatever the lines are, the session obeys the same laws before each of them, and its output is
the answers up to the first line that ends it. A line that assigns nothing could be left out. -/
theorem ofLines_lawful (c : Calculator) (lines : List String) :
    (∀ s, after? (.start c) lines = some s → Lawful c s) ∧
    ofLines c lines = prompt ++ String.join ((answers (.start c) lines).map (· ++ prompt)) ∧
    (answers (.start c) lines).length =
      (lines.takeWhile fun line => Text.trim line != ":quit").length ∧
    (∀ i answer, (answers (.start c) lines)[i]? = some answer ↔ ∃ line s s',
      lines[i]? = some line ∧ after? (.start c) (lines.take i) = some s ∧
        reply? s line = some (answer, s')) ∧
    ∀ before line after, lines = before ++ line :: after → Text.trim line ≠ ":quit" →
      (∀ s, after? (.start c) before = some s → ∀ name v, ¬ Assigns s line name v) →
      answers (.start c) (before ++ after) =
        (answers (.start c) lines).eraseIdx before.length := by
  refine ⟨?_, ?_, length_answers _ _, ?_, ?_⟩
  · intro s hs
    exact lawful_of_after? (lawful_start c) hs
  · rw [ofLines, replies_eq]
  · intro i answer
    exact getElem?_answers_eq_some_iff
  · rintro before line after rfl hq hn
    exact answers_append_of_not_assigns hq hn

theorem bound_from_itself :
    ofLines .standard ["x = 2", "x = x * x", "b = x +", " x ", "a = true", ":vars", ":quit", "x"] =
      "> x = 2\n> x = 4\n> error: 语法错误: 位置 7：表达式意外结束\n> 4\n> a = true\n" ++
        "> a = Boolean(true)\nx = Integer(4)\n> " ∧
    answers (.start .standard) ["x = 2", "x = x * x", " x ", "a = true", ":vars", ":quit", "x"] =
      ["x = 2\n", "x = 4\n", "4\n", "a = true\n", "a = Boolean(true)\nx = Integer(4)\n"] ∧
    ∃ s, after? (.start .standard) ["x = 2", "x = x * x"] = some s ∧ Lawful .standard s ∧
      s.environment "x" = some (.integer ⟨4, by decide⟩) ∧ reply? s "\tx" = some ("4\n", s) := by
  obtain ⟨hbefore, -⟩ := ofLines_lawful .standard ["x = 2", "x = x * x"]
  obtain ⟨-, hout, -, -, hdel⟩ := ofLines_lawful .standard
    ["x = 2", "x = x * x", "b = x +", " x ", "a = true", ":vars", ":quit", "x"]
  have hfail : (Calculator.standard.parse (Text.trim "b = x +")).isOk = false := by
    decide +kernel
  have hx : (after? (.start .standard) ["x = 2", "x = x * x"]).bind (·.environment "x") =
      some (.integer ⟨4, by decide⟩) := by
    decide +kernel
  obtain ⟨s, hs, hv⟩ := Option.bind_eq_some_iff.1 hx
  have hlaw := hbefore s hs
  have hmissed := hdel ["x = 2", "x = x * x"] "b = x +" [" x ", "a = true", ":vars", ":quit", "x"]
    rfl (by decide +kernel) fun t ht name v ⟨e, hp, _⟩ => by
      rw [(hbefore t ht).calculator] at hp
      rw [hp] at hfail
      cases hfail
  refine ⟨?_, ?_, s, hs, hlaw, hv, ?_⟩
  · rw [hout]
    decide +kernel
  · refine hmissed.trans ?_
    decide +kernel
  · have htab : Text.isBlank '\t' = true := by decide +kernel
    exact hlaw.recalled "x" _ hv ['\t'] [] (List.forall_mem_singleton.2 htab) nofun

end Reckoner.Transcript
