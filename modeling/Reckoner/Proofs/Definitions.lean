import Reckoner.Command
import Reckoner.Proofs.LineReply

namespace Reckoner

namespace Command

variable {c : Calculator} {definition : String} {name : String} {v : Value}

/-- The definition gives the name the value: the name is what is before its first equals sign,
without the blanks around it, and the value that of the text behind, with no names bound. -/
def Defines (c : Calculator) (definition name : String) (v : Value) : Prop :=
  ∃ before text : String, definition = before ++ "=" ++ text ∧ '=' ∉ before.toList ∧
    Text.trim before = name ∧ Token.isIdentifier name.toList = true ∧
    c.evaluateText (fun _ => none) none text = .ok v

theorem define_of_not_mem (assigned : Bindings Value) (h : '=' ∉ definition.toList) :
    define c assigned definition = .error (.missingEquals definition) := by
  have hd : definition.toList.dropWhile (· != '=') = [] := by
    rw [List.dropWhile_eq_nil_iff]
    intro x hx
    exact bne_iff_ne.2 fun he => h (he ▸ hx)
  rw [define, hd]

theorem define_split (assigned : Bindings Value) {before : String} (h : '=' ∉ before.toList)
    (text : String) :
    define c assigned (before ++ "=" ++ text) =
      if Token.isIdentifier (Text.trim before).toList then do
        let v ← (c.evaluateText (fun _ => none) none text).mapError
          (.invalidValue (Text.trim before))
        .ok (assigned.insert (Text.trim before) v)
      else .error (.invalidName (Text.trim before)) := by
  have hb : ∀ x ∈ before.toList, (x != '=') = true := fun x hx =>
    bne_iff_ne.2 fun he => h (he ▸ hx)
  obtain ⟨ht, hd⟩ := Token.takeWhile_run hb ('=' :: text.toList) (by simp)
  have hs : (before ++ "=" ++ text).toList = before.toList ++ '=' :: text.toList := by simp
  rw [define, hs, ht, hd]
  simp only [String.ofList_toList]

theorem define_of_defines (h : Defines c definition name v) (assigned : Bindings Value) :
    define c assigned definition = .ok (assigned.insert name v) := by
  obtain ⟨before, text, rfl, hb, rfl, hi, hv⟩ := h
  rw [define_split assigned hb, if_pos hi, mapError_eq_ok_iff.2 hv]
  rfl

theorem exists_of_define {assigned assigned' : Bindings Value}
    (h : define c assigned definition = .ok assigned') :
    ∃ name v, Defines c definition name v ∧ assigned' = assigned.insert name v := by
  by_cases hm : '=' ∈ definition.toList
  · obtain ⟨b, t, hs, hb⟩ := List.eq_append_cons_of_mem hm
    obtain rfl : definition = String.ofList b ++ "=" ++ String.ofList t := by
      rw [← String.toList_inj]
      simpa using hs
    have hb' : '=' ∉ (String.ofList b).toList := by simpa using hb
    rw [define_split assigned hb'] at h
    split at h
    · rename_i hi
      obtain ⟨v, hv, ha⟩ := exists_of_bind_eq_ok h
      exact ⟨_, v, ⟨_, _, rfl, hb', rfl, hi, mapError_eq_ok_iff.1 hv⟩, (Except.ok.inj ha).symm⟩
    · cases h
  · rw [define_of_not_mem assigned hm] at h
    cases h

theorem Defines.unique {name' : String} {v' : Value} (h : Defines c definition name v)
    (h' : Defines c definition name' v') : name = name' ∧ v = v' := by
  have he := (define_of_defines h .empty).symm.trans (define_of_defines h' .empty)
  have hs : [(name, v)] = [(name', v')] := congrArg Bindings.entries (Except.ok.inj he)
  simpa using hs

def DefinesLast (c : Calculator) (definitions : List String) (name : String) (v : Value) : Prop :=
  ∃ before definition after, definitions = before ++ definition :: after ∧
    Defines c definition name v ∧ ∀ d ∈ after, ∀ w, ¬ Defines c d name w

theorem definesLast_cons {definitions : List String} :
    DefinesLast c (definition :: definitions) name v ↔ DefinesLast c definitions name v ∨
      Defines c definition name v ∧ ∀ d ∈ definitions, ∀ w, ¬ Defines c d name w := by
  constructor
  · rintro ⟨before, d, after, hs, hd, ha⟩
    cases before with
    | nil =>
        cases hs
        exact .inr ⟨hd, ha⟩
    | cons x before =>
        cases hs
        exact .inl ⟨before, d, after, rfl, hd, ha⟩
  · rintro (⟨before, d, after, rfl, hd, ha⟩ | ⟨hd, ha⟩)
    · exact ⟨definition :: before, d, after, rfl, hd, ha⟩
    · exact ⟨[], definition, definitions, rfl, hd, ha⟩

theorem exists_assigned_iff (definitions : List String) (assigned : Bindings Value) :
    (∃ assigned', definitions.foldlM (define c) assigned = .ok assigned') ↔
      ∀ d ∈ definitions, ∃ name v, Defines c d name v := by
  induction definitions generalizing assigned with
  | nil => exact ⟨fun _ => nofun, fun _ => ⟨assigned, rfl⟩⟩
  | cons d ds ih =>
      rw [List.forall_mem_cons, List.foldlM_cons]
      constructor
      · rintro ⟨assigned', h⟩
        obtain ⟨_, hd, hds⟩ := exists_of_bind_eq_ok h
        obtain ⟨name, v, hn, _⟩ := exists_of_define hd
        exact ⟨⟨name, v, hn⟩, (ih _).1 ⟨assigned', hds⟩⟩
      · rintro ⟨⟨name, v, hn⟩, hds⟩
        rw [define_of_defines hn assigned]
        exact (ih _).2 hds

theorem find?_of_foldlM {definitions : List String} {assigned assigned' : Bindings Value}
    (h : definitions.foldlM (define c) assigned = .ok assigned') (name : String) (v : Value) :
    assigned'.find? name = some v ↔ DefinesLast c definitions name v ∨
      assigned.find? name = some v ∧ ∀ d ∈ definitions, ∀ w, ¬ Defines c d name w := by
  induction definitions generalizing assigned with
  | nil =>
      cases h
      simp [DefinesLast]
  | cons d ds ih =>
      rw [List.foldlM_cons] at h
      obtain ⟨_, hd, hds⟩ := exists_of_bind_eq_ok h
      obtain ⟨n, w, hn, rfl⟩ := exists_of_define hd
      rw [ih hds, definesLast_cons, List.forall_mem_cons, Bindings.find?_insert]
      -- The first definition counts only where none behind it gives its name a value anew.
      by_cases he : name = n
      · subst he
        have hv : w = v ↔ Defines c d name v := ⟨fun h => h ▸ hn, fun h => (hn.unique h).2⟩
        have hf : ¬ ∀ w, ¬ Defines c d name w := fun h => h w hn
        rw [if_pos rfl, Option.some.injEq, hv]
        simp only [hf, false_and, and_false, or_false]
      · have hf : ∀ w, ¬ Defines c d name w := fun w' h => he (h.unique hn).1
        rw [if_neg he, and_iff_right hf]
        simp only [hf v, false_and, or_false]

theorem answer_of_parse {env : Environment} {text : String} {e : Expr}
    (hp : c.parse text = .ok (.expression e)) (hv : c.evaluate env e = .ok v) :
    answer c env none false text = .ok v.text := by
  rw [answer, hp]
  change c.evaluateTo env none e >>= _ = _
  rw [Calculator.evaluateTo, hv]
  rfl

end Command

namespace Token

theorem tokenize_of_isIdentifier {name : String} (h : isIdentifier name.toList = true) :
    ∃ t stop, tokenize name = .ok [t, ending stop] ∧ t.lexeme = name ∧
      (t.kind = .identifier ↔ IsName name) := by
  let t : Token := word 0 name.toList
  have hl : t.lexeme = name := by rw [word_lexeme, String.ofList_toList]
  have hp : t.position = 0 := word_position 0 name.toList
  have ht : Tiles 0 name.toList [t] t.stop [] :=
    hp ▸ .cons_adjacent (formed_word h 0) (by simp [t, hl]) (by simp) (.nil ..)
  refine ⟨t, _, tokenize_of_ok (scan_of_tiles ht (by simp)), hl, ?_⟩
  have he := word_eq 0 name.toList
  rw [String.ofList_toList] at he
  rcases he with ⟨rfl, hk⟩ | ⟨rfl, hk⟩ | ⟨hn, hn', hk⟩
  · simp [t, hk, IsName]
  · simp [t, hk, IsName]
  · simp [t, hk, IsName, h, hn, hn']

end Token

namespace Command

/-- Definitions are accepted where each defines something, and a name has the value of the last of
its definitions. It reads as one token, and as its value unless it is a keyword, which keeps its own
meaning. -/
theorem answer_of_definitions (c : Calculator) (definitions : List String) :
    ((∃ assigned, definitions.foldlM (define c) .empty = .ok assigned) ↔
      ∀ d ∈ definitions, ∃ name v, Defines c d name v) ∧
    ∀ assigned, definitions.foldlM (define c) .empty = .ok assigned → ∀ name v,
      (assigned.find? name = some v ↔ DefinesLast c definitions name v) ∧
      (assigned.find? name = some v →
        (Token.IsName name → answer c assigned.find? none false name = .ok v.text) ∧
        (¬ Token.IsName name → (name = "true" ∨ name = "false") ∧
          answer c assigned.find? none false name = .ok name) ∧
        ∃ t stop, Token.tokenize name = .ok [t, .ending stop] ∧ t.lexeme = name ∧
          (t.kind = .identifier ↔ Token.IsName name)) := by
  refine ⟨exists_assigned_iff definitions .empty, fun assigned h name v => ?_⟩
  have hl : assigned.find? name = some v ↔ DefinesLast c definitions name v := by
    rw [find?_of_foldlM h]
    exact or_iff_left fun h => nomatch h.1
  refine ⟨hl, fun hv => ?_⟩
  obtain ⟨_, _, _, _, ⟨_, _, _, _, _, hi, _⟩, _⟩ := hl.1 hv
  refine ⟨fun hn => ?read, fun hn => ?keyword, Token.tokenize_of_isIdentifier hi⟩
  case read => exact answer_of_parse (Statement.ofText_of_isName _ hn) (c.evaluate_var hv)
  case keyword =>
    obtain ⟨b, rfl⟩ : ∃ b, name = (Value.boolean b).text := by
      by_contra hb
      exact hn ⟨hi, fun h => hb ⟨true, h⟩, fun h => hb ⟨false, h⟩⟩
    refine ⟨?_, answer_of_parse (Statement.ofText_of_boolean _ b) (c.evaluate_literal _ _)⟩
    cases b with
    | true => exact .inl rfl
    | false => exact .inr rfl

theorem answer_of_second_definition :
    let one : Value := .integer ⟨1, by decide⟩
    let six : Value := .integer ⟨6, by decide⟩
    let definitions := ["n = 1", "who=\"n=2\"", " n = 2 * 3"]
    let assigned := ((Bindings.empty.insert "n" one).insert "who" (.string "n=2")).insert "n" six
    definitions.foldlM (define .standard) .empty = .ok assigned ∧
      assigned.find? "n" = some six ∧ DefinesLast .standard definitions "n" six ∧
      Token.IsName "n" ∧ answer .standard assigned.find? none false "n" = .ok "6" := by
  intro one six definitions assigned
  have h1 : Defines .standard "n = 1" "n" one :=
    ⟨"n ", " 1", by decide +kernel⟩
  have h2 : Defines .standard "who=\"n=2\"" "who" (.string "n=2") :=
    ⟨"who", "\"n=2\"", by decide +kernel⟩
  have h3 : Defines .standard " n = 2 * 3" "n" six :=
    ⟨" n ", " 2 * 3", by decide +kernel⟩
  have h : definitions.foldlM (define .standard) .empty = .ok assigned := by
    simp only [definitions, List.foldlM_cons, List.foldlM_nil, define_of_defines h1,
      define_of_defines h2, define_of_defines h3]
    rfl
  have hv : assigned.find? "n" = some six := by decide +kernel
  have hn : Token.IsName "n" := ⟨by decide +kernel, by decide, by decide⟩
  obtain ⟨hl, ha⟩ := (answer_of_definitions .standard definitions).2 assigned h "n" six
  exact ⟨h, hv, hl.1 hv, hn, (ha hv).1 hn⟩

/-- A keyword is taken for a name where it is defined, and not where it is read. -/
theorem keyword_defined_in_vain :
    let five : Value := .integer ⟨5, by decide⟩
    let assigned := Bindings.empty.insert "true" five
    ["true=5"].foldlM (define .standard) .empty = .ok assigned ∧
      assigned.find? "true" = some five ∧ five.text = "5" ∧
      answer .standard assigned.find? none false "true" = .ok "true" ∧
      Token.tokenize "true" =
        .ok [⟨.boolean, "true", 0, some (.boolean true)⟩, .ending 4] := by
  intro five assigned
  have h : Defines .standard "true=5" "true" five := ⟨"true", "5", by decide +kernel⟩
  refine ⟨?_, by decide +kernel, by decide +kernel, by decide +kernel, by decide +kernel⟩
  rw [List.foldlM_cons, define_of_defines h]
  rfl

end Command

end Reckoner
