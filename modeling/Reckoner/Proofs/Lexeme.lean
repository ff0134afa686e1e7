import Reckoner.Proofs.CharClass
import Mathlib.Data.List.TakeWhile

namespace Reckoner

/-- The characters that would have been part of a token of this kind, had they come next. -/
def TokenKind.continues : TokenKind → Char → Bool
  | number => Token.isNumberChar
  | identifier | boolean => Token.continuesWord
  | _ => fun _ => false

def TokenKind.spelling? : TokenKind → Option String
  | leftParen => some "("
  | rightParen => some ")"
  | assign => some "="
  | operator op => some op.symbol
  | _ => none

theorem TokenKind.continues_of_spelling? {k : TokenKind} {lexeme : String}
    (hk : k.spelling? = some lexeme) (c : Char) : k.continues c = false := by
  cases k with
  | number | string | boolean | identifier | endOfInput => cases hk
  | operator | leftParen | rightParen | assign => rfl

namespace Token

inductive Formed : Token → Prop
  | number {c : Char} {cs : List Char} {v : Value} (hd : c.isDigit = true)
      (hc : ∀ x ∈ cs, isNumberChar x = true) (hv : numberValue? (c :: cs) = some v) (p : Nat) :
      Formed ⟨.number, String.ofList (c :: cs), p, some v⟩
  | string {content : List Char} (hq : '"' ∉ content) (p : Nat) :
      Formed ⟨.string, String.ofList ('"' :: content ++ ['"']), p,
        some (.string (String.ofList content))⟩
  | word {c : Char} {cs : List Char} (hs : startsWord c = true)
      (hc : ∀ x ∈ cs, continuesWord x = true) (p : Nat) : Formed (word p (c :: cs))
  | mark {k : TokenKind} {lexeme : String} (hk : k.spelling? = some lexeme) (p : Nat) :
      Formed ⟨k, lexeme, p, none⟩

theorem mark?_eq_some_iff {text r : List Char} {k : TokenKind} {lexeme : String} :
    mark? text = some (k, lexeme, r) ↔ k.spelling? = some lexeme ∧ text = lexeme.toList ++ r := by
  constructor
  · intro h
    unfold mark? at h
    split at h <;> cases h <;> exact ⟨rfl, rfl⟩
  · rintro ⟨hk, rfl⟩
    rcases k with _ | _ | _ | _ | ((_ | _ | _ | _) | (_ | _)) | _ | _ | _ | _ <;> cases hk <;> rfl

theorem exists_of_spelling? {k : TokenKind} {lexeme : String} (hk : k.spelling? = some lexeme) :
    ∃ c cs, lexeme.toList = c :: cs ∧ c.isDigit = false ∧ c ≠ '"' ∧ startsWord c = false ∧
      Text.isBlank c = false := by
  rcases k with _ | _ | _ | _ | ((_ | _ | _ | _) | (_ | _)) | _ | _ | _ | _ <;> cases hk <;>
    exact ⟨_, _, rfl, by decide +kernel⟩

theorem word_eq (p : Nat) (cs : List Char) :
    (String.ofList cs = "true" ∧ word p cs = ⟨.boolean, "true", p, some (.boolean true)⟩) ∨
    (String.ofList cs = "false" ∧ word p cs = ⟨.boolean, "false", p, some (.boolean false)⟩) ∨
    (String.ofList cs ≠ "true" ∧ String.ofList cs ≠ "false" ∧
      word p cs = ⟨.identifier, String.ofList cs, p, none⟩) := by
  by_cases ht : String.ofList cs = "true"
  · exact .inl ⟨ht, by simp [word, ht]⟩
  by_cases hf : String.ofList cs = "false"
  · exact .inr (.inl ⟨hf, by simp [word, hf]⟩)
  · exact .inr (.inr ⟨ht, hf, by simp [word, ht, hf]⟩)

theorem word_position (p : Nat) (cs : List Char) : (word p cs).position = p := by
  rcases word_eq p cs with ⟨_, h⟩ | ⟨_, h⟩ | ⟨_, _, h⟩ <;> rw [h]

theorem word_lexeme (p : Nat) (cs : List Char) : (word p cs).lexeme = String.ofList cs := by
  rcases word_eq p cs with ⟨hs, h⟩ | ⟨hs, h⟩ | ⟨_, _, h⟩ <;> simp [*]

theorem word_continues (p : Nat) (cs : List Char) :
    (word p cs).kind.continues = continuesWord := by
  rcases word_eq p cs with ⟨_, h⟩ | ⟨_, h⟩ | ⟨_, _, h⟩ <;> rw [h] <;> rfl

theorem takeWhile_run {f : Char → Bool} {run : List Char} (hr : ∀ x ∈ run, f x = true)
    (rest : List Char) (hb : ∀ x ∈ rest.head?, f x = false) :
    (run ++ rest).takeWhile f = run ∧ (run ++ rest).dropWhile f = rest := by
  rw [List.takeWhile_append_of_pos hr, List.dropWhile_append_of_pos hr]
  cases rest with
  | nil => simp
  | cons x xs => simp [hb x rfl]

theorem head?_dropWhile_eq_false (f : Char → Bool) (cs : List Char) :
    ∀ x ∈ (cs.dropWhile f).head?, f x = false := by
  intro x hx
  have h := List.head?_dropWhile_not f cs
  rw [Option.mem_def.1 hx] at h
  exact h

/-- Whatever token is read at the start of a text, the text is its lexeme and what cannot continue
it. -/
theorem formed_of_front {p : Nat} {c : Char} {cs r : List Char} {t : Token}
    (h : front p c cs = .ok (t, r)) :
    t.Formed ∧ t.position = p ∧ c :: cs = t.lexeme.toList ++ r ∧
      ∀ x ∈ r.head?, t.kind.continues x = false := by
  unfold front at h
  split at h
  · rename_i hd
    obtain ⟨t', hn, h⟩ := exists_of_bind_eq_ok h
    simp only [Except.ok.injEq, Prod.mk.injEq] at h
    obtain ⟨rfl, rfl⟩ := h
    unfold number at hn
    cases hv : numberValue? (c :: cs.takeWhile isNumberChar) with
    | none => rw [hv] at hn; cases hn
    | some v =>
        rw [hv] at hn
        cases hn
        exact ⟨.number hd (fun x hx => List.mem_takeWhile_imp hx) hv p, rfl, by simp,
          head?_dropWhile_eq_false isNumberChar cs⟩
  split at h
  · rename_i hq
    have hb := head?_dropWhile_eq_false (· != '"') cs
    have hs := List.takeWhile_append_dropWhile (p := (· != '"')) (l := cs)
    simp only at h
    split at h
    · cases h
    · rename_i quote r' hr
      simp only [Except.ok.injEq, Prod.mk.injEq] at h
      obtain ⟨rfl, rfl⟩ := h
      rw [hr] at hb hs
      obtain rfl : quote = '"' := by simpa using hb
      obtain rfl : c = '"' := by simpa using hq
      refine ⟨.string ?_ p, rfl, ?_, by simp [TokenKind.continues]⟩
      · intro hm
        simpa using List.mem_takeWhile_imp hm
      · simpa using hs.symm
  split at h
  · rename_i hs
    simp only [Except.ok.injEq, Prod.mk.injEq] at h
    obtain ⟨rfl, rfl⟩ := h
    rw [word_continues, word_lexeme]
    exact ⟨.word hs (fun x hx => List.mem_takeWhile_imp hx) p, word_position .., by simp,
      head?_dropWhile_eq_false continuesWord cs⟩
  split at h
  · rename_i k lexeme r' hm
    simp only [Except.ok.injEq, Prod.mk.injEq] at h
    obtain ⟨rfl, rfl⟩ := h
    obtain ⟨hk, ht⟩ := mark?_eq_some_iff.1 hm
    exact ⟨.mark hk p, rfl, ht, fun x _ => TokenKind.continues_of_spelling? hk x⟩
  · cases h

theorem front_of_formed {c : Char} {cs r : List Char} {t : Token} (ht : t.Formed)
    (hc : c :: cs = t.lexeme.toList ++ r) (hb : ∀ x ∈ r.head?, t.kind.continues x = false) :
    front t.position c cs = .ok (t, r) := by
  cases ht with
  | @number d ds v hd hds hv p =>
      simp only [String.toList_ofList, List.cons_append, List.cons.injEq] at hc
      obtain ⟨rfl, rfl⟩ := hc
      obtain ⟨h1, h2⟩ := takeWhile_run hds r hb
      simp [front, hd, h1, h2, Token.number, hv, bind, Except.bind]
  | @string content hq p =>
      simp only [String.toList_ofList, List.cons_append, List.append_assoc, List.cons.injEq,
        List.nil_append] at hc
      obtain ⟨rfl, rfl⟩ := hc
      have hn : ∀ x ∈ content, (x != '"') = true := by
        intro x hx
        simpa using fun he : x = '"' => hq (he ▸ hx)
      obtain ⟨h1, h2⟩ := takeWhile_run hn ('"' :: r) (by simp)
      simp [front, h1, h2]
  | @word d ds hs hds p =>
      rw [word_continues] at hb
      simp only [word_lexeme, String.toList_ofList, List.cons_append, List.cons.injEq] at hc
      obtain ⟨rfl, rfl⟩ := hc
      obtain ⟨h1, h2⟩ := takeWhile_run hds r hb
      have hd : c.isDigit = false :=
        Bool.eq_false_iff.2 fun hd => by simp [startsWord_of_isDigit hd] at hs
      have hq : c ≠ '"' := by rintro rfl; revert hs; decide +kernel
      simp [front, hd, hq, hs, h1, h2, word_position]
  | @mark k lexeme hk p =>
      have hm := mark?_eq_some_iff.2 ⟨hk, hc⟩
      obtain ⟨d, ds, hl, hd, hq, hs, _⟩ := exists_of_spelling? hk
      obtain rfl : c = d := by simp_all
      simp [front, hd, hq, hs, hm]

end Token

end Reckoner
