import Reckoner.Proofs.Tiling
import Mathlib.Data.List.Basic

namespace Reckoner

open Text

namespace Token

structure NumberRun (before run after : List Char) : Prop where
  starts : ∃ c ∈ run.head?, c.isDigit = true
  all : ∀ x ∈ run, isNumberChar x = true
  prev : ∀ x ∈ before.getLast?, isNumberChar x = false
  next : ∀ x ∈ after.head?, isNumberChar x = false

end Token

def LexError.position : LexError → Nat
  | unexpectedCharacter _ position | malformedNumber _ position | unterminatedString position =>
      position

/-- Why no token stands at the start of what is left. -/
def LexError.Fault (before after : List Char) : LexError → Prop
  | unexpectedCharacter c _ => after.head? = some c ∧ isBlank c = false ∧ c.isDigit = false ∧
      c ≠ '"' ∧ Token.startsWord c = false ∧
      ∀ k lexeme, TokenKind.spelling? k = some lexeme → ¬ lexeme.toList <+: after
  | malformedNumber lexeme _ => ∃ rest, after = lexeme.toList ++ rest ∧
      Token.NumberRun before lexeme.toList rest ∧
      (1 < lexeme.toList.count '.' ∨ lexeme.toList.getLast? = some '.' ∨
        lexeme.toList.count '.' = 0 ∧ ¬ Integer.Fits (Nat.ofDigitChars 10 lexeme.toList 0) ∨
        lexeme.toList.count '.' = 1 ∧ Decimal.ofChars? lexeme.toList = none)
  | unterminatedString _ => ∃ cs, after = '"' :: cs ∧ '"' ∉ cs

namespace Token

theorem numberValue?_eq_some {cs : List Char} {v : Value} (h : numberValue? cs = some v) :
    cs.count '.' ≤ 1 ∧ cs.getLast? ≠ some '.' := by
  unfold numberValue? at h
  split at h
  · rename_i hc
    refine ⟨by omega, ?_⟩
    intro hl
    exact List.count_eq_zero.1 hc (List.mem_of_getLast? hl)
  split at h
  · rename_i hc
    exact ⟨hc.1.le, hc.2⟩
  · cases h

def Apart (before after : List Char) : Prop :=
  ∀ x ∈ before.getLast?, ∀ y ∈ after.head?, (isNumberChar x = true → y.isDigit = false) ∧
    (continuesWord x = true → startsWord y = true → x.isDigit = true)

theorem isNumberChar_of_isBlank {c : Char} (h : isBlank c = true) : isNumberChar c = false := by
  have hp : c ≠ '.' := by rintro rfl; revert h; decide
  simp [isNumberChar, isDigit_of_continuesWord (continuesWord_of_isBlank h), hp]

theorem isNumberChar_of_isDigit {c : Char} (h : c.isDigit = true) : isNumberChar c = true := by
  simp [isNumberChar, h]

theorem isDigit_of_isNumberChar {c : Char} (h : isNumberChar c = true)
    (hw : continuesWord c = true) : c.isDigit = true := by
  have hp : c ≠ '.' := by rintro rfl; revert hw; decide +kernel
  simpa [isNumberChar, hp] using h

theorem exists_getLast?_of_spelling? {k : TokenKind} {lexeme : String}
    (hk : k.spelling? = some lexeme) :
    ∃ x, lexeme.toList.getLast? = some x ∧ isNumberChar x = false ∧ continuesWord x = false := by
  rcases k with _ | _ | _ | _ | ((_ | _ | _ | _) | (_ | _)) | _ | _ | _ | _ <;> cases hk <;>
    exact ⟨_, rfl, by decide +kernel⟩

theorem Formed.apart {t : Token} (ht : t.Formed) {after : List Char}
    (hb : ∀ x ∈ after.head?, t.kind.continues x = false) (before : List Char) :
    Apart (before ++ t.lexeme.toList) after := by
  obtain ⟨c, cs, hl, _⟩ := exists_of_formed ht
  intro x hx y hy
  have hn : t.kind.continues y = false := hb y hy
  have hx : x ∈ t.lexeme.toList.getLast? := by
    rwa [List.getLast?_append_of_ne_nil _ (by simp [hl])] at hx
  have hm : x ∈ t.lexeme.toList := List.mem_of_getLast? hx
  cases ht with
  | @number c cs v hd hc hv p =>
      rw [String.toList_ofList] at hm
      have hall : ∀ x ∈ c :: cs, isNumberChar x = true :=
        List.forall_mem_cons.2 ⟨isNumberChar_of_isDigit hd, hc⟩
      have hy : (y.isDigit || y == '.') = false := hn
      exact ⟨fun _ => (Bool.or_eq_false_iff.1 hy).1,
        fun hw _ => isDigit_of_isNumberChar (hall x hm) hw⟩
  | @string content _ p =>
      have hl : ('"' :: content ++ ['"']).getLast? = some '"' := List.getLast?_concat ..
      rw [String.toList_ofList, hl] at hx
      obtain rfl : '"' = x := Option.some.inj hx
      exact ⟨fun h => absurd h (by decide), fun h => absurd h (by decide +kernel)⟩
  | @word c cs hs hc p =>
      rw [word_continues] at hn
      exact ⟨fun _ => isDigit_of_continuesWord hn,
        fun _ h => by simp [startsWord_of_continuesWord hn] at h⟩
  | mark hk p =>
      obtain ⟨z, hz, h1, h2⟩ := exists_getLast?_of_spelling? hk
      obtain rfl : z = x := Option.some.inj (hz.symm.trans hx)
      simp [h1, h2]

inductive Rejects (p : Nat) : Char → List Char → LexError → Prop
  | number {c : Char} {cs : List Char} (hd : c.isDigit = true)
      (hv : numberValue? (c :: cs.takeWhile isNumberChar) = none) :
      Rejects p c cs (.malformedNumber (String.ofList (c :: cs.takeWhile isNumberChar)) p)
  | string {cs : List Char} (hq : '"' ∉ cs) : Rejects p '"' cs (.unterminatedString p)
  | character {c : Char} {cs : List Char} (hd : c.isDigit = false) (hq : c ≠ '"')
      (hs : startsWord c = false) (hm : mark? (c :: cs) = none) :
      Rejects p c cs (.unexpectedCharacter c p)

theorem front_eq_error_iff {p : Nat} {c : Char} {cs : List Char} {e : LexError} :
    front p c cs = .error e ↔ Rejects p c cs e := by
  constructor
  · intro h
    unfold front at h
    split at h
    · rename_i hd
      unfold number at h
      cases hv : numberValue? (c :: cs.takeWhile isNumberChar) with
      | some v => rw [hv] at h; cases h
      | none => rw [hv] at h; cases h; exact .number hd hv
    split at h
    · rename_i hq
      obtain rfl : c = '"' := by simpa using hq
      simp only at h
      split at h
      · rename_i hr
        cases h
        refine .string fun hm => ?_
        simpa using List.dropWhile_eq_nil_iff.1 hr _ hm
      · cases h
    split at h
    · cases h
    split at h
    · cases h
    · rename_i hd hq hs _ hm
      cases h
      exact .character (by simpa using hd) (by simpa using hq) (by simpa using hs) hm
  · intro h
    cases h with
    | number hd hv => simp [front, hd, Token.number, hv, bind, Except.bind]
    | string hq =>
        have hr : cs.dropWhile (· != '"') = [] := by
          refine List.dropWhile_eq_nil_iff.2 fun x hx => ?_
          simpa using fun he : x = '"' => hq (he ▸ hx)
        simp [front, hr]
    | character hd hq hs hm => simp [front, hd, hq, hs, hm]

end Token

end Reckoner
