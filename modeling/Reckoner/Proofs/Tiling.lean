import Reckoner.Proofs.Lexeme

namespace Reckoner

theorem Text.width_append (a b : List Char) : width (a ++ b) = width a + width b := by
  induction a with
  | nil => simp [width]
  | cons c cs ih => simp [width, ih, Nat.add_assoc]

namespace Token

open Text

/-- Tokens one after the other, each behind blanks, from a position on to where the tail starts. -/
inductive Tiles : Nat → List Char → List Token → Nat → List Char → Prop
  | nil (p : Nat) (text : List Char) : Tiles p text [] p text
  | cons {p q : Nat} {gap rest tail : List Char} {t : Token} {ts : List Token}
      (hg : ∀ x ∈ gap, isBlank x = true) (ht : t.Formed) (hp : t.position = p + width gap)
      (hb : ∀ x ∈ rest.head?, t.kind.continues x = false) (h : Tiles t.stop rest ts q tail) :
      Tiles p (gap ++ (t.lexeme.toList ++ rest)) (t :: ts) q tail

theorem exists_of_formed {t : Token} (h : t.Formed) :
    ∃ c cs, t.lexeme.toList = c :: cs ∧ isBlank c = false := by
  cases h with
  | @number c cs v hd _ _ p =>
      have hb := isBlank_of_continuesWord (continuesWord_of_isDigit hd)
      exact ⟨c, cs, String.toList_ofList, hb⟩
  | @string content _ p => exact ⟨'"', content ++ ['"'], String.toList_ofList, by decide⟩
  | @word c cs hs _ p =>
      have hb := isBlank_of_continuesWord (continuesWord_of_startsWord hs)
      exact ⟨c, cs, by simp [word_lexeme], hb⟩
  | mark hk p =>
      obtain ⟨c, cs, hl, _, _, _, hb⟩ := exists_of_spelling? hk
      exact ⟨c, cs, hl, hb⟩

theorem scanFrom_blank {text : List Char} (h : ∀ x ∈ text, isBlank x = true) (p : Nat) :
    scanFrom p text = [.ok (ending (p + width text))] := by
  obtain ⟨ht, hd⟩ := takeWhile_run h [] nofun
  rw [List.append_nil] at ht hd
  rw [scanFrom, ht]
  split
  · rfl
  · rename_i hc
    simp [hd] at hc

section

variable {gap cs : List Char} {c : Char} (hg : ∀ x ∈ gap, isBlank x = true)
  (hc : isBlank c = false)

include hg hc

theorem scanFrom_ok {p : Nat} {rest : List Char} {t : Token}
    (hf : front (p + width gap) c cs = .ok (t, rest)) :
    scanFrom p (gap ++ c :: cs) = .ok t :: scanFrom t.stop rest := by
  obtain ⟨ht, hd⟩ := takeWhile_run hg (c :: cs) (by simpa using hc)
  rw [scanFrom, ht]
  split
  · rename_i h
    simp [hd] at h
  · rename_i c' cs' h
    rw [hd] at h
    cases h
    split
    · rename_i h
      simp [hf] at h
    · rename_i h
      rw [hf] at h
      cases h
      rfl

theorem scanFrom_error {p : Nat} {e : LexError} (hf : front (p + width gap) c cs = .error e) :
    scanFrom p (gap ++ c :: cs) = [.error e] := by
  obtain ⟨ht, hd⟩ := takeWhile_run hg (c :: cs) (by simpa using hc)
  rw [scanFrom, ht]
  split
  · rename_i h
    simp [hd] at h
  · rename_i c' cs' h
    rw [hd] at h
    cases h
    split
    · rename_i h
      rw [hf] at h
      cases h
      rfl
    · rename_i h
      simp [hf] at h

end

theorem scanFrom_of_tiles {p q : Nat} {text tail : List Char} {ts : List Token}
    (h : Tiles p text ts q tail) : scanFrom p text = ts.map .ok ++ scanFrom q tail := by
  induction h with
  | nil => rfl
  | @cons p q gap rest tail t ts hg ht hp hb h ih =>
      obtain ⟨c, cs, hl, hc⟩ := exists_of_formed ht
      have hf : front t.position c (cs ++ rest) = .ok (t, rest) :=
        front_of_formed ht (by rw [hl]; rfl) hb
      rw [hp] at hf
      rw [hl, List.cons_append, scanFrom_ok hg hc hf, ih]
      rfl

inductive Stops (q : Nat) : List Char → Except LexError Token → Prop
  | ending {gap : List Char} (hg : ∀ x ∈ gap, isBlank x = true) :
      Stops q gap (.ok (ending (q + width gap)))
  | error {gap cs : List Char} {c : Char} {e : LexError} (hg : ∀ x ∈ gap, isBlank x = true)
      (hc : isBlank c = false) (hf : front (q + width gap) c cs = .error e) :
      Stops q (gap ++ c :: cs) (.error e)

theorem scanFrom_of_stops {q : Nat} {tail : List Char} {last : Except LexError Token}
    (h : Stops q tail last) : scanFrom q tail = [last] := by
  cases h with
  | ending hg => exact scanFrom_blank hg q
  | error hg hc hf => exact scanFrom_error hg hc hf

theorem exists_tiles (p : Nat) (text : List Char) :
    ∃ ts q tail last, Tiles p text ts q tail ∧ Stops q tail last := by
  have hs := List.takeWhile_append_dropWhile (p := isBlank) (l := text)
  have hg : ∀ x ∈ text.takeWhile isBlank, isBlank x = true := fun x hx => List.mem_takeWhile_imp hx
  have hh := head?_dropWhile_eq_false isBlank text
  generalize text.takeWhile isBlank = gap at hs hg
  cases hd : text.dropWhile isBlank with
  | nil =>
      rw [hd, List.append_nil] at hs
      subst hs
      exact ⟨[], p, gap, _, .nil p gap, .ending hg⟩
  | cons c cs =>
      rw [hd] at hs hh
      have hc : isBlank c = false := hh c rfl
      cases hf : front (p + width gap) c cs with
      | error e =>
          subst hs
          exact ⟨[], p, _, _, .nil p _, .error hg hc hf⟩
      | ok r =>
          obtain ⟨t, rest⟩ := r
          obtain ⟨ht, hp, hl, hb⟩ := formed_of_front hf
          have hlt : rest.length < text.length := rest_shorter hd hf
          obtain ⟨ts, q, tail, last, h, hlast⟩ := exists_tiles t.stop rest
          refine ⟨t :: ts, q, tail, last, ?_, hlast⟩
          rw [← hs, hl]
          exact .cons hg ht hp hb h
termination_by text.length

theorem Tiles.width_eq {p q : Nat} {text tail : List Char} {ts : List Token}
    (h : Tiles p text ts q tail) : q + width tail = p + width text := by
  induction h with
  | nil => rfl
  | @cons p q gap rest tail t ts hg ht hp hb h ih =>
      have hs : t.stop = p + width gap + width t.lexeme.toList := by rw [stop, hp]
      rw [ih, hs, width_append, width_append, Nat.add_assoc, Nat.add_assoc]

theorem Tiles.formed {p q : Nat} {text tail : List Char} {ts : List Token}
    (h : Tiles p text ts q tail) : ∀ t ∈ ts, t.Formed := by
  induction h with
  | nil => simp
  | cons hg ht hp hb h ih =>
      intro u hu
      rcases List.mem_cons.1 hu with rfl | hu
      · exact ht
      · exact ih u hu

def shift (n : Nat) (t : Token) : Token := { t with position := t.position + n }

theorem shift_stop (n : Nat) (t : Token) : (t.shift n).stop = t.stop + n := Nat.add_right_comm ..

theorem Formed.shift {t : Token} (h : t.Formed) (n : Nat) : (t.shift n).Formed := by
  cases h with
  | number hd hc hv p => exact .number hd hc hv (p + n)
  | string hq p => exact .string hq (p + n)
  | mark hk p => exact .mark hk (p + n)
  | @word c cs hs hc p =>
      have hw : (Token.word p (c :: cs)).shift n = Token.word (p + n) (c :: cs) := by
        simp only [Token.word]
        split
        · rfl
        split <;> rfl
      exact hw ▸ .word hs hc (p + n)

namespace Tiles

variable {p q : Nat} {text tail : List Char} {ts : List Token}

theorem shift (h : Tiles p text ts q tail) (n : Nat) :
    Tiles (p + n) text (ts.map (Token.shift n)) (q + n) tail := by
  induction h with
  | nil p text => exact .nil (p + n) text
  | @cons p q gap rest tail t ts hg ht hp hb h ih =>
      have hp' : (t.shift n).position = p + n + width gap := by
        rw [Token.shift, hp, Nat.add_right_comm]
      rw [← shift_stop] at ih
      exact .cons hg (ht.shift n) hp' hb ih

/-- More text leaves the tokens as they are where it cannot continue any of them. -/
theorem append (h : Tiles p text ts q tail) {more : List Char}
    (hm : ∀ x ∈ more.head?, ∀ k : TokenKind, k.continues x = false) :
    Tiles p (text ++ more) ts q (tail ++ more) := by
  induction h with
  | nil p text => exact .nil p (text ++ more)
  | @cons p q gap rest tail t ts hg ht hp hb h ih =>
      rw [List.append_assoc, List.append_assoc]
      refine .cons hg ht hp ?_ ih
      intro x hx
      cases rest with
      | nil => exact hm x hx t.kind
      | cons c rest => exact hb x hx

theorem trans (h : Tiles p text ts q tail) {q' : Nat} {tail' : List Char} {us : List Token}
    (h' : Tiles q tail us q' tail') : Tiles p text (ts ++ us) q' tail' := by
  induction h with
  | nil => exact h'
  | cons hg ht hp hb h ih => exact .cons hg ht hp hb (ih h')

end Tiles

/-- No token depends on the text behind the last blank before it ends. -/
theorem Tiles.of_append {p q : Nat} {text tail more : List Char} {ts : List Token}
    (h : Tiles p text ts q (tail ++ more)) : ∃ before, text = before ++ more ∧
      Tiles p before ts q tail := by
  generalize ht : tail ++ more = tail' at h
  induction h with
  | nil p text => exact ⟨tail, ht.symm, .nil p tail⟩
  | @cons p q gap rest tail' t ts hg hf hp hb h ih =>
      obtain ⟨before, rfl, h'⟩ := ih ht
      refine ⟨gap ++ (t.lexeme.toList ++ before), by simp, .cons hg hf hp ?_ h'⟩
      intro x hx
      apply hb x
      rw [List.head?_append, Option.mem_def.1 hx]
      rfl

theorem isEnding_of_formed {t : Token} (h : t.Formed) : t.isEnding = false := by
  cases h with
  | number | string => rfl
  | @word c cs _ _ p =>
      rcases word_eq p (c :: cs) with ⟨_, h⟩ | ⟨_, h⟩ | ⟨_, _, h⟩ <;> rw [h] <;> rfl
  | @mark k lexeme hk p =>
      cases k with
      | endOfInput => cases hk
      | _ => rfl

theorem mapM_id_ok (ts : List Token) :
    (ts.map .ok).mapM id = (.ok ts : Except LexError (List Token)) := by
  induction ts with
  | nil => rfl
  | cons t ts ih => rw [List.map_cons, List.mapM_cons, ih]; rfl

theorem tokenize_of_ok {text : String} {ts : List Token} (h : scan text = ts.map .ok) :
    tokenize text = .ok ts := by
  rw [tokenize, h, mapM_id_ok]

theorem tokenize_of_error {text : String} {ts : List Token} {e : LexError}
    (h : scan text = ts.map .ok ++ [.error e]) : tokenize text = .error e := by
  rw [tokenize, h, List.mapM_append, mapM_id_ok]
  rfl

theorem scan_of_tiles {text : String} {ts : List Token} {q : Nat} {gap : List Char}
    (h : Tiles 0 text.toList ts q gap) (hg : ∀ x ∈ gap, isBlank x = true) :
    scan text = (ts ++ [ending (q + width gap)]).map .ok := by
  rw [scan, scanFrom_of_tiles h, scanFrom_blank hg, List.map_append]
  rfl

/-- A text is read to its end, or up to its first error. -/
theorem scan_cases (text : String) :
    (∃ ts q gap, Tiles 0 text.toList ts q gap ∧ (∀ x ∈ gap, isBlank x = true) ∧
      scan text = (ts ++ [ending (width text.toList)]).map .ok) ∨
    (∃ ts q gap c cs e, Tiles 0 text.toList ts q (gap ++ c :: cs) ∧
      (∀ x ∈ gap, isBlank x = true) ∧ isBlank c = false ∧
      front (q + width gap) c cs = .error e ∧ scan text = ts.map .ok ++ [.error e]) := by
  obtain ⟨ts, q, tail, last, h, hlast⟩ := exists_tiles 0 text.toList
  have hs : scan text = ts.map .ok ++ [last] := by
    rw [scan, scanFrom_of_tiles h, scanFrom_of_stops hlast]
  cases hlast with
  | ending hg =>
      have hw := h.width_eq
      rw [Nat.zero_add] at hw
      rw [hw] at hs
      exact .inl ⟨ts, q, tail, h, hg, by simpa using hs⟩
  | @error gap cs c e hg hc hf => exact .inr ⟨ts, q, gap, c, cs, e, h, hg, hc, hf, hs⟩

end Token

end Reckoner
