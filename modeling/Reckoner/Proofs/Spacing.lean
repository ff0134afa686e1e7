import Reckoner.Proofs.Decomposition

namespace Reckoner

open Text

def LexError.shift (n : Nat) : LexError → LexError
  | unexpectedCharacter c position => unexpectedCharacter c (position + n)
  | malformedNumber lexeme position => malformedNumber lexeme (position + n)
  | unterminatedString position => unterminatedString (position + n)

theorem TokenKind.continues_of_isBlank (k : TokenKind) {c : Char} (h : isBlank c = true) :
    k.continues c = false := by
  cases k with
  | number => exact Token.isNumberChar_of_isBlank h
  | boolean | identifier => exact Token.continuesWord_of_isBlank h
  | string | operator | leftParen | rightParen | assign | endOfInput => rfl

theorem TokenKind.isBlank_of_mem_spelling? {k : TokenKind} {lexeme : String}
    (hk : k.spelling? = some lexeme) : ∀ c ∈ lexeme.toList, isBlank c = false := by
  have hb : lexeme.toList.any isBlank = false := by
    rcases k with _ | _ | _ | _ | ((_ | _ | _ | _) | (_ | _)) | _ | _ | _ | _ <;> cases hk <;>
      decide +kernel
  intro c hc
  exact Bool.eq_false_iff.2 (List.any_eq_false.1 hb c hc)

namespace Token

def shiftYield (n : Nat) : Except LexError Token → Except LexError Token
  | .ok t => .ok (t.shift n)
  | .error e => .error (e.shift n)

theorem Rejects.shift {p : Nat} {c : Char} {cs : List Char} {e : LexError}
    (h : Rejects p c cs e) (n : Nat) : Rejects (p + n) c cs (e.shift n) := by
  cases h with
  | number hd hv => exact .number hd hv
  | string hq => exact .string hq
  | character hd hq hs hm => exact .character hd hq hs hm

theorem Stops.shift {q : Nat} {tail : List Char} {last : Except LexError Token}
    (h : Stops q tail last) (n : Nat) : Stops (q + n) tail (shiftYield n last) := by
  cases h with
  | ending hg =>
      have he : shiftYield n (.ok (Token.ending (q + width tail))) =
          .ok (Token.ending (q + n + width tail)) := by
        rw [Nat.add_right_comm]
        rfl
      exact he ▸ .ending hg
  | error hg hc hf =>
      have hf := (front_eq_error_iff.1 hf).shift n
      rw [Nat.add_right_comm] at hf
      exact .error hg hc (front_eq_error_iff.2 hf)

/-- What a text yields does not depend on where it begins. -/
theorem scanFrom_add (p n : Nat) (text : List Char) :
    scanFrom (p + n) text = (scanFrom p text).map (shiftYield n) := by
  obtain ⟨ts, q, tail, last, h, hlast⟩ := exists_tiles p text
  rw [scanFrom_of_tiles h, scanFrom_of_stops hlast, scanFrom_of_tiles (h.shift n),
    scanFrom_of_stops (hlast.shift n), List.map_append, List.map_map, List.map_map]
  rfl

theorem scanFrom_append_of_blank {gap : List Char} (hg : ∀ x ∈ gap, isBlank x = true) (p : Nat)
    (text : List Char) : scanFrom p (gap ++ text) = scanFrom (p + width gap) text := by
  have hs := List.takeWhile_append_dropWhile (p := isBlank) (l := text)
  have hi : ∀ x ∈ text.takeWhile isBlank, isBlank x = true := fun x hx => List.mem_takeWhile_imp hx
  have hh := head?_dropWhile_eq_false isBlank text
  generalize text.takeWhile isBlank = inner at hs hi
  have hb : ∀ x ∈ gap ++ inner, isBlank x = true := List.forall_mem_append.2 ⟨hg, hi⟩
  have hp : p + width (gap ++ inner) = p + width gap + width inner := by
    rw [width_append, Nat.add_assoc]
  cases hd : text.dropWhile isBlank with
  | nil =>
      rw [hd, List.append_nil] at hs
      rw [← hs, scanFrom_blank hb, scanFrom_blank hi, hp]
  | cons c cs =>
      rw [hd] at hs hh
      have hc : isBlank c = false := hh c rfl
      rw [← hs, ← List.append_assoc]
      cases hf : front (p + width gap + width inner) c cs with
      | error e => rw [scanFrom_error hi hc hf, scanFrom_error hb hc (hp ▸ hf)]
      | ok r =>
          obtain ⟨t, rest⟩ := r
          rw [scanFrom_ok hi hc hf, scanFrom_ok hb hc (hp ▸ hf)]

theorem takeWhile_append_of_head? {f : Char → Bool} {more : List Char}
    (hm : ∀ x ∈ more.head?, f x = false) (cs : List Char) :
    (cs ++ more).takeWhile f = cs.takeWhile f := by
  induction cs with
  | nil =>
      cases more with
      | nil => rfl
      | cons x more => simp [hm x rfl]
  | cons c cs ih => rw [List.cons_append, List.takeWhile_cons, List.takeWhile_cons, ih]

theorem mark?_append_of_blank {text more : List Char} (h : mark? text = none)
    (hm : ∀ x ∈ more.head?, isBlank x = true) : mark? (text ++ more) = none := by
  refine Option.eq_none_iff_forall_ne_some.2 ?_
  rintro ⟨k, lexeme, r⟩ hsome
  obtain ⟨hk, he⟩ := mark?_eq_some_iff.1 hsome
  have hno : ∀ r, text ≠ lexeme.toList ++ r := by
    intro r hr
    rw [mark?_eq_some_iff.2 ⟨hk, hr⟩] at h
    cases h
  rcases List.append_eq_append_iff.1 he with ⟨ahead, hl, hmore⟩ | ⟨r', ht, _⟩
  · cases ahead with
    | nil => exact hno [] (by simpa using hl.symm)
    | cons x ahead =>
        have hx := TokenKind.isBlank_of_mem_spelling? hk x (by simp [hl])
        rw [hm x (by simp [hmore])] at hx
        cases hx
  · exact hno r' ht

/-- What is wrong with the front of a text stays wrong when blanks follow the text, but for a quote
that a later one closes. -/
theorem Rejects.append {p : Nat} {c : Char} {cs more : List Char} {e : LexError}
    (h : Rejects p c cs e) (he : ∀ q, e ≠ .unterminatedString q)
    (hm : ∀ x ∈ more.head?, isBlank x = true) : Rejects p c (cs ++ more) e := by
  cases h with
  | number hd hv =>
      have hr := takeWhile_append_of_head? (fun x hx => isNumberChar_of_isBlank (hm x hx)) cs
      rw [← hr] at hv ⊢
      exact .number hd hv
  | string hq => exact absurd rfl (he p)
  | character hd hq hs hn => exact .character hd hq hs (mark?_append_of_blank hn hm)

def shiftTokens (n : Nat) : Except LexError (List Token) → Except LexError (List Token)
  | .ok ts => .ok (ts.map (shift n))
  | .error e => .error (e.shift n)

theorem mapM_id_shiftYield (n : Nat) (ys : List (Except LexError Token)) :
    (ys.map (shiftYield n)).mapM id = shiftTokens n (ys.mapM id) := by
  induction ys with
  | nil => rfl
  | cons y ys ih =>
      rw [List.map_cons, List.mapM_cons, List.mapM_cons, ih]
      cases y with
      | error e => rfl
      | ok t => cases ys.mapM id <;> rfl

theorem Tiles.of_nil {p q : Nat} {tail : List Char} {ts : List Token} (h : Tiles p [] ts q tail) :
    ts = [] ∧ q = p ∧ tail = [] := by
  generalize ht : [] = text at h
  cases h with
  | nil => exact ⟨rfl, rfl, rfl⟩
  | cons hg hf hp hb h =>
      obtain ⟨c, cs, hl, _⟩ := exists_of_formed hf
      simp [hl] at ht

section

variable {a w : String} (hw : ∀ x ∈ w.toList, isBlank x = true)

include hw

theorem head?_append_of_ne (hne : w ≠ "") (b : String) :
    ∀ x ∈ (w.toList ++ b.toList).head?, isBlank x = true := by
  have hl : w.toList ≠ [] := fun hl => hne (String.toList_eq_nil_iff.1 hl)
  intro x hx
  rw [List.head?_append_of_ne_nil _ hl] at hx
  exact hw x (List.mem_of_head? hx)

theorem scan_append_of_tiles {ts : List Token} {q : Nat} {gap : List Char}
    (h : Tiles 0 a.toList ts q gap) (hg : ∀ x ∈ gap, isBlank x = true) (hne : w ≠ "" ∨ a = "")
    (b : String) : scan (a ++ w ++ b) =
      ts.map .ok ++ (scan b).map (shiftYield (a ++ w).utf8ByteSize) := by
  have hq : q + width (gap ++ w.toList) = 0 + (a ++ w).utf8ByteSize := by
    have hw := h.width_eq
    rw [width_append, String.utf8ByteSize_append, ← width_toList, ← width_toList]
    omega
  have ht : Tiles 0 (a.toList ++ (w.toList ++ b.toList)) ts q
      (gap ++ (w.toList ++ b.toList)) := by
    rcases hne with hne | rfl
    · exact h.append fun x hx k => k.continues_of_isBlank (head?_append_of_ne hw hne b x hx)
    · obtain ⟨rfl, rfl, rfl⟩ := h.of_nil
      exact .nil 0 _
  rw [scan, String.toList_append, String.toList_append, List.append_assoc, scanFrom_of_tiles ht,
    ← List.append_assoc, scanFrom_append_of_blank (List.forall_mem_append.2 ⟨hg, hw⟩), hq,
    scanFrom_add]
  rfl

theorem scan_append_of_rejects {ts : List Token} {q : Nat} {gap cs : List Char} {c : Char}
    {e : LexError} (h : Tiles 0 a.toList ts q (gap ++ c :: cs))
    (hg : ∀ x ∈ gap, isBlank x = true) (hc : isBlank c = false)
    (hr : Rejects (q + width gap) c cs e) (he : ∀ p, e ≠ .unterminatedString p) (hne : w ≠ "")
    (b : String) : scan (a ++ w ++ b) = ts.map .ok ++ [.error e] := by
  have hm := head?_append_of_ne hw hne b
  have ht := h.append fun x hx k => k.continues_of_isBlank (hm x hx)
  have hf := front_eq_error_iff.2 (hr.append he hm)
  rw [scan, String.toList_append, String.toList_append, List.append_assoc, scanFrom_of_tiles ht,
    List.append_assoc, List.cons_append, scanFrom_error hg hc hf]

/-- Blanks between two texts keep their tokens apart. The first text is read as by itself, with its
errors, and behind the blanks the second one, moved. -/
theorem tokenize_append_of_blank (hne : w ≠ "" ∨ a = "") (b : String) :
    (∀ ts, tokenize a = .ok ts → ∃ body, ts = body ++ [ending a.utf8ByteSize] ∧
      (∀ us, tokenize b = .ok us →
        tokenize (a ++ w ++ b) = .ok (body ++ us.map (shift (a ++ w).utf8ByteSize))) ∧
      ∀ e, tokenize b = .error e →
        tokenize (a ++ w ++ b) = .error (e.shift (a ++ w).utf8ByteSize)) ∧
    ∀ e, tokenize a = .error e → (∀ p, e ≠ .unterminatedString p) →
      tokenize (a ++ w ++ b) = .error e := by
  rcases scan_cases a with ⟨ts, q, gap, h, hg, hs⟩ | ⟨ts, q, gap, c, cs, e, h, hg, hc, hf, hs⟩
  · rw [tokenize_of_ok hs, width_toList]
    have hab : tokenize (a ++ w ++ b) = (ts ++ ·) <$>
        shiftTokens (a ++ w).utf8ByteSize (tokenize b) := by
      rw [tokenize, scan_append_of_tiles hw h hg hne, List.mapM_append, mapM_id_ok,
        mapM_id_shiftYield, tokenize]
      cases (scan b).mapM id <;> rfl
    constructor
    · intro ts' hts
      cases hts
      refine ⟨ts, rfl, ?_, ?_⟩
      · intro us hb
        rw [hab, hb]
        rfl
      · intro e hb
        rw [hab, hb]
        rfl
    · intro e he
      cases he
  · rw [tokenize_of_error hs]
    constructor
    · intro ts' hts
      cases hts
    · intro e' he hq
      cases he
      have hne : w ≠ "" := by
        refine hne.resolve_right fun ha => ?_
        subst ha
        simpa using h.of_nil.2.2
      exact tokenize_of_error
        (scan_append_of_rejects hw h hg hc (front_eq_error_iff.1 hf) hq hne b)

end

theorem number_before_wide_space :
    let number : Token := ⟨.number, "1", 4, some (.integer ⟨1, by decide⟩)⟩
    let body : List Token := [⟨.string, "\"&\"", 0, some (.string "&")⟩,
      ⟨.operator (.arithmetic .add), "+", 3, none⟩, number]
    (∀ x ∈ "\u3000".toList, isBlank x = true) ∧ "\u3000" ≠ "" ∧
      tokenize "\"&\"+1" = .ok (body ++ [ending 5]) ∧
      tokenize "2é" = .ok [⟨.number, "2", 0, some (.integer ⟨2, by decide⟩)⟩,
        ⟨.identifier, "é", 1, none⟩, ending 3] ∧
      tokenize ("\"&\"+1" ++ "\u3000" ++ "2é") =
        .ok (body ++ [⟨.number, "2", 8, some (.integer ⟨2, by decide⟩)⟩,
          ⟨.identifier, "é", 9, none⟩, ending 11]) ∧
      tokenize "1." = .error (.malformedNumber "1." 0) ∧
      tokenize ("1." ++ "\u3000" ++ "\"") = .error (.malformedNumber "1." 0) := by
  intro number body
  have hw : ∀ x ∈ "\u3000".toList, isBlank x = true := List.all_eq_true.1 (by decide)
  have hne : "\u3000" ≠ "" := by decide
  have ha : tokenize "\"&\"+1" = .ok (body ++ [ending 5]) := by decide +kernel
  have hb : tokenize "2é" = .ok [⟨.number, "2", 0, some (.integer ⟨2, by decide⟩)⟩,
      ⟨.identifier, "é", 1, none⟩, ending 3] := by decide +kernel
  have he : tokenize "1." = .error (.malformedNumber "1." 0) := by decide +kernel
  obtain ⟨body', hbody, hab, _⟩ := (tokenize_append_of_blank hw (.inl hne) "2é").1 _ ha
  rw [← List.append_cancel_right hbody] at hab
  exact ⟨hw, hne, ha, hb, hab _ hb, he,
    (tokenize_append_of_blank hw (.inl hne) "\"").2 _ he nofun⟩

end Token

end Reckoner
