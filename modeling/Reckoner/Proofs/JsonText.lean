import Reckoner.Json.Read
import Reckoner.Json.Write
import Reckoner.Proofs.DecimalText

namespace Reckoner.Json

theorem hex?_low {n : Nat} (h : n < 0x20) :
    hex? ['0', '0', Nat.digitChar (n / 16), Nat.digitChar (n % 16)] = some n := by
  have hall : ∀ n < 0x20,
      hex? ['0', '0', Nat.digitChar (n / 16), Nat.digitChar (n % 16)] = some n := by decide
  exact hall n h

theorem readQuoted_escape (c : Char) {r rest : List Char} {ns : List Nat}
    (h : readQuoted r = some (ns, rest)) :
    readQuoted (escape c ++ r) = some (c.toNat :: ns, rest) := by
  by_cases hs : c ∈ ['"', '\\', '\n', '\t', '\r', '\x08', '\x0c']
  · simp only [List.mem_cons, List.not_mem_nil, or_false] at hs
    rcases hs with rfl | rfl | rfl | rfl | rfl | rfl | rfl <;>
      simp [escape, readQuoted, shortEscape?, h]
  · simp only [List.mem_cons, List.not_mem_nil, or_false, not_or] at hs
    by_cases hc : c.toNat < 0x20
    · simp [escape, hs, hc, readQuoted, hex?_low hc, h]
    · simp [escape, hs, hc, readQuoted, h]

theorem readQuoted_flatMap (s r : List Char) :
    readQuoted (s.flatMap escape ++ '"' :: r) = some (s.map Char.toNat, r) := by
  induction s with
  | nil => simp [readQuoted]
  | cons c s ih =>
      rw [List.flatMap_cons, List.append_assoc]
      exact readQuoted_escape c ih

theorem characters?_map (s : List Char) : characters? (s.map Char.toNat) = some s := by
  induction s with
  | nil => rfl
  | cons c s ih =>
      have hv : c.toNat.isValidChar := c.valid
      have hs : ¬ (0xd800 ≤ c.toNat ∧ c.toNat < 0xdc00) := by
        unfold Nat.isValidChar at hv
        omega
      cases s with
      | nil => simp [characters?, hv]
      | cons d s =>
          rw [List.map_cons, List.map_cons, characters?, if_neg fun h => hs ⟨h.1, h.2.1⟩, if_pos hv,
            ← List.map_cons, ih]
          simp

theorem readPiece_quoted (s : String) (r : List Char) :
    readPiece (quoted (some s) ++ r) = some (.scalar (text s), r) := by
  simp [quoted, readPiece, readQuoted_flatMap, characters?_map, text]

def Apart (r : List Char) : Prop :=
  ∀ c ∈ r.head?, c.isDigit = false ∧ c ≠ '.' ∧ c ≠ 'e' ∧ c ≠ 'E'

section

variable {r : List Char} (hr : Apart r)

include hr

theorem Apart.digits {ds : List Char} (hd : ∀ c ∈ ds, c.isDigit = true) :
    digits (ds ++ r) = (ds, r) := by
  rw [Json.digits, List.takeWhile_append_of_pos hd, List.dropWhile_append_of_pos hd]
  cases r with
  | nil => simp
  | cons c r => simp [(hr c rfl).1]

theorem Apart.readFraction : readFraction r = some (none, r) := by
  unfold Json.readFraction
  split
  · exact absurd rfl (hr '.' rfl).2.1
  · rfl

theorem Apart.readExponent : readExponent r = some (none, r) := by
  cases r with
  | nil => rfl
  | cons c r => simp [Json.readExponent, (hr c rfl).2.2.1, (hr c rfl).2.2.2]

theorem readNumeral_toDigits (negative : Bool) (n : Nat) :
    readNumeral negative (Nat.toDigits 10 n ++ r) =
      some (⟨negative, Nat.toDigits 10 n, none, none⟩, r) := by
  by_cases hn : n = 0
  · subst hn
    simp [readNumeral, Nat.toDigits_zero, hr.readFraction, hr.readExponent]
  · have hz := head?_toDigits (Nat.pos_of_ne_zero hn)
    have hall : ∀ c ∈ Nat.toDigits 10 n, c.isDigit = true := fun c hc =>
      Nat.isDigit_of_mem_toDigits (by decide) (by decide) hc
    obtain ⟨c, cs, hd, hi⟩ := exists_of_toDigits n
    rw [hd] at hz hall ⊢
    have hc : c ≠ '0' := fun hc => hz (congrArg some hc)
    have hcs := hr.digits fun x hx => hall x (List.mem_cons_of_mem c hx)
    simp [readNumeral, hi, hcs, hr.readFraction, hr.readExponent]

omit hr in
theorem readPiece_of_isDigit {c : Char} (h : c.isDigit = true) (cs : List Char) :
    readPiece (c :: cs) =
      (readNumeral false (c :: cs)).bind fun p => some (.scalar (.number p.1), p.2) := by
  unfold readPiece
  split <;> simp_all

theorem readPiece_whole (i : Int) :
    readPiece (write (whole i) r) = some (.scalar (whole i), r) := by
  have hn := readNumeral_toDigits hr (decide (i < 0)) i.natAbs
  obtain ⟨c, cs, hd, hc⟩ := exists_of_toDigits i.natAbs
  by_cases hi : i < 0
  · simp only [hi, decide_true] at hn
    simp [whole, write, Numeral.chars, hi, readPiece, hn]
  · simp only [hi, decide_false, hd, List.cons_append] at hn
    simp [whole, write, Numeral.chars, hi, hd, readPiece_of_isDigit hc, hn]

end

/-- Reading a text leads from one place to another. -/
inductive Leads : List Char → Place → Place → Prop
  | nil (p : Place) : Leads [] p p
  | cons {text rest : List Char} {piece : Piece} {p q r : Place}
      (hs : ∀ c ∈ text.head?, isSpace c = false) (hp : readPiece text = some (piece, rest))
      (hl : rest.length < text.length) (hq : p.step piece = some q) (h : Leads rest q r) :
      Leads text p r

theorem pieces_of_leads {text : List Char} {p q : Place} (h : Leads text p q) {n : Nat}
    (hn : text.length ≤ n) : ∃ ps, pieces n text = some ps ∧ ps.foldlM Place.step p = some q := by
  induction h generalizing n with
  | nil p => exact ⟨[], by simp [pieces], rfl⟩
  | @cons text rest piece p q r hs hp hl hq h ih =>
      cases text with
      | nil => exact absurd hl (Nat.not_lt_zero _)
      | cons c cs =>
          obtain ⟨n, rfl⟩ := Nat.exists_eq_succ_of_ne_zero (Nat.ne_of_gt (Nat.lt_of_lt_of_le
            (Nat.succ_pos cs.length) hn))
          obtain ⟨ps, hps, hf⟩ := ih (Nat.le_of_lt_succ (Nat.lt_of_lt_of_le hl hn))
          refine ⟨piece :: ps, ?_, ?_⟩
          · simp [pieces, hs c rfl, hp, hps]
          · rw [List.foldlM_cons, hq]
            exact hf

theorem ofText?_of_leads {s : String} {j : Json} (h : Leads s.toList (.value []) (.done [] j)) :
    ofText? s = some j := by
  obtain ⟨ps, hp, hf⟩ := pieces_of_leads h (Nat.le_of_eq String.length_toList)
  simp [ofText?, hp, hf]

def Place.Awaits (p : Place) (outer : List Open) : Prop :=
  ∀ x, x ≠ .closeArray → p.step x = stepValue outer x

theorem Place.awaits_value (outer : List Open) : (value outer).Awaits outer := fun _ _ => rfl

theorem Place.awaits_firstItem (outer : List Open) :
    (firstItem outer).Awaits (.array [] :: outer) := by
  intro x hx
  cases x with
  | closeArray => exact absurd rfl hx
  | openArray | openObject | closeObject | comma | colon | scalar => rfl

/-- A document whose numbers are whole ones and whose strings are texts. -/
inductive Plain : Json → Prop
  | null : Plain null
  | boolean (b : Bool) : Plain (boolean b)
  | whole (i : Int) : Plain (whole i)
  | text (s : String) : Plain (text s)
  | array {items : List Json} (h : ∀ j ∈ items, Plain j) : Plain (array items)
  | record {members : List (String × Json)} (h : ∀ m ∈ members, Plain m.2) :
      Plain (record members)

theorem apart_writeItems (js : List Json) (r : List Char) : Apart (writeItems js r) := by
  cases js <;> simp [writeItems, Apart]

theorem apart_writeMembers (ms : List (Option String × Json)) (r : List Char) :
    Apart (writeMembers ms r) := by
  rcases ms with _ | ⟨⟨key, j⟩, ms⟩ <;> simp [writeMembers, Apart]

section

variable {outer : List Open} {p q : Place} {r : List Char}

theorem leads_mark {c : Char} {piece : Piece} (hs : isSpace c = false)
    (hp : readPiece (c :: r) = some (piece, r)) {p' : Place} (hq : p.step piece = some p')
    (h : Leads r p' q) : Leads (c :: r) p q :=
  .cons (by simpa using hs) hp (Nat.lt_succ_self _) hq h

theorem leads_quoted {s : String} {p' : Place} (hq : p.step (.scalar (text s)) = some p')
    (h : Leads r p' q) : Leads (quoted (some s) ++ r) p q :=
  .cons (by simp [quoted, isSpace]) (readPiece_quoted s r) (by simp [quoted]; omega) hq h

theorem isSpace_of_isDigit {c : Char} (h : c.isDigit = true) : isSpace c = false := by
  cases hs : isSpace c with
  | false => rfl
  | true =>
      simp only [isSpace, Bool.or_eq_true, beq_iff_eq] at hs
      rcases hs with ((rfl | rfl) | rfl) | rfl <;> cases h

theorem exists_of_write_whole (i : Int) (r : List Char) :
    ∃ c cs, write (whole i) r = c :: (cs ++ r) ∧ isSpace c = false := by
  obtain ⟨c, cs, hd, hc⟩ := exists_of_toDigits i.natAbs
  by_cases hi : i < 0
  · exact ⟨'-', c :: cs, by simp [whole, write, Numeral.chars, hi, hd], by decide⟩
  · exact ⟨c, cs, by simp [whole, write, Numeral.chars, hi, hd], isSpace_of_isDigit hc⟩

theorem leads_whole (i : Int) (hp : p.Awaits outer) (hr : Apart r)
    (h : Leads r (.done outer (whole i)) q) : Leads (write (whole i) r) p q := by
  obtain ⟨c, cs, hc, hs⟩ := exists_of_write_whole i r
  refine .cons ?_ (readPiece_whole hr i) ?_ (hp _ nofun) h
  · simpa [hc] using hs
  · rw [hc, List.length_cons, List.length_append]
    omega

theorem leads_writeItems {js : List Json}
    (ih : ∀ j ∈ js, ∀ {outer p q r}, p.Awaits outer → Apart r → Leads r (.done outer j) q →
      Leads (write j r) p q) {items : List Json} {j : Json}
    (h : Leads r (.done outer (.array ((j :: items).reverse ++ js))) q) :
    Leads (writeItems js r) (.done (.array items :: outer) j) q := by
  induction js generalizing items j with
  | nil => exact leads_mark (by decide) rfl rfl (by simpa using h)
  | cons k js ihs =>
      refine leads_mark (by decide) rfl rfl ?_
      refine ih k (List.mem_cons_self ..) (Place.awaits_value _) (apart_writeItems js r) ?_
      exact ihs (fun j hj => ih j (List.mem_cons_of_mem _ hj)) (by simpa using h)

theorem leads_writeMembers {ms : List (String × Json)}
    (ih : ∀ m ∈ ms, ∀ {outer p q r}, p.Awaits outer → Apart r → Leads r (.done outer m.2) q →
      Leads (write m.2 r) p q) {members : List (Option String × Json)} {key : Option String}
    {j : Json} (h : Leads r (.done outer (.object (((key, j) :: members).reverse ++
      ms.map fun m => (some m.1, m.2)))) q) :
    Leads (writeMembers (ms.map fun m => (some m.1, m.2)) r)
      (.done (.object members key :: outer) j) q := by
  induction ms generalizing members key j with
  | nil => exact leads_mark (by decide) rfl rfl (by simpa using h)
  | cons m ms ihs =>
      refine leads_mark (by decide) rfl rfl (leads_quoted rfl (leads_mark (by decide) rfl rfl ?_))
      refine ih m (List.mem_cons_self ..) (Place.awaits_value _) (apart_writeMembers _ r) ?_
      exact ihs (fun m hm => ih m (List.mem_cons_of_mem _ hm)) (by simpa using h)

theorem leads_write {j : Json} (hj : Plain j) (hp : p.Awaits outer) (hr : Apart r)
    (h : Leads r (.done outer j) q) : Leads (write j r) p q := by
  -- Over any text behind it, since the parts of a document are written in front of one another.
  induction hj generalizing outer p q r with
  | null => exact .cons (by simp [write, isSpace]) rfl (by simp [write]; omega) (hp _ nofun) h
  | boolean b =>
      cases b <;>
        exact .cons (by simp [write, isSpace]) rfl (by simp [write]; omega) (hp _ nofun) h
  | whole i => exact leads_whole i hp hr h
  | text s => exact leads_quoted (hp _ nofun) h
  | @array items hj ih =>
      cases items with
      | nil => exact leads_mark (by decide) rfl (hp _ nofun) (leads_mark (by decide) rfl rfl h)
      | cons j js =>
          refine leads_mark (by decide) rfl (hp _ nofun) ?_
          refine ih j (List.mem_cons_self ..) (Place.awaits_firstItem _) (apart_writeItems js r) ?_
          exact leads_writeItems (fun j hj => ih j (List.mem_cons_of_mem _ hj)) h
  | @record members hj ih =>
      cases members with
      | nil => exact leads_mark (by decide) rfl (hp _ nofun) (leads_mark (by decide) rfl rfl h)
      | cons m ms =>
          refine leads_mark (by decide) rfl (hp _ nofun) ?_
          refine leads_quoted rfl (leads_mark (by decide) rfl rfl ?_)
          refine ih m (List.mem_cons_self ..) (Place.awaits_value _) (apart_writeMembers _ r) ?_
          exact leads_writeMembers (fun m hm => ih m (List.mem_cons_of_mem _ hm)) h

end

/-- A document that is written is read back. -/
theorem ofText?_compact {j : Json} (h : Plain j) : ofText? j.compact = some j := by
  refine ofText?_of_leads ?_
  rw [compact, String.toList_ofList]
  exact leads_write h (Place.awaits_value []) (by simp [Apart]) (.nil _)

end Reckoner.Json
