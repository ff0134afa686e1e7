import Reckoner.Decimal.Text

namespace Reckoner

theorem exists_of_toDigits (n : Nat) :
    ∃ c cs, Nat.toDigits 10 n = c :: cs ∧ c.isDigit = true := by
  obtain ⟨c, cs, hd⟩ := List.exists_cons_of_ne_nil (Nat.toDigits_ne_nil (n := n) (b := 10))
  refine ⟨c, cs, hd, ?_⟩
  exact Nat.isDigit_of_mem_toDigits (n := n) (by decide) (by decide) (hd ▸ List.mem_cons_self ..)

theorem head?_toDigits {n : Nat} (h : 0 < n) : (Nat.toDigits 10 n).head? ≠ some '0' := by
  induction n using Nat.strongRecOn with
  | ind n ih =>
      by_cases hn : n < 10
      · rw [Nat.toDigits_of_lt_base hn]
        simpa using Nat.ne_of_gt h
      · have hi := ih (n / 10) (by omega) (by omega)
        obtain ⟨c, cs, hd⟩ := List.exists_cons_of_ne_nil (Nat.toDigits_ne_nil (n := n / 10))
        rw [Nat.toDigits_of_base_le (by decide) (Nat.le_of_not_lt hn), hd]
        rwa [hd] at hi

namespace Decimal

/-- What the text of a decimal says: all but the sign of a zero. -/
def restored (d : Decimal) : Decimal := { d with negative := d.negative && d.mantissa != 0 }

theorem restored_of_not_negative {d : Decimal} (h : d.negative = false) : d.restored = d := by
  ext <;> simp [restored, h]

theorem isDigit_of_mem_lastDigits {k n : Nat} {c : Char} (h : c ∈ lastDigits k n) :
    c.isDigit = true := by
  induction k generalizing n with
  | zero => cases h
  | succ k ih =>
      rw [lastDigits, List.mem_append, List.mem_singleton] at h
      rcases h with h | rfl
      · exact ih h
      · rw [Nat.isDigit_digitChar]
        exact decide_eq_true (Nat.mod_lt n (by decide))

theorem ofDigitChars_lastDigits (k n a : Nat) :
    Nat.ofDigitChars 10 (lastDigits k n) a = a * tenPow k + n % tenPow k := by
  induction k generalizing n with
  | zero => simp [lastDigits, tenPow_zero, Nat.mod_one]
  | succ k ih =>
      rw [lastDigits, Nat.ofDigitChars_append, ih,
        Nat.ofDigitChars_cons_digitChar_of_lt_ten (Nat.mod_lt n (by decide)), Nat.ofDigitChars_nil,
        tenPow_succ, Nat.mul_comm (tenPow k) 10, Nat.mod_mul, Nat.mul_add, Nat.mul_left_comm a]
      omega

theorem fits_of_ofDigitChars {ds : List Char} {a : Nat} (h : Fits (Nat.ofDigitChars 10 ds a)) :
    Fits a := by
  rw [Nat.ofDigitChars_eq_ofDigitChars_zero] at h
  have hp : 0 < 10 ^ ds.length := Nat.pow_pos (by decide)
  exact Nat.lt_of_le_of_lt (Nat.le_trans (Nat.le_mul_of_pos_left a hp) (Nat.le_add_right ..)) h

namespace Numeral

theorem read_digit {n : Numeral} {c : Char} (hc : c.isDigit = true) (hs : n.scale < 28)
    (hf : Fits (10 * n.mantissa + (c.toNat - '0'.toNat))) (cs : List Char) :
    n.read (c :: cs) = read ⟨10 * n.mantissa + (c.toNat - '0'.toNat),
      if n.point then n.scale + 1 else n.scale, n.point, true⟩ cs := by
  rw [read, if_neg (Nat.ne_of_lt hs)]
  simp only [digit?, hc, if_true, hf]

theorem read_whole {ds : List Char} (hd : ∀ c ∈ ds, c.isDigit = true) {a : Nat}
    (hf : Fits (Nat.ofDigitChars 10 ds a)) (started : Bool) (rest : List Char) :
    read ⟨a, 0, false, started⟩ (ds ++ rest) =
      read ⟨Nat.ofDigitChars 10 ds a, 0, false, started || !ds.isEmpty⟩ rest := by
  induction ds generalizing a started with
  | nil => simp
  | cons c ds ih =>
      rw [Nat.ofDigitChars_cons] at hf ⊢
      rw [List.cons_append, read_digit (hd c (List.mem_cons_self ..)) (by decide : 0 < 28)
        (fits_of_ofDigitChars hf)]
      simpa using ih (fun x hx => hd x (List.mem_cons_of_mem c hx)) hf true

theorem read_fraction {ds : List Char} (hd : ∀ c ∈ ds, c.isDigit = true) {a k : Nat}
    (hf : Fits (Nat.ofDigitChars 10 ds a)) (hk : k + ds.length ≤ 28) :
    read ⟨a, k, true, true⟩ ds = some (Nat.ofDigitChars 10 ds a, k + ds.length) := by
  induction ds generalizing a k with
  | nil => rfl
  | cons c ds ih =>
      rw [Nat.ofDigitChars_cons] at hf ⊢
      rw [List.length_cons] at hk ⊢
      have hs : k < 28 := by omega
      rw [read_digit (hd c (List.mem_cons_self ..)) hs (fits_of_ofDigitChars hf)]
      have hi := ih (k := k + 1) (fun x hx => hd x (List.mem_cons_of_mem c hx)) hf (by omega)
      simpa [Nat.add_assoc, Nat.add_comm 1] using hi

end Numeral

/-- A decimal is read back from its text, with each of its fraction digits. -/
theorem read_chars (d : Decimal) :
    Numeral.empty.read (Nat.toDigits 10 (d.mantissa / tenPow d.scale) ++
      (if d.scale = 0 then [] else '.' :: lastDigits d.scale d.mantissa)) =
        some (d.mantissa, d.scale) := by
  have hd : ∀ c ∈ Nat.toDigits 10 (d.mantissa / tenPow d.scale), c.isDigit = true := fun c hc =>
    Nat.isDigit_of_mem_toDigits (by decide) (by decide) hc
  have hw : Fits (Nat.ofDigitChars 10 (Nat.toDigits 10 (d.mantissa / tenPow d.scale)) 0) := by
    rw [Nat.ofDigitChars_ten_toDigits]
    exact Nat.lt_of_le_of_lt (Nat.div_le_self ..) d.fits
  have hf : Nat.ofDigitChars 10 (lastDigits d.scale d.mantissa) (d.mantissa / tenPow d.scale) =
      d.mantissa := by
    rw [ofDigitChars_lastDigits, Nat.mul_comm]
    exact Nat.div_add_mod ..
  obtain ⟨c, cs, hc, _⟩ := exists_of_toDigits (d.mantissa / tenPow d.scale)
  rw [Numeral.empty, Numeral.read_whole hd hw, Nat.ofDigitChars_ten_toDigits]
  -- Without fraction digits there is no point either.
  by_cases hs : d.scale = 0
  · simp [hs, Numeral.read, tenPow_zero]
  · have hr := Numeral.read_fraction (k := 0) (fun c => isDigit_of_mem_lastDigits)
      (by rw [hf]; exact d.fits) (by simpa [length_lastDigits] using d.scale_le)
    rw [hf, length_lastDigits, Nat.zero_add] at hr
    simp [hs, hc, Numeral.read, Numeral.digit?, hr]

theorem ofChars?_minus (cs : List Char) : ofChars? ('-' :: cs) =
    (Numeral.empty.read cs).bind fun p => ofParts? (p.1 != 0) p.1 p.2 := by
  simp only [ofChars?]
  cases Numeral.empty.read cs <;> rfl

theorem ofChars?_of_isDigit {c : Char} (hc : c.isDigit = true) (cs : List Char) :
    ofChars? (c :: cs) = (Numeral.empty.read (c :: cs)).bind fun p => ofParts? false p.1 p.2 := by
  have hm : c ≠ '-' := by rintro rfl; cases hc
  have hp : c ≠ '+' := by rintro rfl; cases hc
  unfold ofChars?
  split
  rename_i h
  split at h
  · rename_i hs
    exact absurd (List.cons.inj hs).1 hm
  · rename_i hs
    exact absurd (List.cons.inj hs).1 hp
  · obtain ⟨rfl, rfl⟩ := Prod.mk.inj h
    cases Numeral.empty.read (c :: cs) <;> rfl

theorem ofChars?_chars (d : Decimal) : ofChars? d.chars = some d.restored := by
  have hr := read_chars d
  have ho (s : Bool) : ofParts? s d.mantissa d.scale = some { d with negative := s } :=
    ofParts?_eq_some_iff.2 ⟨rfl, rfl, rfl⟩
  cases hn : d.negative with
  | true =>
      rw [chars, hn, if_pos rfl, List.append_assoc, List.singleton_append, ofChars?_minus, hr]
      simp [ho, restored, hn]
  | false =>
      obtain ⟨c, cs, hd, hc⟩ := exists_of_toDigits (d.mantissa / tenPow d.scale)
      rw [hd, List.cons_append] at hr
      rw [chars, hn, hd, if_neg Bool.false_ne_true, List.nil_append, List.cons_append,
        ofChars?_of_isDigit hc, hr]
      simp [ho, restored, hn]

theorem ofText?_text (d : Decimal) : ofText? d.text = some d.restored := by
  rw [ofText?, text, String.toList_ofList, ofChars?_chars]
  rfl

end Decimal

end Reckoner
