import Reckoner.Token.Scan

namespace Reckoner.Text

def Range.Disjoint (r b : Range) : Prop := r.2 < b.1 ∨ b.2 < r.1

instance (r b : Range) : Decidable (r.Disjoint b) := inferInstanceAs (Decidable (_ ∨ _))

theorem contains_iff {r : Range} {c : Char} :
    r.contains c = true ↔ r.1 ≤ c.toNat ∧ c.toNat ≤ r.2 := by
  simp [Range.contains]

/-- No character is in two lists of ranges that have none in common. -/
theorem any_contains_eq_false {rs bs : List Range} (h : ∀ r ∈ rs, ∀ b ∈ bs, r.Disjoint b) {c : Char}
    (hr : rs.any (·.contains c) = true) : bs.any (·.contains c) = false := by
  obtain ⟨r, hm, hc⟩ := List.any_eq_true.1 hr
  rw [contains_iff] at hc
  rw [List.any_eq_false]
  intro b hb hcb
  rw [contains_iff] at hcb
  rcases h r hm b hb with h | h <;> omega

def digitRanges : List Range := [(0x30, 0x39)]

def alphaRanges : List Range := [(0x41, 0x5a), (0x61, 0x7a)]

theorem isDigit_eq (c : Char) : c.isDigit = digitRanges.any (·.contains c) := by
  rw [Bool.eq_iff_iff, Char.isDigit_iff_toNat]
  simp [digitRanges, Range.contains]

theorem isAlpha_eq (c : Char) : c.isAlpha = alphaRanges.any (·.contains c) := by
  have h : c.isAlpha = (decide ('A'.val ≤ c.val ∧ c.val ≤ 'Z'.val) ||
      decide ('a'.val ≤ c.val) && decide (c.val ≤ 'z'.val)) := rfl
  rw [h, Bool.eq_iff_iff]
  simp [alphaRanges, Range.contains, UInt32.le_iff_toNat_le, ← Char.toNat_val]

theorem isLetter_eq (c : Char) : isLetter c = (alphaRanges ++ letterRanges).any (·.contains c) := by
  rw [isLetter, isAlpha_eq, List.any_append]

theorem isNumeral_eq (c : Char) :
    isNumeral c = (digitRanges ++ numeralRanges).any (·.contains c) := by
  rw [isNumeral, isDigit_eq, List.any_append]

theorem isLetter_of_isDigit {c : Char} (h : c.isDigit = true) : isLetter c = false := by
  rw [isDigit_eq] at h
  rw [isLetter_eq]
  exact any_contains_eq_false (by decide +kernel) h

theorem isLetter_of_isBlank {c : Char} (h : isBlank c = true) : isLetter c = false := by
  rw [isLetter_eq]
  exact any_contains_eq_false (by decide +kernel) h

theorem isNumeral_of_isBlank {c : Char} (h : isBlank c = true) : isNumeral c = false := by
  rw [isNumeral_eq]
  exact any_contains_eq_false (by decide +kernel) h

end Reckoner.Text

namespace Reckoner.Token

theorem startsWord_of_isDigit {c : Char} (h : c.isDigit = true) : startsWord c = false := by
  have hu : c ≠ '_' := by rintro rfl; cases h
  simp [startsWord, Text.isLetter_of_isDigit h, hu]

theorem continuesWord_of_isDigit {c : Char} (h : c.isDigit = true) : continuesWord c = true := by
  simp [continuesWord, Text.isNumeral, h]

theorem continuesWord_of_startsWord {c : Char} (h : startsWord c = true) :
    continuesWord c = true := by
  simp only [startsWord, continuesWord, Bool.or_eq_true] at h ⊢
  exact h.imp_left .inl

theorem isDigit_of_continuesWord {c : Char} (h : continuesWord c = false) : c.isDigit = false :=
  Bool.eq_false_iff.2 fun hd => by simp [continuesWord_of_isDigit hd] at h

theorem startsWord_of_continuesWord {c : Char} (h : continuesWord c = false) :
    startsWord c = false :=
  Bool.eq_false_iff.2 fun hs => by simp [continuesWord_of_startsWord hs] at h

theorem continuesWord_of_isBlank {c : Char} (h : Text.isBlank c = true) :
    continuesWord c = false := by
  have hu : c ≠ '_' := by rintro rfl; revert h; decide
  simp [continuesWord, Text.isLetter_of_isBlank h, Text.isNumeral_of_isBlank h, hu]

theorem isBlank_of_continuesWord {c : Char} (h : continuesWord c = true) :
    Text.isBlank c = false :=
  Bool.eq_false_iff.2 fun hb => by simp [continuesWord_of_isBlank hb] at h

end Reckoner.Token
