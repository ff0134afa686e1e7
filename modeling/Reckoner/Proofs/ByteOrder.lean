import Mathlib.Tactic.SplitIfs

namespace Reckoner.Text

open String (utf8EncodeChar)

def bytes (s : String) : List UInt8 := s.toByteArray.data.toList

theorem bytes_eq (s : String) : bytes s = s.toList.flatMap utf8EncodeChar := by
  rw [bytes, ← String.utf8Encode_toList, List.utf8Encode, List.data_toByteArray]

theorem cons_lt_cons_byte {m n : Nat} (hm : m < 256) (hn : n < 256) (r s : List UInt8) :
    UInt8.ofNat m :: r < UInt8.ofNat n :: s ↔ m < n ∨ m = n ∧ r < s := by
  rw [List.cons_lt_cons_iff, UInt8.lt_iff_toNat_lt, ← UInt8.toNat_inj,
    UInt8.toNat_ofNat_of_lt' hm, UInt8.toNat_ofNat_of_lt' hn]

theorem utf8EncodeChar_lt {c d : Char} (h : c < d) (r s : List UInt8) :
    utf8EncodeChar c ++ r < utf8EncodeChar d ++ s := by
  have hcd : c.val.toNat < d.val.toNat := h
  have hd : d.val.toNat < 0x110000 := d.valid.elim (fun h => Nat.lt_trans h (by decide)) (·.2)
  unfold utf8EncodeChar
  generalize c.val.toNat = v at *
  generalize d.val.toNat = w at *
  simp only
  -- A longer encoding has a larger first byte, and in one length the bytes are digits.
  split_ifs <;>
    simp (disch := omega) only [List.cons_append, cons_lt_cons_byte, Nat.mod_eq_of_lt] <;> omega

/-- The order of texts by their characters is the one by their bytes. -/
theorem bytes_lt {s t : String} (h : s < t) : bytes s < bytes t := by
  have hl : s.toList < t.toList := h
  rw [bytes_eq, bytes_eq]
  generalize s.toList = cs at hl
  generalize t.toList = ds at hl
  induction hl with
  | @nil d ds =>
      obtain ⟨b, bs, hb⟩ := List.exists_cons_of_ne_nil (String.utf8EncodeChar_ne_nil (c := d))
      rw [List.flatMap_cons, hb]
      exact List.nil_lt_cons ..
  | rel hcd => exact utf8EncodeChar_lt hcd _ _
  | cons _ ih => exact List.append_left_lt ih

end Reckoner.Text
