import Reckoner.Proofs.Munch

namespace Reckoner

open Text

theorem Text.width_ofList (cs : List Char) : (String.ofList cs).utf8ByteSize = width cs := by
  induction cs with
  | nil => rfl
  | cons c cs ih =>
      have hs : String.ofList (c :: cs) = String.singleton c ++ String.ofList cs := by
        rw [← String.toList_inj]
        simp
      rw [hs, String.utf8ByteSize_append, String.utf8ByteSize_singleton, ih, width]

theorem Text.width_toList (s : String) : width s.toList = s.utf8ByteSize := by
  rw [← width_ofList, String.ofList_toList]

namespace Token

def Refused (text : String) (e : LexError) : Prop :=
  ∃ (before after : String) (tokens : List Token), text = before ++ after ∧
    e.position = before.utf8ByteSize ∧ tokenize before = .ok tokens ∧
    scan text = tokens.dropLast.map .ok ++ [.error e] ∧ e.Fault before.toList after.toList

theorem position_lt_stop {t : Token} (ht : t.Formed) : t.position < t.stop := by
  obtain ⟨c, cs, hl, _⟩ := exists_of_formed ht
  have hc := c.utf8Size_pos
  rw [stop, hl, width]
  omega

namespace Tiles

variable {p q : Nat} {text tail : List Char} {ts : List Token}

theorem bounded (h : Tiles p text ts q tail) :
    p ≤ q ∧ ∀ t ∈ ts, p ≤ t.position ∧ t.stop ≤ q := by
  induction h with
  | nil => simp
  | @cons p q gap rest tail t ts hg ht hp hb h ih =>
      obtain ⟨hq, hts⟩ := ih
      have hlt := position_lt_stop ht
      refine ⟨by omega, ?_⟩
      intro u hu
      rcases List.mem_cons.1 hu with rfl | hu
      · exact ⟨by omega, hq⟩
      · obtain ⟨h1, h2⟩ := hts u hu
        exact ⟨by omega, h2⟩

theorem pairwise (h : Tiles p text ts q tail) : ts.Pairwise fun t u => t.stop ≤ u.position := by
  induction h with
  | nil => exact .nil
  | cons hg ht hp hb h ih => exact .cons (fun u hu => (h.bounded.2 u hu).1) ih

end Tiles

end Token

end Reckoner
