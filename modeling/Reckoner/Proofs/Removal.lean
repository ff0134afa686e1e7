import Reckoner.Operation
import Mathlib.Data.List.Infix

namespace Reckoner

namespace Text

variable {word text u v : List Char}

/-- An occurrence of a word in a text, with what stands before and behind it. What stands before any
other one goes on from what stands before this one. -/
structure Leftmost (word text u v : List Char) : Prop where
  split : u ++ word ++ v = text
  least : ∀ u' v', u' ++ word ++ v' = text → u <+: u'

theorem Leftmost.of_front (h : word ++ v = text) : Leftmost word text [] v :=
  ⟨h, fun u' _ _ => u'.nil_prefix⟩

theorem eq_cons_of_split {c : Char} {cs : List Char} (hn : ¬ word <+: c :: cs)
    (h : u ++ word ++ v = c :: cs) : ∃ u', u = c :: u' ∧ u' ++ word ++ v = cs := by
  cases u with
  | nil => exact absurd ⟨v, h⟩ hn
  | cons d u =>
      rw [List.cons_append, List.cons_append] at h
      obtain ⟨rfl, hs⟩ := List.cons.inj h
      exact ⟨u, rfl, hs⟩

theorem Leftmost.cons {c : Char} {cs : List Char} (hn : ¬ word <+: c :: cs)
    (h : Leftmost word cs u v) : Leftmost word (c :: cs) (c :: u) v where
  split := congrArg (c :: ·) h.split
  least u' v' h' := by
    obtain ⟨u'', rfl, hs⟩ := eq_cons_of_split hn h'
    exact (List.prefix_cons_inj c).2 (h.least u'' v' hs)

theorem removeFirst_cases (word text : List Char) :
    (∃ u v, Leftmost word text u v ∧ removeFirst word text = u ++ v) ∨
      (¬ word <:+: text ∧ removeFirst word text = text) := by
  induction text with
  | nil =>
      by_cases hw : word = []
      · exact .inl ⟨[], [], .of_front (by rw [hw]; rfl), rfl⟩
      · exact .inr ⟨fun h => hw (List.infix_nil.1 h), rfl⟩
  | cons c cs ih =>
      cases hp : word.isPrefixOf? (c :: cs) with
      | some rest =>
          have he : removeFirst word (c :: cs) = rest := by rw [removeFirst, hp]
          exact .inl ⟨[], rest, .of_front (List.isPrefixOf?_eq_some_iff_append_eq.1 hp), he⟩
      | none =>
          have he : removeFirst word (c :: cs) = c :: removeFirst word cs := by rw [removeFirst, hp]
          have hn : ¬ word <+: c :: cs := by
            rintro ⟨rest, hr⟩
            cases hp.symm.trans (List.isPrefixOf?_eq_some_iff_append_eq.2 hr)
          rcases ih with ⟨u, v, hl, hr⟩ | ⟨hi, hr⟩
          · exact .inl ⟨c :: u, v, hl.cons hn, by rw [he, hr, List.cons_append]⟩
          · refine .inr ⟨?_, by rw [he, hr]⟩
            rintro ⟨u, v, h⟩
            obtain ⟨u', _, hs⟩ := eq_cons_of_split hn h
            exact hi ⟨u', v, hs⟩

theorem removeFirst_append (word rest : List Char) : removeFirst word (word ++ rest) = rest := by
  cases word with
  | nil => exact removeFirst_nil rest
  | cons c cs =>
      have hp : (c :: cs).isPrefixOf? (c :: (cs ++ rest)) = some rest :=
        List.isPrefixOf?_eq_some_iff_append_eq.2 rfl
      rw [List.cons_append, removeFirst, hp]

def Occurs (word text : String) : Prop := ∃ u v, u ++ word ++ v = text

variable {a b d : String}

theorem occurs_iff : Occurs b a ↔ b.toList <:+: a.toList := by
  constructor
  · rintro ⟨u, v, rfl⟩
    exact ⟨u.toList, v.toList, by simp⟩
  · rintro ⟨u, v, h⟩
    exact ⟨.ofList u, .ofList v, String.toList_inj.1 (by simpa using h)⟩

instance (word text : String) : Decidable (Occurs word text) := decidable_of_iff _ occurs_iff.symm

theorem exists_remove (h : Occurs b a) : ∃ u v, u ++ b ++ v = a ∧ remove a b = u ++ v ∧
    ∀ u' v', u' ++ b ++ v' = a → ∃ w, u' = u ++ w := by
  rcases removeFirst_cases b.toList a.toList with ⟨u, v, hl, hr⟩ | ⟨hn, _⟩
  · refine ⟨.ofList u, .ofList v, String.toList_inj.1 (by simpa using hl.split),
      String.toList_inj.1 (by simpa [remove] using hr), fun u' v' h => ?_⟩
    obtain ⟨w, hw⟩ := hl.least u'.toList v'.toList (by rw [← h]; simp)
    exact ⟨.ofList w, String.toList_inj.1 (by simpa using hw.symm)⟩
  · exact absurd (occurs_iff.1 h) hn

theorem remove_of_not_occurs (h : ¬ Occurs b a) : remove a b = a := by
  rcases removeFirst_cases b.toList a.toList with ⟨u, v, hl, _⟩ | ⟨_, hr⟩
  · exact absurd (occurs_iff.2 ⟨u, v, hl.split⟩) h
  · rw [remove, hr, String.ofList_toList]

theorem occurs_empty (a : String) : Occurs "" a := ⟨"", a, by simp⟩

theorem remove_empty (a : String) : remove a "" = a := by
  rw [remove, show "".toList = [] from rfl, removeFirst_nil, String.ofList_toList]

theorem remove_append (a b : String) : remove (a ++ b) a = b := by
  rw [remove, String.toList_append, removeFirst_append, String.ofList_toList]

theorem utf8ByteSize_remove_iff :
    (remove a b).utf8ByteSize + b.utf8ByteSize = a.utf8ByteSize ↔ Occurs b a := by
  constructor
  · intro h
    by_contra hn
    rw [remove_of_not_occurs hn] at h
    obtain rfl : b = "" := String.utf8ByteSize_eq_zero_iff.1 (by omega)
    exact hn (occurs_empty a)
  · intro h
    obtain ⟨u, v, rfl, hr, _⟩ := exists_remove h
    rw [hr]
    simp only [String.utf8ByteSize_append]
    omega

end Text

/-- To subtract a string takes its leftmost occurrence out of the other one, if there is any. -/
theorem BinaryOperator.apply_subtract_strings (a b : String) :
    let difference (a b : String) : Except EvalError Value :=
      apply (.arithmetic .subtract) (.string a) (.string b)
    (Text.Occurs b a → ∃ u v, u ++ b ++ v = a ∧ difference a b = .ok (.string (u ++ v)) ∧
      ∀ u' v', u' ++ b ++ v' = a → ∃ w, u' = u ++ w) ∧
    (¬ Text.Occurs b a ∨ b = "" → difference a b = .ok (.string a)) ∧
    (apply (.arithmetic .add) (.string a) (.string b) = .ok (.string (a ++ b)) ∧
      difference (a ++ b) a = .ok (.string b)) ∧
    ∃ d, difference a b = .ok (.string d) ∧
      (d.utf8ByteSize + b.utf8ByteSize = a.utf8ByteSize ↔ Text.Occurs b a) := by
  intro difference
  have hd (a b : String) : difference a b = .ok (.string (Text.remove a b)) := rfl
  refine ⟨fun h => ?_, ?_, ⟨rfl, ?_⟩, Text.remove a b, hd a b, Text.utf8ByteSize_remove_iff⟩
  · obtain ⟨u, v, hs, hr, hl⟩ := Text.exists_remove h
    exact ⟨u, v, hs, by rw [hd, hr], hl⟩
  · rintro (hn | rfl)
    · rw [hd, Text.remove_of_not_occurs hn]
    · rw [hd, Text.remove_empty]
  · rw [hd, Text.remove_append]

theorem BinaryOperator.overlapping_occurrences :
    let difference (a b : String) : Except EvalError Value :=
      apply (.arithmetic .subtract) (.string a) (.string b)
    (Text.Occurs "éaé" "xéaéaé" ∧ ∃ u v, u ++ "éaé" ++ v = "xéaéaé" ∧
      difference "xéaéaé" "éaé" = .ok (.string (u ++ v)) ∧
      ∀ u' v', u' ++ "éaé" ++ v' = "xéaéaé" → ∃ w, u' = u ++ w) ∧
    difference "xéaéaé" "éaé" = .ok (.string "xaé") ∧
    ¬ Text.Occurs "b" "ABC" ∧ difference "ABC" "b" = .ok (.string "ABC") := by
  intro difference
  have ho : Text.Occurs "éaé" "xéaéaé" := by decide
  have hn : ¬ Text.Occurs "b" "ABC" := by decide
  exact ⟨⟨ho, (apply_subtract_strings "xéaéaé" "éaé").1 ho⟩, by decide, hn,
    (apply_subtract_strings "ABC" "b").2.1 (.inl hn)⟩

end Reckoner
