namespace Reckoner

/-- Names with what they stand for, in the order of the names. -/
structure Bindings (α : Type) where
  entries : List (String × α)
  sorted : entries.Pairwise (·.1 < ·.1)

namespace Bindings

variable {α : Type}

def empty : Bindings α := ⟨[], .nil⟩

def find? (b : Bindings α) (name : String) : Option α := b.entries.lookup name

def insertEntry (name : String) (a : α) : List (String × α) → List (String × α)
  | [] => [(name, a)]
  | (k, x) :: r =>
      if name < k then (name, a) :: (k, x) :: r
      else if k < name then (k, x) :: insertEntry name a r
      else (name, a) :: r

theorem mem_insertEntry {name : String} {a : α} {l : List (String × α)} {e : String × α}
    (h : e ∈ insertEntry name a l) : e.1 = name ∨ e ∈ l := by
  induction l with
  | nil => simp_all [insertEntry]
  | cons x r ih =>
      unfold insertEntry at h
      grind

theorem sorted_insertEntry (name : String) (a : α) {l : List (String × α)}
    (h : l.Pairwise (·.1 < ·.1)) : (insertEntry name a l).Pairwise (·.1 < ·.1) := by
  induction l with
  | nil => simp [insertEntry]
  | cons x r ih =>
      obtain ⟨hx, hr⟩ := List.pairwise_cons.1 h
      unfold insertEntry
      split
      · rename_i hlt
        refine List.pairwise_cons.2 ⟨fun e he => ?_, h⟩
        rcases List.mem_cons.1 he with rfl | he
        · exact hlt
        · exact String.lt_trans hlt (hx e he)
      split
      · rename_i hlt
        refine List.pairwise_cons.2 ⟨fun e he => ?_, ih hr⟩
        rcases mem_insertEntry he with heq | he
        · exact heq ▸ hlt
        · exact hx e he
      · rename_i h₁ h₂
        have heq := String.le_antisymm (String.not_lt.1 h₁) (String.not_lt.1 h₂)
        exact List.pairwise_cons.2 ⟨fun e he => heq ▸ hx e he, hr⟩

theorem lookup_cons (k : String) (x : α) (r : List (String × α)) (y : String) :
    ((k, x) :: r).lookup y = if y = k then some x else r.lookup y := by
  rw [List.lookup_cons]
  by_cases h : y = k
  · rw [if_pos h, beq_iff_eq.2 h]
  · rw [if_neg h, beq_eq_false_iff_ne.2 h]

theorem lookup_insertEntry (name : String) (a : α) (l : List (String × α)) (y : String) :
    (insertEntry name a l).lookup y = if y = name then some a else l.lookup y := by
  induction l with
  | nil => exact lookup_cons name a [] y
  | cons e r ih =>
      unfold insertEntry
      by_cases h₁ : name < e.1
      · rw [if_pos h₁, lookup_cons]
      rw [if_neg h₁]
      by_cases h₂ : e.1 < name
      · have hne : e.1 ≠ name := fun he => String.lt_irrefl name (he ▸ h₂)
        rw [if_pos h₂, lookup_cons, lookup_cons, ih]
        by_cases hy : y = e.1
        · rw [if_pos hy, if_neg (hy ▸ hne), if_pos hy]
        · rw [if_neg hy, if_neg hy]
      · have he : name = e.1 := String.le_antisymm (String.not_lt.1 h₂) (String.not_lt.1 h₁)
        rw [if_neg h₂, lookup_cons, lookup_cons, he]
        by_cases hy : y = e.1
        · rw [if_pos hy, if_pos hy]
        · rw [if_neg hy, if_neg hy, if_neg hy]

def insert (b : Bindings α) (name : String) (a : α) : Bindings α :=
  ⟨insertEntry name a b.entries, sorted_insertEntry name a b.sorted⟩

def erase (b : Bindings α) (name : String) : Bindings α :=
  ⟨b.entries.filter (·.1 != name), b.sorted.filter _⟩

theorem find?_insert (b : Bindings α) (name : String) (a : α) (y : String) :
    (b.insert name a).find? y = if y = name then some a else b.find? y :=
  lookup_insertEntry name a b.entries y

def contains (b : Bindings α) (name : String) : Bool := (b.find? name).isSome

end Bindings

end Reckoner
