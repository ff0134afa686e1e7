namespace Reckoner

abbrev Signed.Fits (half n : Int) : Prop := -half ≤ n ∧ n < half

/-- Whole numbers of some width, one bit for the sign, as many below zero as not. -/
@[ext] structure Signed (half : Int) where
  val : Int
  fits : Signed.Fits half val
  deriving DecidableEq

namespace Signed

variable {half n : Int}

def ofInt? (half n : Int) : Option (Signed half) :=
  if h : Fits half n then some ⟨n, h⟩ else none

theorem ofInt?_val (i : Signed half) : ofInt? half i.val = some i := dif_pos i.fits

theorem ofInt?_eq_some_iff {i : Signed half} : ofInt? half n = some i ↔ i.val = n := by
  constructor
  · intro h
    unfold ofInt? at h
    split at h
    · rw [← Option.some.inj h]
    · cases h
  · rintro rfl
    exact ofInt?_val i

theorem ofInt?_eq_none_iff : ofInt? half n = none ↔ ¬ Fits half n := by
  unfold ofInt?
  split <;> simp [*]

end Signed

abbrev Integer : Type := Signed 0x80000000_00000000

namespace Integer

abbrev Fits (n : Int) : Prop := Signed.Fits 0x80000000_00000000 n

abbrev ofInt? (n : Int) : Option Integer := Signed.ofInt? 0x80000000_00000000 n

def text (n : Integer) : String :=
  String.ofList ((if n.val < 0 then ['-'] else []) ++ Nat.toDigits 10 n.val.natAbs)

def neg? (a : Integer) : Option Integer := ofInt? (-a.val)

def add? (a b : Integer) : Option Integer := ofInt? (a.val + b.val)

def sub? (a b : Integer) : Option Integer := ofInt? (a.val - b.val)

def mul? (a b : Integer) : Option Integer := ofInt? (a.val * b.val)

-- A zero divisor is for the caller to refuse.
def div? (a b : Integer) : Option Integer := ofInt? (a.val.tdiv b.val)

end Integer

end Reckoner
