import Reckoner.Proofs.InfixForm
import Reckoner.Proofs.Rounding

namespace Reckoner

theorem ofDigitChars_lt {ds : List Char} (hd : ∀ c ∈ ds, c.isDigit = true) (a : ℕ) :
    Nat.ofDigitChars 10 ds a < (a + 1) * 10 ^ ds.length := by
  induction ds generalizing a with
  | nil => simp
  | cons c ds ih =>
      obtain ⟨hc, hd⟩ := List.forall_mem_cons.1 hd
      obtain ⟨_, hle⟩ := Char.isDigit_iff_toNat.1 hc
      have hz : '0'.toNat = 48 := rfl
      have hn : '9'.toNat = 57 := rfl
      have hi := ih hd (10 * a + (c.toNat - '0'.toNat))
      have hm : (10 * a + (c.toNat - '0'.toNat) + 1) * 10 ^ ds.length ≤
          (a + 1) * 10 * 10 ^ ds.length := Nat.mul_le_mul_right _ (by omega)
      rw [Nat.ofDigitChars_cons, List.length_cons, pow_succ']
      linarith

theorem le_ofDigitChars (ds : List Char) (a : ℕ) :
    a * 10 ^ ds.length ≤ Nat.ofDigitChars 10 ds a := by
  rw [Nat.ofDigitChars_eq_ofDigitChars_zero, mul_comm]
  exact Nat.le_add_right ..

namespace Decimal.Numeral

/-- What comes of reading the digits of a number: no more than half of the last place is lost, or
the number is too large. -/
inductive Reads (x : ℚ) : Option (ℕ × ℕ) → Prop
  | some {m k : ℕ} (fits : Fits m) (places : k ≤ 28) (lt : x < limit)
      (near : |(m : ℚ) / 10 ^ k - x| ≤ 1 / 2 / 10 ^ k) : Reads x (some (m, k))
  | none (h : limit ≤ x) : Reads x none

variable {x : ℚ} {m k a : ℕ}

theorem Reads.of_scaled (hx : 0 ≤ x) (hf : Fits m) (hk : k ≤ 28) (hlt : x * 10 ^ k < limit)
    (h : |(m : ℚ) - x * 10 ^ k| ≤ 1 / 2) : Reads x (.some (m, k)) := by
  have hp : (0 : ℚ) < 10 ^ k := by positivity
  have hle : x ≤ x * 10 ^ k := le_mul_of_one_le_right hx (one_le_pow₀ (by norm_num))
  have hs : (m : ℚ) / 10 ^ k - x = (m - x * 10 ^ k) / 10 ^ k := by
    rw [sub_div, mul_div_cancel_right₀ _ hp.ne']
  refine .some hf hk (hle.trans_lt hlt) ?_
  rw [hs, abs_div, abs_of_pos hp]
  exact div_le_div_of_nonneg_right h hp.le

/-- What has been read, as so many places of a number, with the digits that are still to come. -/
def extended (a k : ℕ) (ds : List Char) : ℚ := Nat.ofDigitChars 10 ds a / 10 ^ (k + ds.length)

theorem extended_nonneg (a k : ℕ) (ds : List Char) : 0 ≤ extended a k ds := by
  unfold extended
  positivity

theorem extended_cons (a k : ℕ) (c : Char) (ds : List Char) :
    extended a k (c :: ds) = extended (10 * a + (c.toNat - '0'.toNat)) (k + 1) ds := by
  rw [extended, extended, Nat.ofDigitChars_cons, List.length_cons, Nat.add_right_comm,
    Nat.add_assoc]

theorem extended_mul (a k : ℕ) (ds : List Char) :
    extended a k ds * 10 ^ k = Nat.ofDigitChars 10 ds a / 10 ^ ds.length := by
  rw [extended, pow_add]
  field_simp

theorem extended_bounds {ds : List Char} (hd : ∀ c ∈ ds, c.isDigit = true) (a k : ℕ) :
    a ≤ extended a k ds * 10 ^ k ∧ extended a k ds * 10 ^ k < a + 1 := by
  have hp : (0 : ℚ) < 10 ^ ds.length := by positivity
  rw [extended_mul, le_div_iff₀ hp, div_lt_iff₀ hp]
  exact ⟨by exact_mod_cast le_ofDigitChars ds a, by exact_mod_cast ofDigitChars_lt hd a⟩

/-- The next digit alone decides on which side of the half they are. -/
theorem extended_lt_half_iff {c : Char} {ds : List Char} (hd : ∀ x ∈ c :: ds, x.isDigit = true)
    (a k : ℕ) : extended a k (c :: ds) * 10 ^ k < a + 1 / 2 ↔ c.toNat - '0'.toNat < 5 := by
  obtain ⟨hge, hlt⟩ := extended_bounds (List.forall_mem_cons.1 hd).2
    (10 * a + (c.toNat - '0'.toNat)) (k + 1)
  rw [← extended_cons, pow_succ, ← mul_assoc] at hge hlt
  generalize extended a k (c :: ds) * 10 ^ k = y at hge hlt
  generalize c.toNat - '0'.toNat = d at hge hlt
  push_cast at hge hlt
  constructor
  · intro h
    have h5 : (d : ℚ) < 5 := by linarith
    exact_mod_cast h5
  · intro h
    have h5 : (d : ℚ) + 1 ≤ 5 := by exact_mod_cast h
    linarith

theorem isFiller_of_isDigit {ds : List Char} (hd : ∀ c ∈ ds, c.isDigit = true) :
    ds.all isFiller = true := by
  rw [List.all_eq_true]
  intro c hc
  rw [isFiller, hd c hc, Bool.true_or]

theorem round_of_isDigit {c : Char} {ds : List Char} (hd : ∀ x ∈ c :: ds, x.isDigit = true)
    (n : Numeral) : n.round c ds =
      if c.toNat - '0'.toNat < 5 then some (n.mantissa, n.scale)
      else if Fits (n.mantissa + 1) then some (n.mantissa + 1, n.scale)
      else if n.scale = 0 then none
      else some ((n.mantissa + 5) / 10, n.scale - 1) := by
  have hc : digit? c = some (c.toNat - '0'.toNat) := if_pos (hd c List.mem_cons_self)
  have hf : ((c :: ds).findSome? digit?).getD 0 = c.toNat - '0'.toNat := by
    rw [List.findSome?_cons, hc]
    rfl
  rw [round, hf, isFiller_of_isDigit hd]
  rfl

/-- Where the largest mantissa would be rounded up, one more digit of it goes. -/
theorem Reads.of_largest {j : ℕ} (hx : 0 ≤ x) (hj : j ≤ 28) (hge : limit ≤ x * 10 ^ (j + 1))
    (hlt : x * 10 ^ (j + 1) < 2 ^ 96) : Reads x (.some ((2 ^ 96 - 1 + 5) / 10, j)) := by
  have hm : (((2 ^ 96 - 1 + 5) / 10 : ℕ) : ℚ) = 7922816251426433759354395034 := by norm_num
  rw [limit] at hge
  rw [show x * 10 ^ (j + 1) = x * 10 ^ j * 10 by rw [pow_succ, mul_assoc]] at hge hlt
  refine .of_scaled hx (by decide) hj ?_ (abs_le.2 ⟨?_, ?_⟩)
  · rw [limit]; linarith
  · rw [hm]; linarith
  · rw [hm]; linarith

theorem reads_round {c : Char} {ds : List Char} (hd : ∀ x ∈ c :: ds, x.isDigit = true)
    (hf : Fits a) (hk : k ≤ 28) (started : Bool) :
    Reads (extended a k (c :: ds)) (round ⟨a, k, true, started⟩ c ds) := by
  obtain ⟨hge, hlt⟩ := extended_bounds hd a k
  have hhalf := extended_lt_half_iff hd a k
  have hx := extended_nonneg a k (c :: ds)
  have ha : (a : ℚ) + 1 ≤ 2 ^ 96 := by exact_mod_cast Nat.succ_le_of_lt hf
  rw [round_of_isDigit hd]
  generalize extended a k (c :: ds) = x at hge hlt hhalf hx
  split
  · rename_i h5
    have hdown := hhalf.2 h5
    refine .of_scaled hx hf hk ?_ (abs_le.2 ⟨?_, ?_⟩)
    · rw [limit]; linarith
    · linarith
    · linarith
  rename_i h5
  have hup := not_lt.1 (mt hhalf.1 h5)
  split
  · rename_i hf'
    have ha' : (a : ℚ) + 1 + 1 ≤ 2 ^ 96 := by exact_mod_cast Nat.succ_le_of_lt hf'
    refine .of_scaled hx hf' hk ?_ (abs_le.2 ⟨?_, ?_⟩)
    · rw [limit]; linarith
    · push_cast; linarith
    · push_cast; linarith
  rename_i hf'
  -- No mantissa but the largest is without a next one.
  obtain rfl : a = 2 ^ 96 - 1 := by
    simp only [Fits] at hf hf'
    omega
  have hl : limit ≤ x * 10 ^ k := by
    rw [limit]
    norm_num at hup ⊢
    linarith
  cases k with
  | zero => exact .none (by simpa using hl)
  | succ j => exact .of_largest hx (Nat.le_of_succ_le hk) hl (hlt.trans_le ha)

theorem reads_fraction {ds : List Char} (hd : ∀ x ∈ ds, x.isDigit = true) (hf : Fits a)
    (hk : k ≤ 28) : Reads (extended a k ds) (read ⟨a, k, true, true⟩ ds) := by
  induction ds generalizing a k with
  | nil =>
      have ha : (a : ℚ) + 1 ≤ 2 ^ 96 := by exact_mod_cast Nat.succ_le_of_lt hf
      have hx : extended a k [] * 10 ^ k = a := by simp [extended_mul]
      refine .of_scaled (extended_nonneg ..) hf hk ?_ ?_
      · rw [hx, limit]; linarith
      · rw [hx]; norm_num
  | cons c ds ih =>
      have hround := reads_round hd hf hk true
      obtain ⟨hc, hd⟩ := List.forall_mem_cons.1 hd
      by_cases hs : k = 28
      · rw [read, if_pos hs]
        exact hround
      by_cases hf' : Fits (10 * a + (c.toNat - '0'.toNat))
      · rw [read_digit hc (Nat.lt_of_le_of_ne hk hs) hf', extended_cons]
        exact ih hd hf' (by omega)
      · rw [read, if_neg hs]
        simp only [digit?, hc, if_true, hf', if_false]
        exact hround

theorem read_whole_of_not_fits {ds : List Char} (hd : ∀ x ∈ ds, x.isDigit = true) (hf : Fits a)
    (h : ¬ Fits (Nat.ofDigitChars 10 ds a)) (started : Bool) (rest : List Char) :
    read ⟨a, 0, false, started⟩ (ds ++ rest) = none := by
  induction ds generalizing a started with
  | nil => exact absurd hf h
  | cons c ds ih =>
      obtain ⟨hc, hd⟩ := List.forall_mem_cons.1 hd
      rw [Nat.ofDigitChars_cons] at h
      by_cases hf' : Fits (10 * a + (c.toNat - '0'.toNat))
      · rw [List.cons_append, read_digit hc (by decide : 0 < 28) hf']
        exact ih hd hf' h true
      · rw [List.cons_append, read, if_neg (by simp)]
        simp only [digit?, hc, if_true, hf', if_false, Bool.false_eq_true]

theorem read_point (a : ℕ) (fs : List Char) :
    read ⟨a, 0, false, true⟩ ('.' :: fs) = read ⟨a, 0, true, true⟩ fs := by
  rw [read, if_neg (by simp)]
  rfl

theorem reads_pointed {ds fs : List Char} (hne : ds ≠ []) (hd : ∀ x ∈ ds, x.isDigit = true)
    (hf : ∀ x ∈ fs, x.isDigit = true) :
    Reads (extended (Nat.ofDigitChars 10 ds 0) 0 fs) (empty.read (ds ++ '.' :: fs)) := by
  by_cases h : Fits (Nat.ofDigitChars 10 ds 0)
  · have hs : (false || !ds.isEmpty) = true := by simpa using hne
    rw [empty, read_whole hd h, hs, read_point]
    exact reads_fraction hf h (Nat.zero_le 28)
  · rw [empty, read_whole_of_not_fits hd (by decide) h]
    have hge := (extended_bounds hf (Nat.ofDigitChars 10 ds 0) 0).1
    rw [pow_zero, mul_one] at hge
    rw [fits_iff, not_lt] at h
    refine .none ?_
    rw [limit]
    linarith

theorem read_pointed {ds fs : List Char} (hne : ds ≠ []) (hd : ∀ x ∈ ds, x.isDigit = true)
    (hf : ∀ x ∈ fs, x.isDigit = true) (hl : fs.length ≤ 28)
    (h : Fits (Nat.ofDigitChars 10 (ds ++ fs) 0)) :
    empty.read (ds ++ '.' :: fs) = some (Nat.ofDigitChars 10 (ds ++ fs) 0, fs.length) := by
  rw [Nat.ofDigitChars_append] at h ⊢
  have hs : (false || !ds.isEmpty) = true := by simpa using hne
  rw [empty, read_whole hd (fits_of_ofDigitChars h), hs, read_point,
    read_fraction hf h (by omega), Nat.zero_add]

theorem read_zero_cons {c : Char} (hc : c.isDigit = true) (cs : List Char) :
    empty.read ('0' :: c :: cs) = empty.read (c :: cs) := by
  have hz : empty.read ('0' :: c :: cs) = read ⟨0, 0, false, true⟩ (c :: cs) :=
    read_digit rfl (by decide) (by decide) (c :: cs)
  rw [hz, empty, read, read]
  simp [digit?, hc]

end Decimal.Numeral

namespace Token

open Decimal

def Digits (cs : List Char) : Prop := ∀ c ∈ cs, c.isDigit = true

instance (cs : List Char) : Decidable (Digits cs) :=
  decidable_of_iff (cs.all Char.isDigit = true) List.all_eq_true

def pointed (ds fs : List Char) : ℚ := Nat.ofDigitChars 10 (ds ++ fs) 0 / 10 ^ fs.length

/-- The runs of digits and points that write a number which is not too large. -/
inductive InRange : List Char → Prop
  | whole {ds : List Char} (hd : Digits ds) (h : Nat.ofDigitChars 10 ds 0 < 2 ^ 63) : InRange ds
  | pointed {ds fs : List Char} (hd : Digits ds) (hf : Digits fs) (hne : fs ≠ [])
      (h : pointed ds fs < limit) : InRange (ds ++ '.' :: fs)

/-- What a run denotes: the integer that its digits write, or an unsigned decimal. That is the
number with all its places if there is room for all digits, and else no further from the number than
half of the last place. -/
inductive Denotes : List Char → Value → Prop
  | integer {ds : List Char} (hd : Digits ds) {n : Integer}
      (hn : n.val = Nat.ofDigitChars 10 ds 0) : Denotes ds (.integer n)
  | decimal {ds fs : List Char} (hd : Digits ds) (hf : Digits fs) {d : Decimal}
      (unsigned : d.negative = false)
      (exact : fs.length ≤ 28 → Nat.ofDigitChars 10 (ds ++ fs) 0 ≤ 2 ^ 96 - 1 →
        d.toRat = pointed ds fs ∧ d.scale = fs.length)
      (near : |d.toRat - pointed ds fs| ≤ 1 / 2 / 10 ^ d.scale) :
      Denotes (ds ++ '.' :: fs) (.decimal d)

variable {ds fs cs : List Char} {c : Char} {v : Value}

theorem extended_eq_pointed (ds fs : List Char) :
    Numeral.extended (Nat.ofDigitChars 10 ds 0) 0 fs = pointed ds fs := by
  rw [Numeral.extended, pointed, Nat.ofDigitChars_append, Nat.zero_add]

theorem numberValue?_whole (hd : Digits ds) : numberValue? ds =
    Value.integer <$> Integer.ofInt? (Nat.ofDigitChars 10 ds 0) := by
  rw [numberValue?, if_pos (count_point hd)]

theorem numberValue?_pointed (hd : Digits ds) (hf : Digits fs) (hne : fs ≠ []) :
    numberValue? (ds ++ '.' :: fs) = Value.decimal <$> ofChars? (ds ++ '.' :: fs) := by
  have hp : (ds ++ '.' :: fs).count '.' = 1 := by
    rw [List.count_append, List.count_cons_self, count_point hd, count_point hf]
  have hl : (ds ++ '.' :: fs).getLast? ≠ some '.' := by
    intro hl
    rw [List.getLast?_append_of_ne_nil _ (List.cons_ne_nil '.' fs), List.getLast?_cons,
      List.getLast?_eq_some_getLast hne, Option.getD_some, Option.some.injEq] at hl
    exact absurd (hf _ (List.getLast_mem hne)) (by rw [hl]; decide)
  rw [numberValue?, if_neg (by omega), if_pos ⟨hp, hl⟩]

theorem ofChars?_pointed (hne : ds ≠ []) (hd : Digits ds) :
    ofChars? (ds ++ '.' :: fs) =
      (Numeral.empty.read (ds ++ '.' :: fs)).bind fun p => ofParts? false p.1 p.2 := by
  obtain ⟨c, cs, rfl⟩ := List.exists_cons_of_ne_nil hne
  exact ofChars?_of_isDigit (hd c List.mem_cons_self) _

theorem toRat_of_unsigned {d : Decimal} (h : d.negative = false) :
    d.toRat = d.mantissa / 10 ^ d.scale := by
  rw [toRat_eq_withSign, h]
  rfl

theorem exists_decimal (hne : ds ≠ []) (hd : Digits ds) (hf : Digits fs)
    (h : pointed ds fs < limit) :
    ∃ d, ofChars? (ds ++ '.' :: fs) = some d ∧ Denotes (ds ++ '.' :: fs) (.decimal d) := by
  have hr := Numeral.reads_pointed hne hd hf
  have hexact := Numeral.read_pointed hne hd hf
  rw [extended_eq_pointed] at hr
  rw [ofChars?_pointed hne hd]
  generalize Numeral.empty.read (ds ++ '.' :: fs) = o at hr hexact
  cases hr with
  | none hl => exact absurd h (not_lt.2 hl)
  | @some m k fits places _ near =>
      let d : Decimal := ⟨false, m, k, fits, places⟩
      have hd' : ofParts? false m k = some d := ofParts?_eq_some_iff.2 ⟨rfl, rfl, rfl⟩
      have hv : d.toRat = m / 10 ^ k := toRat_of_unsigned rfl
      refine ⟨d, hd', .decimal hd hf rfl (fun hl hm => ?_) (hv ▸ near)⟩
      have he := hexact hl (Nat.lt_of_le_pred (by decide) hm)
      obtain ⟨rfl, rfl⟩ := Prod.mk.inj (Option.some.inj he)
      exact ⟨hv, rfl⟩

theorem lt_limit_of_ofChars? (hne : ds ≠ []) (hd : Digits ds) (hf : Digits fs) {d : Decimal}
    (h : ofChars? (ds ++ '.' :: fs) = some d) : pointed ds fs < limit := by
  have hr := Numeral.reads_pointed hne hd hf
  rw [extended_eq_pointed] at hr
  rw [ofChars?_pointed hne hd] at h
  generalize Numeral.empty.read (ds ++ '.' :: fs) = o at hr h
  cases hr with
  | none => cases h
  | some _ _ lt _ => exact lt

theorem exists_numberValue? (hc : c.isDigit = true) (h : InRange (c :: cs)) :
    ∃ v, numberValue? (c :: cs) = some v ∧ Denotes (c :: cs) v := by
  generalize hrun : c :: cs = run at h
  cases h with
  | whole hd h =>
      have hn : Integer.Fits (Nat.ofDigitChars 10 run 0) := by
        rw [Integer.Fits]
        omega
      refine ⟨.integer ⟨_, hn⟩, ?_, .integer hd rfl⟩
      rw [numberValue?_whole hd, Integer.ofInt?, Signed.ofInt?, dif_pos hn]
      rfl
  | @pointed ds fs hd hf hne h =>
      have hds : ds ≠ [] := by
        rintro rfl
        rw [(List.cons.inj hrun).1] at hc
        exact absurd hc (by decide)
      obtain ⟨d, hd', hv⟩ := exists_decimal hds hd hf h
      refine ⟨.decimal d, ?_, hv⟩
      rw [numberValue?_pointed hd hf hne, hd']
      rfl

theorem inRange_of_numberValue? (hc : c.isDigit = true) (hcs : ∀ x ∈ cs, isNumberChar x = true)
    (h : numberValue? (c :: cs) = some v) : InRange (c :: cs) := by
  have hrun : ∀ x ∈ c :: cs, isNumberChar x = true :=
    List.forall_mem_cons.2 ⟨isNumberChar_of_isDigit hc, hcs⟩
  by_cases hp : (c :: cs).count '.' = 0
  · have hd : Digits (c :: cs) := isDigit_of_count_point hp hrun
    rw [numberValue?_whole hd] at h
    obtain ⟨n, hn, _⟩ := Option.map_eq_some_iff.1 h
    have hfits := n.fits
    rw [Signed.ofInt?_eq_some_iff.1 hn] at hfits
    refine .whole hd ?_
    omega
  · have hpoint : (c :: cs).count '.' = 1 ∧ (c :: cs).getLast? ≠ some '.' := by
      obtain ⟨hle, hl⟩ := numberValue?_eq_some h
      exact ⟨by omega, hl⟩
    obtain ⟨ds, fs, he, hne, hd, hf⟩ := exists_of_point hrun hpoint.1 hpoint.2
    have hds : ds ≠ [] := by
      rintro rfl
      rw [(List.cons.inj he).1] at hc
      exact absurd hc (by decide)
    rw [he] at h ⊢
    rw [numberValue?_pointed hd hf hne] at h
    obtain ⟨d, hd', _⟩ := Option.map_eq_some_iff.1 h
    exact .pointed hd hf hne (lt_limit_of_ofChars? hds hd hf hd')

theorem numberValue?_zero_cons (hc : c.isDigit = true) (cs : List Char) :
    numberValue? ('0' :: c :: cs) = numberValue? (c :: cs) := by
  have hd : ofChars? ('0' :: c :: cs) = ofChars? (c :: cs) := by
    rw [ofChars?_of_isDigit rfl, ofChars?_of_isDigit hc, Numeral.read_zero_cons hc]
  have hn : Nat.ofDigitChars 10 ('0' :: c :: cs) 0 = Nat.ofDigitChars 10 (c :: cs) 0 := rfl
  have hp : ('0' :: c :: cs).count '.' = (c :: cs).count '.' := List.count_cons_of_ne (by decide)
  rw [numberValue?, numberValue?, hp, hn, hd, List.getLast?_cons_cons]

theorem numberValue?_zeros (hc : c.isDigit = true) (cs : List Char) (n : ℕ) :
    numberValue? (List.replicate n '0' ++ c :: cs) = numberValue? (c :: cs) := by
  induction n with
  | zero => rfl
  | succ n ih =>
      rw [← ih, List.replicate_succ, List.cons_append]
      cases n with
      | zero => exact numberValue?_zero_cons hc cs
      | succ n => exact numberValue?_zero_cons rfl _

theorem front_of_isDigit (hc : c.isDigit = true) (cs : List Char) (p : ℕ) : front p c cs =
    match numberValue? (c :: cs.takeWhile isNumberChar) with
    | some v => .ok (⟨.number, String.ofList (c :: cs.takeWhile isNumberChar), p, some v⟩,
        cs.dropWhile isNumberChar)
    | none => .error (.malformedNumber (String.ofList (c :: cs.takeWhile isNumberChar)) p) := by
  rw [front, if_pos hc, number]
  cases numberValue? (c :: cs.takeWhile isNumberChar) <;> rfl

def Leads (p : ℕ) (c : Char) (cs : List Char) (v : Value) : Prop :=
  ∃ t r, front p c cs = .ok (t, r) ∧ t.literal = some v

theorem leads_iff (hc : c.isDigit = true) (p : ℕ) :
    Leads p c cs v ↔ numberValue? (c :: cs.takeWhile isNumberChar) = some v := by
  rw [Leads, front_of_isDigit hc]
  cases numberValue? (c :: cs.takeWhile isNumberChar) with
  | none =>
      refine ⟨?_, nofun⟩
      rintro ⟨t, r, h, _⟩
      cases h
  | some w =>
      constructor
      · rintro ⟨t, r, h, ht⟩
        cases h
        exact ht
      · exact fun h => ⟨⟨.number, _, p, some w⟩, _, rfl, h⟩

theorem leads_zeros_iff (hc : c.isDigit = true) (p n : ℕ) :
    Leads p '0' (List.replicate n '0' ++ c :: cs) v ↔ Leads p c cs v := by
  have hz : ∀ x ∈ List.replicate n '0', isNumberChar x = true := by
    intro x hx
    rw [List.eq_of_mem_replicate hx]
    rfl
  have hr : '0' :: (List.replicate n '0' ++ c :: cs).takeWhile isNumberChar =
      List.replicate (n + 1) '0' ++ c :: cs.takeWhile isNumberChar := by
    rw [List.takeWhile_append_of_pos hz, List.takeWhile_cons_of_pos (isNumberChar_of_isDigit hc)]
    rfl
  rw [leads_iff rfl, leads_iff hc, hr, numberValue?_zeros hc]

/-- A number is read as what it denotes, and refused as a whole if it is out of range or no number.
Zeros in front make no difference. -/
theorem front_number (p : ℕ) {c : Char} (hc : c.isDigit = true) (cs : List Char) :
    let run := c :: cs.takeWhile isNumberChar
    (InRange run → ∃ v, Denotes run v ∧
      front p c cs = .ok (⟨.number, String.ofList run, p, some v⟩, cs.dropWhile isNumberChar)) ∧
    (¬ InRange run → front p c cs = .error (.malformedNumber (String.ofList run) p)) ∧
    ∀ n v, Leads p '0' (List.replicate n '0' ++ c :: cs) v ↔ Leads p c cs v := by
  intro run
  refine ⟨fun h => ?_, fun h => ?_, fun n v => leads_zeros_iff hc p n⟩
  · obtain ⟨v, hv, hd⟩ := exists_numberValue? hc h
    exact ⟨v, hd, by rw [front_of_isDigit hc, hv]⟩
  · have hn : numberValue? run = none := by
      refine Option.eq_none_iff_forall_ne_some.2 fun v hv => h ?_
      exact inRange_of_numberValue? hc (fun x hx => List.mem_takeWhile_imp hx) hv
    rw [front_of_isDigit hc, hn]

theorem largest_mantissa_with_fraction :
    let largest : List Char := "9228162514264337593543950335.4999)".toList
    let beyond : List Char := "9223372036854775808".toList
    let d : Decimal := ⟨false, 2 ^ 96 - 1, 0, by decide, by decide⟩
    (InRange ('7' :: largest.takeWhile isNumberChar) ∧
      Denotes ('7' :: largest.takeWhile isNumberChar) (.decimal d) ∧
      front 4 '7' largest =
        .ok (⟨.number, "79228162514264337593543950335.4999", 4, some (.decimal d)⟩, [')'])) ∧
    (¬ InRange ('0' :: beyond.takeWhile isNumberChar) ∧
      front 4 '0' beyond = .error (.malformedNumber "09223372036854775808" 4)) := by
  intro largest beyond d
  have hr : InRange ('7' :: largest.takeWhile isNumberChar) := by
    have hp : pointed "79228162514264337593543950335".toList "4999".toList < limit := by
      have hn : Nat.ofDigitChars 10 ("79228162514264337593543950335".toList ++ "4999".toList) 0 =
          792281625142643375935439503354999 := by decide +kernel
      rw [pointed, hn, limit, show "4999".toList.length = 4 from rfl]
      norm_num
    exact .pointed (by decide +kernel) (by decide +kernel) (by decide) hp
  have hn : ¬ InRange ('0' :: beyond.takeWhile isNumberChar) := by
    intro h
    obtain ⟨v, hv, _⟩ := exists_numberValue? rfl h
    rw [show numberValue? ('0' :: beyond.takeWhile isNumberChar) = none by decide +kernel] at hv
    cases hv
  have hf : front 4 '7' largest =
      .ok (⟨.number, "79228162514264337593543950335.4999", 4, some (.decimal d)⟩, [')']) := by
    decide +kernel
  obtain ⟨v, hv, hv'⟩ := (front_number 4 rfl largest).1 hr
  obtain ⟨ht, _⟩ := Prod.mk.inj (Except.ok.inj (hf.symm.trans hv'))
  obtain rfl : Value.decimal d = v := Option.some.inj (congrArg Token.literal ht)
  exact ⟨⟨hr, hv, hf⟩, hn, (front_number 4 rfl beyond).2.1 hn⟩

end Token

end Reckoner
