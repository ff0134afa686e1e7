import Reckoner.Proofs.StaticKind

namespace Reckoner

def Arithmetic.ideal? (op : Arithmetic) (a b : Int) : Option Int :=
  match op with
  | add => some (a + b)
  | subtract => some (a - b)
  | multiply => some (a * b)
  | divide => if b = 0 then none else some (a.tdiv b)

theorem Arithmetic.ideal?_eq_none_iff {op : Arithmetic} {a b : Int} :
    op.ideal? a b = none ↔ op = divide ∧ b = 0 := by
  cases op <;> simp [ideal?]

theorem Arithmetic.onIntegers_eq (op : Arithmetic) (a b : Integer) :
    op.onIntegers a b = match op.ideal? a.val b.val with
      | some n => orOverflow (.binary (.arithmetic op)) (Integer.ofInt? n)
      | none => .error .divisionByZero := by
  cases op with
  | add | subtract | multiply => rfl
  | divide =>
      by_cases hb : b.val = 0
      · simp [onIntegers, ideal?, hb]
      · simp [onIntegers, ideal?, hb, Integer.div?]

namespace Expr

/-- Trees of integers, parentheses, minus signs and arithmetic. -/
inductive Integral : Expr → Prop
  | literal (n : Integer) : Integral (.literal (.integer n))
  | grouping {inner : Expr} (h : Integral inner) : Integral (.grouping inner)
  | negate {operand : Expr} (h : Integral operand) : Integral (.unary .negate operand)
  | arithmetic (op : Arithmetic) {left right : Expr} (hl : Integral left) (hr : Integral right) :
      Integral (.binary (.arithmetic op) left right)

def ideal? : Expr → Option Int
  | literal (.integer n) => some n.val
  | grouping inner => inner.ideal?
  | unary .negate operand => operand.ideal?.map fun n => -n
  | binary (.arithmetic op) left right => do op.ideal? (← left.ideal?) (← right.ideal?)
  | _ => none

/-- A tree and all that it is made of, the operands of a form before the form and from the left to
the right. -/
def subtrees : Expr → List Expr
  | literal v => [literal v]
  | var name => [var name]
  | grouping inner => inner.subtrees ++ [grouping inner]
  | unary op operand => operand.subtrees ++ [unary op operand]
  | binary op left right => left.subtrees ++ right.subtrees ++ [binary op left right]

def operator? : Expr → Option Operator
  | unary op _ => some (.unary op)
  | binary op _ _ => some (.binary op)
  | literal _ | var _ | grouping _ => none

def Sound (e : Expr) : Prop := ∃ n, e.ideal? = some n ∧ Integer.Fits n

instance (e : Expr) : Decidable e.Sound :=
  match h : e.ideal? with
  | some n => decidable_of_iff (Integer.Fits n) (by simp [Sound, h])
  | none => .isFalse (by simp [Sound, h])

inductive Fails : Expr → EvalError → Prop
  | division {left right : Expr} (h : right.ideal? = some 0) :
      Fails (.binary (.arithmetic .divide) left right) .divisionByZero
  | overflow {e : Expr} {op : Operator} {n : Int} (ho : e.operator? = some op)
      (h : e.ideal? = some n) (hn : ¬ Integer.Fits n) : Fails e (.overflow op)

inductive FirstFailure (err : EvalError) : List Expr → Prop
  | here {e : Expr} {es : List Expr} (h : e.Fails err) : FirstFailure err (e :: es)
  | later {e : Expr} {es : List Expr} (he : e.Sound) (h : FirstFailure err es) :
      FirstFailure err (e :: es)

theorem ideal?_of_zero_divisor {left right : Expr} (h : right.ideal? = some 0) :
    (binary (.arithmetic .divide) left right).ideal? = none := by
  rw [ideal?, h]
  cases left.ideal? <;> rfl

theorem not_sound_of_fails {e : Expr} {err : EvalError} (h : e.Fails err) : ¬ e.Sound := by
  rintro ⟨n, hn, hf⟩
  cases h with
  | division h => cases (ideal?_of_zero_divisor h).symm.trans hn
  | overflow ho h hn' =>
      obtain rfl := Option.some.inj (h.symm.trans hn)
      exact hn' hf

theorem fails_unique {e : Expr} {err err' : EvalError} (h : e.Fails err) (h' : e.Fails err') :
    err = err' := by
  cases h with
  | division h =>
      cases h' with
      | division => rfl
      | overflow _ hn _ => cases (ideal?_of_zero_divisor h).symm.trans hn
  | overflow ho hn _ =>
      cases h' with
      | division h => cases (ideal?_of_zero_divisor h).symm.trans hn
      | overflow ho' _ _ => rw [Option.some.inj (ho.symm.trans ho')]

namespace FirstFailure

variable {err err' : EvalError} {es es' : List Expr}

theorem exists_of_mem (h : FirstFailure err es) : ∃ e ∈ es, ¬ e.Sound := by
  induction h with
  | here h => exact ⟨_, List.mem_cons_self, not_sound_of_fails h⟩
  | later _ _ ih =>
      obtain ⟨e, he, hs⟩ := ih
      exact ⟨e, List.mem_cons_of_mem _ he, hs⟩

theorem unique (h : FirstFailure err es) (h' : FirstFailure err' es) : err = err' := by
  induction h with
  | here h =>
      cases h' with
      | here h' => exact fails_unique h h'
      | later he _ => exact absurd he (not_sound_of_fails h)
  | later he _ ih =>
      cases h' with
      | here h' => exact absurd he (not_sound_of_fails h')
      | later _ h' => exact ih h'

theorem append_right (h : FirstFailure err es) (es' : List Expr) :
    FirstFailure err (es ++ es') := by
  induction h with
  | here h => exact .here h
  | later he _ ih => exact .later he ih

theorem append_left (hs : ∀ e ∈ es, e.Sound) (h : FirstFailure err es') :
    FirstFailure err (es ++ es') := by
  induction es with
  | nil => exact h
  | cons e es ih =>
      obtain ⟨he, hs⟩ := List.forall_mem_cons.1 hs
      exact .later he (ih hs)

end FirstFailure

/-- The exact value if all is sound, and otherwise the first failure. -/
inductive Outcome (e : Expr) : Except EvalError Value → Prop
  | value {n : Integer} (hn : e.ideal? = some n.val) (hs : ∀ s ∈ e.subtrees, s.Sound) :
      Outcome e (.ok (.integer n))
  | failure {err : EvalError} (h : FirstFailure err e.subtrees) : Outcome e (.error err)

theorem outcome_operation {e : Expr} {operands : List Expr} {op : Operator} {n : Int}
    (he : e.subtrees = operands ++ [e]) (hs : ∀ s ∈ operands, s.Sound)
    (ho : e.operator? = some op) (hn : e.ideal? = some n) :
    Outcome e (.integer <$> orOverflow op (Integer.ofInt? n)) := by
  cases hi : Integer.ofInt? n with
  | some i =>
      obtain rfl : i.val = n := Signed.ofInt?_eq_some_iff.1 hi
      refine .value hn ?_
      rw [he]
      exact List.forall_mem_append.2 ⟨hs, List.forall_mem_singleton.2 ⟨i.val, hn, i.fits⟩⟩
  | none =>
      refine .failure ?_
      rw [he]
      exact .append_left hs (.here (.overflow ho hn (Signed.ofInt?_eq_none_iff.1 hi)))

theorem outcome_negate {operand : Expr} {x : Except EvalError Value} (h : Outcome operand x) :
    Outcome (.unary .negate operand) (x >>= UnaryOperator.negate.apply) := by
  cases h with
  | @value n hn hs =>
      exact outcome_operation rfl hs rfl (by rw [ideal?, hn]; rfl)
  | failure h => exact .failure (h.append_right _)

theorem outcome_arithmetic (op : Arithmetic) {left right : Expr} {x y : Except EvalError Value}
    (hl : Outcome left x) (hr : Outcome right y) :
    Outcome (.binary (.arithmetic op) left right)
      (x >>= fun v => y >>= BinaryOperator.apply (.arithmetic op) v) := by
  cases hl with
  | failure h => exact .failure ((h.append_right _).append_right _)
  | @value a ha hs =>
      cases hr with
      | failure h => exact .failure ((h.append_left hs).append_right _)
      | @value b hb hs' =>
          have hv : (binary (.arithmetic op) left right).ideal? = op.ideal? a.val b.val := by
            rw [ideal?, ha, hb]
            rfl
          have hops := List.forall_mem_append.2 ⟨hs, hs'⟩
          change Outcome _ (Value.integer <$> op.onIntegers a b)
          rw [op.onIntegers_eq]
          cases hn : op.ideal? a.val b.val with
          | some n => exact outcome_operation rfl hops rfl (hv.trans hn)
          | none =>
              obtain ⟨rfl, hz⟩ := Arithmetic.ideal?_eq_none_iff.1 hn
              exact .failure (.append_left hops (.here (.division (hz ▸ hb))))

theorem outcome_unlimited (p : Policy) (env : Environment) {e : Expr} (he : e.Integral) :
    Outcome e (p.unlimited env e) := by
  induction he with
  | literal n => exact .value rfl (List.forall_mem_singleton.2 ⟨n.val, rfl, n.fits⟩)
  | @grouping inner _ ih =>
      rw [Policy.unlimited]
      generalize p.unlimited env inner = x at ih
      cases ih with
      | @value n hn hs =>
          exact .value hn
            (List.forall_mem_append.2 ⟨hs, List.forall_mem_singleton.2 ⟨n.val, hn, n.fits⟩⟩)
      | failure h => exact .failure (h.append_right _)
  | negate _ ih => exact outcome_negate ih
  | arithmetic op _ _ ihl ihr =>
      have hs (v : Value) : p.settles (.arithmetic op) v = false := Bool.and_false _
      simp only [Policy.unlimited, Policy.link_of_not_settles (hs _)]
      exact outcome_arithmetic op ihl ihr

end Expr

/-- Integers are computed with as whole numbers are, or else the first operation that has no result
among integers is reported. -/
theorem Policy.evaluate_integral {e : Expr} (he : e.Integral) {p : Policy}
    (hd : e.depth ≤ p.maxDepth) (env : Environment) :
    (∀ v, p.evaluate env e = .ok v ↔
      (∀ s ∈ e.subtrees, s.Sound) ∧
        ∃ n : Integer, v = .integer n ∧ e.ideal? = some n.val) ∧
    (∀ err, p.evaluate env e = .error err ↔ Expr.FirstFailure err e.subtrees) := by
  have ho := Expr.outcome_unlimited p env he
  rw [p.evaluate_eq_unlimited env hd]
  generalize p.unlimited env e = x at ho
  cases ho with
  | @value n hn hs =>
      refine ⟨fun v => ⟨?_, ?_⟩, fun err => ⟨nofun, fun h => ?_⟩⟩
      · intro h
        cases h
        exact ⟨hs, n, rfl, hn⟩
      · rintro ⟨_, i, rfl, hi⟩
        rw [Signed.ext (Option.some.inj (hn.symm.trans hi))]
      · obtain ⟨s, hm, hns⟩ := h.exists_of_mem
        exact absurd (hs s hm) hns
  | @failure err h =>
      refine ⟨fun v => ⟨nofun, fun hs => ?_⟩, fun err' => ⟨?_, fun h' => ?_⟩⟩
      · obtain ⟨s, hm, hns⟩ := h.exists_of_mem
        exact absurd (hs.1 s hm) hns
      · intro he
        cases he
        exact h
      · rw [h.unique h']

theorem Policy.quotient_and_first_failure :
    let env : Environment := fun _ => none
    let literal (n : Int) (h : Integer.Fits n) : Expr := .literal (.integer ⟨n, h⟩)
    let quotient : Expr := .binary (.arithmetic .divide)
      (.grouping (.unary .negate (literal 7 (by decide)))) (literal 2 (by decide))
    let difference : Expr := .binary (.arithmetic .subtract)
      (.binary (.arithmetic .multiply) (literal 0x7fffffff_ffffffff (by decide))
        (literal 2 (by decide)))
      (.binary (.arithmetic .divide) (literal 1 (by decide)) (literal 0 (by decide)))
    (quotient.Integral ∧ quotient.depth ≤ 4 ∧
      evaluate ⟨true, 4⟩ env quotient = .ok (.integer ⟨-3, by decide⟩)) ∧
    difference.Integral ∧ difference.depth ≤ 3 ∧
      evaluate ⟨false, 3⟩ env difference =
        .error (.overflow (.binary (.arithmetic .multiply))) := by
  intro env literal quotient difference
  have hq : quotient.Integral := .arithmetic _ (.grouping (.negate (.literal _))) (.literal _)
  have hd : difference.Integral :=
    .arithmetic _ (.arithmetic _ (.literal _) (.literal _))
      (.arithmetic _ (.literal _) (.literal _))
  have hf : Expr.FirstFailure (.overflow (.binary (.arithmetic .multiply))) difference.subtrees :=
    .later (by decide) (.later (by decide) (.here (.overflow rfl rfl (by decide))))
  refine ⟨⟨hq, by decide, ?_⟩, hd, by decide, ?_⟩
  · exact ((evaluate_integral hq (by decide) env).1 _).2 ⟨by decide, _, rfl, rfl⟩
  · exact ((evaluate_integral hd (by decide) env).2 _).2 hf

end Reckoner
