import Reckoner.Proofs.Written

namespace Reckoner

theorem run_inj {f : Char → Bool} {a b r s : List Char} (ha : ∀ x ∈ a, f x = true)
    (hb : ∀ x ∈ b, f x = true) (hr : ∀ x ∈ r.head?, f x = false)
    (hs : ∀ x ∈ s.head?, f x = false) (h : a ++ r = b ++ s) : a = b ∧ r = s := by
  obtain ⟨ht, hd⟩ := Token.takeWhile_run ha r hr
  obtain ⟨ht', hd'⟩ := Token.takeWhile_run hb s hs
  rw [h] at ht hd
  exact ⟨ht.symm.trans ht', hd.symm.trans hd'⟩

theorem BinaryOperator.symbol_inj {op op' : BinaryOperator} (h : op.symbol = op'.symbol) :
    op = op' := by
  have mem_all (op : BinaryOperator) : op ∈ all := by
    rcases op with (_ | _ | _ | _) | (_ | _) <;> decide
  have hall : ∀ op ∈ all, ∀ op' ∈ all, op.symbol = op'.symbol → op = op' := by decide
  exact hall op (mem_all op) op' (mem_all op') h

namespace Decimal

theorem text_ofInteger (n : Integer) : (ofInteger n).text = n.text := by
  simp [text, chars, ofInteger, Integer.text, tenPow_zero]

theorem text_inj {d d' : Decimal} (hd : d.negative = false) (hd' : d'.negative = false)
    (h : d.text = d'.text) : d = d' := by
  have ht := ofText?_text d
  rw [h, ofText?_text, restored_of_not_negative hd, restored_of_not_negative hd'] at ht
  exact (Option.some.inj ht).symm

theorem exists_of_text {d : Decimal} (hd : d.negative = false) : ∃ c cs,
    d.text.toList = c :: cs ∧ c.isDigit = true ∧ ∀ x ∈ cs, Token.isNumberChar x = true := by
  obtain ⟨c, cs, hw, hc⟩ := exists_of_toDigits (d.mantissa / tenPow d.scale)
  refine ⟨c, cs ++ if d.scale = 0 then [] else '.' :: lastDigits d.scale d.mantissa, ?_, hc, ?_⟩
  · simp [text, chars, hd, hw]
  · have hdigit {x : Char} (hx : x.isDigit = true) : Token.isNumberChar x = true :=
      Token.isNumberChar_of_isDigit hx
    intro x hx
    rcases List.mem_append.1 hx with hx | hx
    · have hm := List.mem_cons_of_mem c hx
      rw [← hw] at hm
      exact hdigit (Nat.isDigit_of_mem_toDigits (by decide) (by decide) hm)
    · split at hx
      · cases hx
      · rcases List.mem_cons.1 hx with rfl | hx
        · rfl
        · exact hdigit (isDigit_of_mem_lastDigits hx)

end Decimal

namespace Value

theorem exists_of_isNumeric {v : Value} (hv : v.Written) (hn : v.isNumeric = true) :
    ∃ d : Decimal, d.negative = false ∧ d.text = v.text ∧
      (v = .decimal d ∨ ∃ n : Integer, v = .integer n ∧ d = .ofInteger n) := by
  cases v with
  | integer n =>
      exact ⟨.ofInteger n, decide_eq_false (Int.not_lt.2 hv), Decimal.text_ofInteger n,
        .inr ⟨n, rfl, rfl⟩⟩
  | decimal d => exact ⟨d, hv.1, rfl, .inl rfl⟩
  | string | boolean => cases hn

theorem not_written_ofInteger (n : Integer) : ¬ (decimal (.ofInteger n)).Written := by
  intro h
  have hs : ¬ n.val < 0 := of_decide_eq_false h.1
  have hm : 0x80000000_00000000 ≤ n.val.natAbs := h.2 rfl
  have hf := n.fits
  omega

/-- A decimal without a fraction looks like an integer, but it is too large for one. -/
theorem text_inj_of_isNumeric {v w : Value} (hv : v.Written) (hw : w.Written)
    (hn : v.isNumeric = true) (hm : w.isNumeric = true) (h : v.text = w.text) : v = w := by
  obtain ⟨d, hd, ht, hdv⟩ := exists_of_isNumeric hv hn
  obtain ⟨d', hd', ht', hdw⟩ := exists_of_isNumeric hw hm
  obtain rfl := Decimal.text_inj hd hd' (ht.trans (h.trans ht'.symm))
  rcases hdv with rfl | ⟨n, rfl, rfl⟩
  · rcases hdw with rfl | ⟨n, rfl, rfl⟩
    · rfl
    · exact absurd hv (not_written_ofInteger n)
  · rcases hdw with rfl | ⟨m, rfl, he⟩
    · exact absurd hw (not_written_ofInteger n)
    · have ha : n.val.natAbs = m.val.natAbs := congrArg Decimal.mantissa he
      have hv : 0 ≤ n.val := hv
      have hw : 0 ≤ m.val := hw
      rw [Signed.ext (show n.val = m.val by omega)]

end Value

namespace Expr

def ofWord (cs : List Char) : Expr :=
  if String.ofList cs = "true" then literal (.boolean true)
  else if String.ofList cs = "false" then literal (.boolean false)
  else var (String.ofList cs)

/-- The leaves of trees that stand in texts, by their sort and with their characters. -/
inductive Leaf : TokenKind → Expr → List Char → Prop
  | number {v : Value} {c : Char} {cs : List Char} (hv : v.Written) (hn : v.isNumeric = true)
      (ht : v.text = String.ofList (c :: cs)) (hd : c.isDigit = true)
      (hc : ∀ x ∈ cs, Token.isNumberChar x = true) : Leaf .number (literal v) (c :: cs)
  | string {content : List Char} (hq : '"' ∉ content) :
      Leaf .string (literal (.string (String.ofList content))) ('"' :: (content ++ ['"']))
  | word {c : Char} {cs : List Char} (hs : Token.startsWord c = true)
      (hc : ∀ x ∈ cs, Token.continuesWord x = true) :
      Leaf .identifier (ofWord (c :: cs)) (c :: cs)

theorem exists_leaf_literal {v : Value} (h : v.Written) :
    ∃ k, Leaf k (literal v) (literal v).prefixForm.toList := by
  have number {v : Value} (hv : v.Written) (hn : v.isNumeric = true) :
      Leaf .number (literal v) v.text.toList := by
    obtain ⟨d, hd, ht, _⟩ := Value.exists_of_isNumeric hv hn
    obtain ⟨c, cs, he, hc, hcs⟩ := Decimal.exists_of_text hd
    rw [ht] at he
    rw [he]
    exact .number hv hn (by rw [← he, String.ofList_toList]) hc hcs
  cases v with
  | integer n => exact ⟨_, number h rfl⟩
  | decimal d => exact ⟨_, number h rfl⟩
  | string s =>
      have hs := Leaf.string h
      rw [String.ofList_toList] at hs
      exact ⟨_, by simpa [prefixForm] using hs⟩
  | boolean b =>
      have word {c : Char} {cs : List Char} (hs : Token.startsWord c = true)
          (hc : cs.all Token.continuesWord = true) :
          Leaf .identifier (ofWord (c :: cs)) (c :: cs) :=
        .word hs (List.all_eq_true.1 hc)
      cases b with
      | true => exact ⟨_, @word 't' ['r', 'u', 'e'] (by decide +kernel) (by decide +kernel)⟩
      | false => exact ⟨_, @word 'f' ['a', 'l', 's', 'e'] (by decide +kernel) (by decide +kernel)⟩

theorem leaf_var {name : String} (h : Token.IsName name) :
    Leaf .identifier (var name) name.toList := by
  obtain ⟨c, cs, rfl, hs, hc⟩ := Token.exists_of_isIdentifier h.1
  have hw := Leaf.word hs hc
  rw [ofWord, if_neg h.2.1, if_neg h.2.2] at hw
  rwa [String.toList_ofList]

namespace Leaf

variable {k k' : TokenKind} {e e' : Expr}

theorem kind_eq {c : Char} {cs : List Char} (h : Leaf k e (c :: cs)) :
    c ≠ '(' ∧ k = if c.isDigit then .number else if c = '"' then .string else .identifier := by
  generalize ha : c :: cs = a at h
  cases h with
  | number hv hn ht hd hc =>
      obtain rfl := (List.cons.inj ha).1
      refine ⟨?_, (if_pos hd).symm⟩
      rintro rfl
      cases hd
  | string hq =>
      obtain rfl := (List.cons.inj ha).1
      decide
  | word hs hc =>
      obtain rfl := (List.cons.inj ha).1
      have hd : c.isDigit = false :=
        Bool.eq_false_iff.2 fun hd => by simp [Token.startsWord_of_isDigit hd] at hs
      have hq : c ≠ '"' := by rintro rfl; revert hs; decide +kernel
      refine ⟨?_, by simp [hd, hq]⟩
      rintro rfl
      revert hs
      decide +kernel

theorem exists_cons {a : List Char} (h : Leaf k e a) : ∃ c cs, a = c :: cs := by
  cases h <;> exact ⟨_, _, rfl⟩

end Leaf

def Closes (r : List Char) : Prop := ∀ c ∈ r.head?, c = ' ' ∨ c = ')'

theorem Closes.continues {r : List Char} (h : Closes r) (k : TokenKind) :
    ∀ x ∈ r.head?, k.continues x = false := by
  intro x hx
  cases k with
  | number | identifier | boolean => rcases h x hx with rfl | rfl <;> decide +kernel
  | string | operator | leftParen | rightParen | assign | endOfInput => rfl

/-- A leaf goes on for as long as its sort can. -/
theorem Leaf.inj {k k' : TokenKind} {e e' : Expr} {a b r s : List Char} (h : Leaf k e a)
    (h' : Leaf k' e' b) (hr : Closes r) (hs : Closes s) (he : a ++ r = b ++ s) :
    e = e' ∧ r = s := by
  have hk : k = k' := by
    obtain ⟨c, cs, rfl⟩ := h.exists_cons
    obtain ⟨c', cs', rfl⟩ := h'.exists_cons
    obtain rfl := (List.cons.inj he).1
    exact h.kind_eq.2.trans h'.kind_eq.2.symm
  subst hk
  cases h with
  | @number v c cs hv hn ht hd hc =>
      cases h' with
      | @number w c' cs' hw hm hu hd' hc' =>
          have ha : ∀ x ∈ c :: cs, Token.isNumberChar x = true :=
            List.forall_mem_cons.2 ⟨Token.isNumberChar_of_isDigit hd, hc⟩
          have hb : ∀ x ∈ c' :: cs', Token.isNumberChar x = true :=
            List.forall_mem_cons.2 ⟨Token.isNumberChar_of_isDigit hd', hc'⟩
          obtain ⟨hab, hrs⟩ := run_inj ha hb (hr.continues .number) (hs.continues .number) he
          rw [hab, ← hu] at ht
          exact ⟨congrArg literal (Value.text_inj_of_isNumeric hv hw hn hm ht), hrs⟩
  | @string content hq =>
      cases h' with
      | @string content' hq' =>
          have hn {cs : List Char} (hq : '"' ∉ cs) : ∀ x ∈ cs, (x != '"') = true := by
            intro x hx
            simpa using fun he : x = '"' => hq (he ▸ hx)
          have ht : content ++ ('"' :: r) = content' ++ ('"' :: s) := by simpa using he
          obtain ⟨rfl, hrs⟩ := run_inj (hn hq) (hn hq') (by simp) (by simp) ht
          exact ⟨rfl, (List.cons.inj hrs).2⟩
  | @word c cs hw hc =>
      cases h' with
      | @word c' cs' hw' hc' =>
          have ha : ∀ x ∈ c :: cs, Token.continuesWord x = true :=
            List.forall_mem_cons.2 ⟨Token.continuesWord_of_startsWord hw, hc⟩
          have hb : ∀ x ∈ c' :: cs', Token.continuesWord x = true :=
            List.forall_mem_cons.2 ⟨Token.continuesWord_of_startsWord hw', hc'⟩
          obtain ⟨hab, hrs⟩ :=
            run_inj ha hb (hr.continues .identifier) (hs.continues .identifier) he
          exact ⟨by rw [hab], hrs⟩

/-- The word that a form in parentheses starts with. Leaves have none. -/
def head? : Expr → Option String
  | literal _ | var _ => none
  | grouping _ => some "group"
  | binary op _ _ => some op.symbol
  | unary op _ => some op.symbol

def operands : Expr → List Expr
  | literal _ | var _ => []
  | grouping inner => [inner]
  | binary _ left right => [left, right]
  | unary _ operand => [operand]

def tail (es : List Expr) (r : List Char) : List Char :=
  es.foldr (fun e cs => ' ' :: (e.prefixForm.toList ++ cs)) (')' :: r)

theorem closes_tail (es : List Expr) (r : List Char) : Closes (tail es r) := by
  cases es with
  | nil =>
      rintro _ ⟨⟩
      exact .inr rfl
  | cons e es =>
      rintro _ ⟨⟩
      exact .inl rfl

theorem toList_prefixForm {e : Expr} {head : String} (h : e.head? = some head) (r : List Char) :
    e.prefixForm.toList ++ r = '(' :: (head.toList ++ tail e.operands r) := by
  cases e with
  | literal | var => cases h
  | grouping | binary | unary =>
      cases h
      simp [prefixForm, tail, operands]

theorem written_of_mem_operands {e x : Expr} (h : e.Written) (hx : x ∈ e.operands) :
    x.Written := by
  cases e with
  | literal | var => cases hx
  | grouping inner => exact List.mem_singleton.1 hx ▸ h
  | unary op operand => exact List.mem_singleton.1 hx ▸ h
  | binary op left right =>
      rcases List.mem_pair.1 hx with rfl | rfl
      · exact h.1
      · exact h.2

theorem exists_leaf {e : Expr} (h : e.Written) (hn : e.head? = none) :
    ∃ k, Leaf k e e.prefixForm.toList := by
  cases e with
  | literal v => exact exists_leaf_literal h
  | var name => exact ⟨_, leaf_var h⟩
  | grouping | binary | unary => cases hn

def inHead (c : Char) : Bool := c != ' ' && c != ')'

theorem head_spec {e : Expr} {head : String} (h : e.head? = some head) :
    head ≠ "=" ∧ head.toList.all inHead = true := by
  cases e with
  | literal | var => cases h
  | grouping inner => cases h; decide
  | binary op left right => cases h; rcases op with (_ | _ | _ | _) | (_ | _) <;> decide
  | unary op operand => cases h; cases op; decide

theorem head_inj {a b : String} (ha : a.toList.all inHead = true)
    (hb : b.toList.all inHead = true) {r s : List Char} (hr : Closes r) (hs : Closes s)
    (h : a.toList ++ r = b.toList ++ s) : a = b ∧ r = s := by
  have hc {r : List Char} (hr : Closes r) : ∀ c ∈ r.head?, inHead c = false := by
    intro c hc
    rcases hr c hc with rfl | rfl <;> rfl
  obtain ⟨he, ht⟩ :=
    run_inj (List.all_eq_true.1 ha) (List.all_eq_true.1 hb) (hc hr) (hc hs) h
  exact ⟨String.toList_inj.1 he, ht⟩

theorem eq_of_operands {e e' : Expr} {head : String} (h : e.head? = some head)
    (h' : e'.head? = some head) (ho : e.operands = e'.operands) : e = e' := by
  have group_ne (op : UnaryOperator) : "group" ≠ op.symbol := by cases op; decide
  rw [← h'] at h
  cases e with
  | literal | var => cases h'.symm.trans h.symm
  | grouping inner =>
      cases e' with
      | grouping inner' => rw [(List.cons.inj ho).1]
      | unary op operand => exact absurd (Option.some.inj h) (group_ne op)
      | literal | var => cases h
      | binary => cases ho
  | unary op operand =>
      cases e' with
      | unary op' operand' => cases op; cases op'; rw [(List.cons.inj ho).1]
      | grouping inner => exact absurd (Option.some.inj h).symm (group_ne op)
      | literal | var => cases h
      | binary => cases ho
  | binary op left right =>
      cases e' with
      | binary op' left' right' =>
          cases ho
          rw [BinaryOperator.symbol_inj (Option.some.inj h)]
      | literal | var | grouping | unary => cases ho

/-- The tree and the text behind it are told from the text alone. -/
def Readable (e : Expr) : Prop := ∀ ⦃e' : Expr⦄ ⦃r s : List Char⦄, e'.Written → Closes r →
  Closes s → e.prefixForm.toList ++ r = e'.prefixForm.toList ++ s → e = e' ∧ r = s

theorem tail_inj {es es' : List Expr} (h : ∀ e ∈ es, e.Readable) (h' : ∀ e ∈ es', e.Written)
    {r s : List Char} (ht : tail es r = tail es' s) : es = es' ∧ r = s := by
  induction es generalizing es' with
  | nil =>
      cases es' with
      | nil => exact ⟨rfl, (List.cons.inj ht).2⟩
      | cons e' es' => cases ht
  | cons e es ih =>
      cases es' with
      | nil => cases ht
      | cons e' es' =>
          obtain ⟨he, hes⟩ := List.forall_mem_cons.1 h
          obtain ⟨he', hes'⟩ := List.forall_mem_cons.1 h'
          obtain ⟨rfl, hrest⟩ :=
            he he' (closes_tail es r) (closes_tail es' s) (List.cons.inj ht).2
          obtain ⟨rfl, hrs⟩ := ih hes hes' hrest
          exact ⟨rfl, hrs⟩

theorem readable_of_operands {e : Expr} (hw : e.Written) (h : ∀ x ∈ e.operands, x.Readable) :
    e.Readable := by
  intro e' r s hw' hr hs ht
  -- A leaf never starts as a form in parentheses does.
  have apart {e e' : Expr} {head : String} (hw : e.Written) (hn : e.head? = none)
      (hh : e'.head? = some head) {r s : List Char} :
      e.prefixForm.toList ++ r ≠ e'.prefixForm.toList ++ s := by
    intro ht
    obtain ⟨k, hl⟩ := exists_leaf hw hn
    obtain ⟨c, cs, hc⟩ := hl.exists_cons
    rw [toList_prefixForm hh, hc] at ht
    rw [hc] at hl
    exact hl.kind_eq.1 (List.cons.inj ht).1
  cases hh : e.head? with
  | none =>
      cases hh' : e'.head? with
      | none =>
          obtain ⟨k, hl⟩ := exists_leaf hw hh
          obtain ⟨k', hl'⟩ := exists_leaf hw' hh'
          exact hl.inj hl' hr hs ht
      | some head => exact absurd ht (apart hw hh hh')
  | some head =>
      cases hh' : e'.head? with
      | none => exact absurd ht.symm (apart hw' hh' hh)
      | some head' =>
          rw [toList_prefixForm hh, toList_prefixForm hh'] at ht
          obtain ⟨rfl, htail⟩ := head_inj (head_spec hh).2 (head_spec hh').2
            (closes_tail _ r) (closes_tail _ s) (List.cons.inj ht).2
          obtain ⟨ho, hrs⟩ := tail_inj h (fun x hx => written_of_mem_operands hw' hx) htail
          exact ⟨eq_of_operands hh hh' ho, hrs⟩

theorem readable_of_written {e : Expr} (h : e.Written) : e.Readable := by
  induction e with
  | literal | var => exact readable_of_operands h (by simp [operands])
  | grouping inner ih => exact readable_of_operands h (by simpa [operands] using ih h)
  | unary op operand ih => exact readable_of_operands h (by simpa [operands] using ih h)
  | binary op left right ihl ihr =>
      exact readable_of_operands h (by simpa [operands] using ⟨ihl h.1, ihr h.2⟩)

end Expr

namespace Statement

theorem toList_assignment (name : String) (e : Expr) :
    (assignment name e).prefixForm.toList = '(' :: ("=".toList ++ Expr.tail [.var name, e] []) := by
  simp [prefixForm, Expr.prefixForm, Expr.tail]

theorem prefixForm_expression_ne {e e' : Expr} {name : String} (h : e.Written) :
    (expression e).prefixForm ≠ (assignment name e').prefixForm := by
  intro he
  have ht := congrArg String.toList he
  rw [toList_assignment, prefixForm] at ht
  cases hh : e.head? with
  | none =>
      obtain ⟨k, hl⟩ := Expr.exists_leaf h hh
      rw [ht] at hl
      exact hl.kind_eq.1 rfl
  | some head =>
      rw [← List.append_nil e.prefixForm.toList, Expr.toList_prefixForm hh] at ht
      obtain ⟨hne, hhead⟩ := Expr.head_spec hh
      exact hne (Expr.head_inj hhead (by decide) (Expr.closes_tail _ _) (Expr.closes_tail _ _)
        (List.cons.inj ht).2).1

/-- What two texts say is the same if it looks the same in prefix form. -/
theorem prefixForm_inj {limits limits' : Limits} {text text' : String} {r r' : Statement}
    (h : ofText limits text = .ok r) (h' : ofText limits' text' = .ok r')
    (he : r.prefixForm = r'.prefixForm) : r = r' := by
  have hw : r.Written := written_of_ofText h
  have hw' : r'.Written := written_of_ofText h'
  have closes_nil : Expr.Closes [] := nofun
  cases r with
  | expression e =>
      cases r' with
      | expression e' =>
          have ht : e.prefixForm.toList ++ [] = e'.prefixForm.toList ++ [] := by
            rw [show e.prefixForm = e'.prefixForm from he]
          rw [(Expr.readable_of_written hw hw' closes_nil closes_nil ht).1]
      | assignment name' e' => exact absurd he (prefixForm_expression_ne hw)
  | assignment name e =>
      cases r' with
      | expression e' => exact absurd he.symm (prefixForm_expression_ne hw')
      | assignment name' e' =>
          have ht := congrArg String.toList he
          rw [toList_assignment, toList_assignment] at ht
          have hread : ∀ x ∈ [.var name, e], x.Readable := by
            simpa using ⟨Expr.readable_of_written (e := .var name) hw.1,
              Expr.readable_of_written hw.2⟩
          have hwritten : ∀ x ∈ [.var name', e'], x.Written := by
            simpa using (⟨hw'.1, hw'.2⟩ : (Expr.var name').Written ∧ e'.Written)
          obtain ⟨ho, _⟩ := Expr.tail_inj hread hwritten
            (List.append_cancel_left (List.cons.inj ht).2)
          cases ho
          rfl

theorem spellings_of_negated_difference : ∃ r r',
    ofText ⟨256, 4096⟩ "group = -(group - 1.50)" = .ok r ∧
    ofText ⟨2, 1⟩ "group=-( group-1.50 )" = .ok r' ∧
    r.prefixForm = "(= group (- (group (- group 1.50))))" ∧ r.prefixForm = r'.prefixForm ∧
    r = r' := by
  let d : Decimal := ⟨false, 150, 2, by decide, by decide⟩
  let r : Statement := .assignment "group" (.unary .negate (.grouping
    (.binary (.arithmetic .subtract) (.var "group") (.literal (.decimal d)))))
  have h : ofText ⟨256, 4096⟩ "group = -(group - 1.50)" = .ok r := by decide +kernel
  have h' : ofText ⟨2, 1⟩ "group=-( group-1.50 )" = .ok r := by decide +kernel
  exact ⟨r, r, h, h', by decide +kernel, rfl, prefixForm_inj h h' rfl⟩

/-- Trees that no text stands for can look the same. -/
example : (Expr.var "1").prefixForm =
    (Expr.literal (.integer ⟨1, by decide⟩)).prefixForm := by
  decide +kernel

end Statement

end Reckoner
