import Reckoner.Expr.Parse

namespace Reckoner

/-- The index of the next token, and how many minus signs and parentheses have been entered and not
left. Nothing keeps this number from going below zero. -/
structure Cursor where
  index : Nat
  nesting : Int

namespace Cursor

def next (c : Cursor) : Cursor := { c with index := c.index + 1 }

def deeper (c : Cursor) : Cursor := { c with nesting := c.nesting + 1 }

def shallower (c : Cursor) : Cursor := { c with nesting := c.nesting - 1 }

end Cursor

structure Trail where
  here : Cursor
  past : List Cursor

namespace Trail

def start : Trail := ⟨⟨0, 0⟩, []⟩

def cursors (s : Trail) : List Cursor := s.here :: s.past

def move (f : Cursor → Cursor) (s : Trail) : Trail := ⟨f s.here, s.cursors⟩

end Trail

/-- Reading that keeps its trail, in an error too. A look past the last token has no result. -/
abbrev Descent := ExceptT ParseError (StateT Trail Option)

namespace Descent

variable {α β : Type}

def run (m : Descent α) (s : Trail) : Option (Except ParseError α × Trail) := StateT.run m s

def move (f : Cursor → Cursor) : Descent Unit := modify (Trail.move f)

/-- The token so many places on, or the last one where there are not so many. -/
def look (ts : List Token) (places : Nat) : Descent Token := fun s =>
  ts[min (s.here.index + places) (ts.length - 1)]?.map fun t => (.ok t, s)

def advance (ts : List Token) : Descent Token := do
  let t ← look ts 0
  if !t.isEnding then move .next
  return t

def accept (ts : List Token) (wanted : BinaryOperator → Bool) :
    Descent (Option (BinaryOperator × Nat)) := do
  match (← look ts 0).kind with
  | .operator op => if wanted op then return some (op, (← advance ts).position) else return none
  | _ => return none

def enter (limits : Limits) (position : Nat) : Descent Unit := do
  move .deeper
  if limits.maxDepth < (← get).here.nesting then
    throw (.nestingTooDeep limits.maxDepth position)

def leave : Descent Unit := move .shallower

mutual

/-- An operand of this rank at least: up to 4 a chain of operations of the rank, at 5 what may have
minus signs in front of it, and above that what has no operator of its own. So many calls may be
open inside of one another, and there is no result where that is not enough. -/
def operand (limits : Limits) (ts : List Token) : Nat → Nat → Descent Expr
  | 0, _ => fun _ => none
  | calls + 1, rank => do
      if rank ≤ 4 then
        chain limits ts calls rank 0 (← operand limits ts calls (rank + 1))
      else if rank = 5 then
        match ← accept ts (· == .arithmetic .subtract) with
        | some (_, position) =>
            enter limits position
            let e ← operand limits ts calls 5
            leave
            return .unary .negate e
        | none => operand limits ts calls 6
      else
        let t ← advance ts
        match t.kind with
        | .number | .string | .boolean =>
            match t.literal with
            | some v => return .literal v
            | none => throw (unexpected t)
        | .identifier => return .var t.lexeme
        | .leftParen =>
            enter limits t.position
            let inner ← operand limits ts calls 1
            leave
            let closing ← advance ts
            match closing.kind with
            | .rightParen => return .grouping inner
            | .endOfInput => throw (.unmatchedParenthesis t.position)
            | _ => throw (unexpected closing)
        | .endOfInput => throw (.unexpectedEnd t.position)
        | .operator _ | .rightParen | .assign => throw (unexpected t)

def chain (limits : Limits) (ts : List Token) : Nat → Nat → Nat → Expr → Descent Expr
  | 0, _, _, _ => fun _ => none
  | calls + 1, rank, length, left => do
      match ← accept ts (·.rank == rank) with
      | some (op, position) =>
          if limits.maxChainLength < length + 1 then
            throw (.chainTooLong limits.maxChainLength position)
          else
            let right ← operand limits ts calls (rank + 1)
            chain limits ts calls rank (length + 1) (.binary op left right)
      | none => return left

end

def assigns (ts : List Token) : Descent Bool := do
  if (← look ts 0).kind = .identifier then return decide ((← look ts 1).kind = .assign)
  else return false

def close (ts : List Token) (r : Statement) : Descent Statement := do
  let t ← look ts 0
  if t.isEnding then return r else throw (unexpected t)

/-- The grammar read from its top: from rank to rank, down to the operands. -/
def statement (limits : Limits) (ts : List Token) (calls : Nat) : Descent Statement := do
  if ← assigns ts then
    let name := (← advance ts).lexeme
    let _ ← advance ts
    close ts (.assignment name (← operand limits ts calls 1))
  else close ts (.expression (← operand limits ts calls 1))

/-- Reading comes to an end, with a result of this kind or an error of that kind. -/
def Ends (m : Descent α) (s : Trail) (ok : α → Trail → Prop) (err : ParseError → Trail → Prop) :
    Prop :=
  (∃ a s', m.run s = some (.ok a, s') ∧ ok a s') ∨ ∃ e s', m.run s = some (.error e, s') ∧ err e s'

section

variable {m : Descent α} {f : α → Descent β} {s s' : Trail} {a : α} {e : ParseError}

theorem run_bind_ok (h : m.run s = some (.ok a, s')) : (m >>= f).run s = (f a).run s' := by
  change (m s).bind _ = _
  rw [show m s = _ from h]
  rfl

theorem run_bind_error (h : m.run s = some (.error e, s')) :
    (m >>= f).run s = some (.error e, s') := by
  change (m s).bind _ = _
  rw [show m s = _ from h]
  rfl

theorem Ends.bind {ok : β → Trail → Prop} {err : ParseError → Trail → Prop}
    (h : Ends m s (fun a s' => Ends (f a) s' ok err) err) : Ends (m >>= f) s ok err := by
  rcases h with ⟨a, s', hm, h⟩ | ⟨e, s', hm, he⟩
  · rw [Ends, run_bind_ok hm]
    exact h
  · exact .inr ⟨e, s', run_bind_error hm, he⟩

theorem Ends.bind_ok {ok : β → Trail → Prop} {err : ParseError → Trail → Prop}
    (h : m.run s = some (.ok a, s')) (hf : Ends (f a) s' ok err) : Ends (m >>= f) s ok err :=
  .bind (.inl ⟨a, s', h, hf⟩)

variable {ok ok' : α → Trail → Prop} {err err' : ParseError → Trail → Prop}

theorem Ends.pure (h : ok a s) : Ends (pure a) s ok err := .inl ⟨a, s, rfl, h⟩

theorem Ends.throw (h : err e s) : Ends (throw e) s ok err := .inr ⟨e, s, rfl, h⟩

theorem Ends.imp (h : Ends m s ok err) (ho : ∀ a s', ok a s' → ok' a s')
    (he : ∀ e s', err e s' → err' e s') : Ends m s ok' err' := by
  rcases h with ⟨a, s', hm, h⟩ | ⟨e, s', hm, h⟩
  · exact .inl ⟨a, s', hm, ho a s' h⟩
  · exact .inr ⟨e, s', hm, he e s' h⟩

theorem Ends.imp_ok (h : Ends m s ok err) (ho : ∀ a s', ok a s' → ok' a s') : Ends m s ok' err :=
  h.imp ho fun _ _ he => he

end

section

variable {ts : List Token} {t : Token} {s : Trail} {places : Nat} {limits : Limits}

theorem run_look (h : ts[min (s.here.index + places) (ts.length - 1)]? = some t) :
    (look ts places).run s = some (.ok t, s) := congrArg (Option.map _) h

theorem run_move (f : Cursor → Cursor) : (move f).run s = some (.ok (), s.move f) := rfl

theorem run_enter_of_lt (h : limits.maxDepth < s.here.nesting + 1) (position : Nat) :
    (enter limits position).run s =
      some (.error (.nestingTooDeep limits.maxDepth position), s.move .deeper) := by
  rw [enter, run_bind_ok (run_move _), run_bind_ok (a := s.move .deeper) rfl]
  exact congrArg (run · _) (if_pos h)

theorem run_enter_of_le (h : s.here.nesting + 1 ≤ limits.maxDepth) (position : Nat) :
    (enter limits position).run s = some (.ok (), s.move .deeper) := by
  rw [enter, run_bind_ok (run_move _), run_bind_ok (a := s.move .deeper) rfl]
  exact congrArg (run · _) (if_neg (Int.not_lt.2 h))

end

structure Ended (ts body : List Token) (stop : Nat) : Prop where
  split : ∃ t more, ts = body ++ t :: more ∧ t.isEnding = true ∧ t.position = stop
  inner : ∀ t ∈ body, t.isEnding = false

inductive Faces (stop : Nat) : List Token → Token → Prop
  | token {t : Token} (h : t.isEnding = false) (rest : List Token) : Faces stop (t :: rest) t
  | ending {t : Token} (h : t.isEnding = true) (hp : t.position = stop) : Faces stop [] t

section

variable {body rest : List Token} {t : Token} {i : Nat}

theorem lt_of_drop_eq_cons (hd : body.drop i = t :: rest) : i < body.length := by
  have hl := congrArg List.length hd
  rw [List.length_drop, List.length_cons] at hl
  omega

theorem drop_succ_of_drop_eq_cons (hd : body.drop i = t :: rest) : body.drop (i + 1) = rest := by
  rw [← List.tail_drop, hd, List.tail_cons]

theorem exists_head_or (P : Token → Prop) (ts : List Token) :
    (∃ t rest, ts = t :: rest ∧ P t) ∨ ∀ t ∈ ts.head?, ¬ P t := by
  cases ts with
  | nil => exact .inr (by simp)
  | cons t rest =>
      by_cases h : P t
      · exact .inl ⟨t, rest, rfl, h⟩
      · refine .inr fun u hu => ?_
        cases hu
        exact h

end

namespace Ended

variable {ts body rest : List Token} {stop : Nat} {t : Token} {s : Trail}
variable (h : Ended ts body stop)

include h

theorem exists_look (places : Nat) (hi : s.here.index + places ≤ body.length) :
    ∃ t, (look ts places).run s = some (.ok t, s) ∧
      Faces stop (body.drop (s.here.index + places)) t := by
  obtain ⟨e, more, rfl, he, hp⟩ := h.split
  have hm : min (s.here.index + places) ((body ++ e :: more).length - 1) =
      s.here.index + places := by
    rw [List.length_append, List.length_cons]
    omega
  rcases Nat.lt_or_eq_of_le hi with hlt | heq
  · refine ⟨body[s.here.index + places], run_look ?_, ?_⟩
    · rw [hm, List.getElem?_append_left hlt, List.getElem?_eq_getElem hlt]
    · rw [List.drop_eq_getElem_cons hlt]
      exact .token (h.inner _ (List.getElem_mem hlt)) _
  · refine ⟨e, run_look ?_, ?_⟩
    · rw [hm, heq, List.getElem?_append_right (Nat.le_refl _), Nat.sub_self]
      rfl
    · rw [heq, List.drop_length]
      exact .ending he hp

theorem look_token (hd : body.drop s.here.index = t :: rest) :
    (look ts 0).run s = some (.ok t, s) ∧ t.isEnding = false := by
  obtain ⟨u, hu, hf⟩ := h.exists_look 0 (Nat.le_of_lt (lt_of_drop_eq_cons hd))
  rw [Nat.add_zero, hd] at hf
  cases hf with
  | token hn => exact ⟨hu, hn⟩

theorem look_ending (hi : s.here.index ≤ body.length) (hd : body.drop s.here.index = []) :
    ∃ t, (look ts 0).run s = some (.ok t, s) ∧ t.isEnding = true ∧ t.position = stop := by
  obtain ⟨u, hu, hf⟩ := h.exists_look 0 hi
  rw [Nat.add_zero, hd] at hf
  cases hf with
  | ending he hp => exact ⟨u, hu, he, hp⟩

theorem advance_token (hd : body.drop s.here.index = t :: rest) :
    (advance ts).run s = some (.ok t, s.move .next) := by
  obtain ⟨hl, hn⟩ := h.look_token hd
  rw [advance, run_bind_ok hl, hn]
  rfl

theorem advance_ending (hi : s.here.index ≤ body.length) (hd : body.drop s.here.index = []) :
    ∃ t, (advance ts).run s = some (.ok t, s) ∧ t.kind = .endOfInput ∧ t.position = stop := by
  obtain ⟨t, hl, he, hp⟩ := h.look_ending hi hd
  refine ⟨t, ?_, Token.isEnding_iff.1 he, hp⟩
  rw [advance, run_bind_ok hl, he]
  rfl

variable (wanted : BinaryOperator → Bool)

theorem accept_operator {op : BinaryOperator} (hd : body.drop s.here.index = t :: rest)
    (hk : t.kind = .operator op) (hw : wanted op = true) :
    (accept ts wanted).run s = some (.ok (some (op, t.position)), s.move .next) := by
  rw [accept, run_bind_ok (h.look_token hd).1]
  simp only [hk, hw, if_true]
  rw [run_bind_ok (h.advance_token hd)]
  rfl

theorem accept_nothing (hi : s.here.index ≤ body.length)
    (hn : ∀ t ∈ (body.drop s.here.index).head?, ∀ op, t.kind = .operator op → wanted op = false) :
    (accept ts wanted).run s = some (.ok none, s) := by
  cases hd : body.drop s.here.index with
  | nil =>
      obtain ⟨t, hl, he, -⟩ := h.look_ending hi hd
      rw [accept, run_bind_ok hl]
      simp only [Token.isEnding_iff.1 he]
      rfl
  | cons t rest =>
      rw [accept, run_bind_ok (h.look_token hd).1]
      cases hk : t.kind with
      | operator op =>
          simp only [hn t (by rw [hd]; rfl) op hk]
          rfl
      | number | string | boolean | identifier | leftParen | rightParen | assign | endOfInput => rfl

end Ended

/-- The descent has always been at the ending or before it, and has left no more than it had
entered. -/
def Inside (stop : Nat) (s : Trail) : Prop := ∀ c ∈ s.cursors, c.index ≤ stop ∧ 0 ≤ c.nesting

section

variable {n : Nat} {s : Trail}

theorem inside_start (n : Nat) : Inside n .start := by
  intro c hc
  obtain rfl := List.mem_singleton.1 hc
  exact ⟨Nat.zero_le n, Int.le_refl 0⟩

theorem Inside.here (h : Inside n s) : s.here.index ≤ n ∧ 0 ≤ s.here.nesting :=
  h _ (List.mem_cons_self ..)

theorem Inside.move {f : Cursor → Cursor} (h : Inside n s) (hi : (f s.here).index ≤ n)
    (hn : 0 ≤ (f s.here).nesting) : Inside n (s.move f) := by
  intro c hc
  rcases List.mem_cons.1 hc with rfl | hc
  · exact ⟨hi, hn⟩
  · exact h c hc

theorem Inside.next (h : Inside n s) (hi : s.here.index < n) : Inside n (s.move .next) :=
  h.move hi h.here.2

theorem Inside.deeper (h : Inside n s) : Inside n (s.move .deeper) :=
  h.move h.here.1 (Int.add_nonneg h.here.2 (by decide))

theorem Inside.shallower (h : Inside n s) (hn : 0 < s.here.nesting) :
    Inside n (s.move .shallower) :=
  h.move h.here.1 (Int.sub_nonneg_of_le hn)

end

end Descent

end Reckoner
