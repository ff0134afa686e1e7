import Reckoner.Expr.Parse

namespace Reckoner

/-- What a token says, whatever its place in the text and its spelling. -/
structure Symbol where
  kind : TokenKind
  name : String := ""
  literal : Option Value := none
  deriving DecidableEq

def Token.symbol (t : Token) : Symbol :=
  ⟨t.kind, if t.kind = .identifier then t.lexeme else "", t.literal⟩

def Kind.tokenKind : Kind → TokenKind
  | integer | decimal => .number
  | string => .string
  | boolean => .boolean

namespace Symbol

def ofValue (v : Value) : Symbol := ⟨v.kind.tokenKind, "", some v⟩

def ofName (name : String) : Symbol := ⟨.identifier, name, none⟩

def ofOperator (op : BinaryOperator) : Symbol := ⟨.operator op, "", none⟩

def minus : Symbol := ofOperator (.arithmetic .subtract)

def leftParen : Symbol := ⟨.leftParen, "", none⟩

def rightParen : Symbol := ⟨.rightParen, "", none⟩

def assign : Symbol := ⟨.assign, "", none⟩

def endOfInput : Symbol := ⟨.endOfInput, "", none⟩

inductive OfExpr : Symbol → Prop
  | value (v : Value) : OfExpr (ofValue v)
  | name (name : String) : OfExpr (ofName name)
  | operator (op : BinaryOperator) : OfExpr (ofOperator op)
  | leftParen : OfExpr leftParen
  | rightParen : OfExpr rightParen

end Symbol

theorem Token.lexeme_of_symbol {t : Token} {name : String} (h : t.symbol = .ofName name) :
    t.kind = .identifier ∧ t.lexeme = name := by
  have hk : t.kind = .identifier := congrArg Symbol.kind h
  have hn : (if t.kind = .identifier then t.lexeme else "") = name := congrArg Symbol.name h
  exact ⟨hk, by rwa [if_pos hk] at hn⟩

theorem BinaryOperator.rank_pos (op : BinaryOperator) : 1 ≤ op.rank := by
  rcases op with (_ | _ | _ | _) | (_ | _) <;> decide

theorem BinaryOperator.rank_le (op : BinaryOperator) : op.rank ≤ 4 := by
  rcases op with (_ | _ | _ | _) | (_ | _) <;> decide

namespace Expr

/-- How tightly the outermost form binds. Only operations bind less tightly than a minus sign. -/
def rank : Expr → Nat
  | binary op _ _ => op.rank
  | unary _ _ => 5
  | literal _ | var _ | grouping _ => 6

/-- A tree that needs no parentheses but its own: chains of one rank lean to the left, and what
stands to the right of an operator binds more tightly than it. -/
def Canonical : Expr → Prop
  | binary op left right =>
      (op.rank ≤ left.rank ∧ op.rank < right.rank) ∧ left.Canonical ∧ right.Canonical
  | unary _ operand => 5 ≤ operand.rank ∧ operand.Canonical
  | grouping inner => inner.Canonical
  | literal _ | var _ => True

instance decidableCanonical : (e : Expr) → Decidable e.Canonical
  | binary _ left right =>
      have := decidableCanonical left
      have := decidableCanonical right
      inferInstanceAs (Decidable (_ ∧ _ ∧ _))
  | unary _ operand =>
      have := decidableCanonical operand
      inferInstanceAs (Decidable (_ ∧ _))
  | grouping inner => decidableCanonical inner
  | literal _ | var _ => inferInstanceAs (Decidable True)

def yield : Expr → List Symbol
  | literal v => [.ofValue v]
  | var name => [.ofName name]
  | grouping inner => .leftParen :: inner.yield ++ [.rightParen]
  | unary .negate operand => .minus :: operand.yield
  | binary op left right => left.yield ++ .ofOperator op :: right.yield

/-- The greatest number of parentheses and minus signs on a way to a leaf. -/
def nest : Expr → Nat
  | literal _ | var _ => 0
  | grouping inner => inner.nest + 1
  | unary _ operand => operand.nest + 1
  | binary _ left right => max left.nest right.nest

/-- The number of operations of the rank in a row down the left, from the root on. -/
def run (k : Nat) : Expr → Nat
  | binary op left _ => if op.rank = k then run k left + 1 else 0
  | _ => 0

def chain : Expr → Nat
  | literal _ | var _ => 0
  | grouping inner => inner.chain
  | unary _ operand => operand.chain
  | binary op left right => max (left.run op.rank + 1) (max left.chain right.chain)

theorem rank_pos (e : Expr) : 1 ≤ e.rank := by
  cases e with
  | binary op => exact op.rank_pos
  | literal | var | grouping | unary => exact Nat.le_add_left ..

theorem rank_le (e : Expr) : e.rank ≤ 6 := by
  cases e with
  | binary op => exact Nat.le_trans op.rank_le (by decide)
  | literal | var | grouping | unary => simp [rank]

theorem run_of_rank_ne {k : Nat} {e : Expr} (h : e.rank ≠ k) : e.run k = 0 := by
  cases e with
  | binary op => exact if_neg h
  | literal | var | grouping | unary => rfl

theorem run_le_length (k : Nat) (e : Expr) : e.run k ≤ e.yield.length := by
  induction e with
  | binary op left right ihl _ =>
      simp only [run, yield, List.length_append, List.length_cons]
      split <;> omega
  | literal | var | grouping | unary => exact Nat.zero_le _

theorem nest_le_length (e : Expr) : e.nest ≤ e.yield.length := by
  induction e with
  | literal | var => exact Nat.zero_le _
  | grouping inner ih => simp [nest, yield]; omega
  | unary op operand ih => cases op; simpa [nest, yield] using ih
  | binary op left right ihl ihr => simp [nest, yield]; omega

theorem chain_le_length (e : Expr) : e.chain ≤ e.yield.length := by
  induction e with
  | literal | var => exact Nat.zero_le _
  | grouping inner ih => simp [chain, yield]; omega
  | unary op operand ih => cases op; simp [chain, yield]; omega
  | binary op left right ihl ihr =>
      have hr := run_le_length op.rank left
      simp [chain, yield]; omega

theorem ofExpr_of_mem_yield {e : Expr} {s : Symbol} (h : s ∈ e.yield) : s.OfExpr := by
  induction e with
  | literal v => exact List.mem_singleton.1 h ▸ .value v
  | var name => exact List.mem_singleton.1 h ▸ .name name
  | grouping inner ih =>
      simp only [yield, List.cons_append, List.mem_cons, List.mem_append, List.not_mem_nil,
        or_false] at h
      rcases h with rfl | h | rfl
      · exact .leftParen
      · exact ih h
      · exact .rightParen
  | unary op operand ih =>
      cases op
      rcases List.mem_cons.1 h with rfl | h
      · exact .operator _
      · exact ih h
  | binary op left right ihl ihr =>
      simp only [yield, List.mem_append, List.mem_cons] at h
      rcases h with h | rfl | h
      · exact ihl h
      · exact .operator op
      · exact ihr h

theorem kind_ne_assign_of_mem_yield {e : Expr} {s : Symbol} (h : s ∈ e.yield) :
    s.kind ≠ .assign := by
  cases ofExpr_of_mem_yield h with
  | value v => cases v <;> exact nofun
  | name | operator | leftParen | rightParen => exact nofun

end Expr

def Statement.yield : Statement → List Symbol
  | expression e => e.yield
  | assignment name e => .ofName name :: .assign :: e.yield

end Reckoner
