import Reckoner.Expr
import Reckoner.Token

namespace Reckoner

structure Limits where
  maxDepth : Nat
  maxChainLength : Nat

inductive ParseError
  | unexpectedToken (found : String) (position : Nat)
  | unexpectedEnd (position : Nat)
  | unmatchedParenthesis (position : Nat)
  | nestingTooDeep (limit position : Nat)
  | chainTooLong (limit position : Nat)
  deriving DecidableEq

def ParseError.message : ParseError → String
  | unexpectedToken found position => Text.atPosition position ("意外的 token '" ++ found ++ "'")
  | unexpectedEnd position => Text.atPosition position "表达式意外结束"
  | unmatchedParenthesis position => Text.atPosition position "左括号缺少匹配的 ')'"
  | nestingTooDeep limit position =>
      Text.atPosition position ("表达式嵌套超过上限 " ++ Text.ofNat limit)
  | chainTooLong limit position =>
      Text.atPosition position ("运算符链长度超过上限 " ++ Text.ofNat limit)

def unexpected (t : Token) : ParseError := .unexpectedToken t.lexeme t.position

/-- A form that waits for its next operand: a minus sign, an open parenthesis with its position, or
an operator with its left operand and its number in its chain. -/
inductive Frame
  | negation
  | group (position : Nat)
  | operation (op : BinaryOperator) (left : Expr) (number : Nat)

def Frame.nests : Frame → Bool
  | negation | group _ => true
  | operation .. => false

/-- Between two tokens: the waiting forms, innermost first, and either nothing or a complete operand
behind them. -/
inductive Progress
  | before (frames : List Frame)
  | after (frames : List Frame) (e : Expr)

namespace Progress

def complete : List Frame → Expr → Progress
  | .negation :: fs, e => complete fs (.unary .negate e)
  | fs, e => after fs e

/-- Ends the operations in front of an operand that bind at least as tightly as the rank. The number
is that of the last one of this very rank, or else zero. -/
def join (rank : Nat) : List Frame → Expr → Nat → List Frame × Expr × Nat
  | .operation op left number :: fs, e, n =>
      if op.rank < rank then (.operation op left number :: fs, e, n)
      else join rank fs (.binary op left e) (if op.rank = rank then number else n)
  | fs, e, n => (fs, e, n)

def enter (limits : Limits) (position : Nat) (frames : List Frame) (f : Frame) :
    Except ParseError Progress :=
  if limits.maxDepth < frames.countP Frame.nests + 1 then
    .error (.nestingTooDeep limits.maxDepth position)
  else .ok (before (f :: frames))

def stepBefore (limits : Limits) (frames : List Frame) (t : Token) : Except ParseError Progress :=
  match t.kind with
  | .operator (.arithmetic .subtract) => enter limits t.position frames .negation
  | .leftParen => enter limits t.position frames (.group t.position)
  | .identifier => .ok (complete frames (.var t.lexeme))
  | .number | .string | .boolean =>
      match t.literal with
      | some v => .ok (complete frames (.literal v))
      | none => .error (unexpected t)
  | _ => .error (unexpected t)

def stepAfter (limits : Limits) (frames : List Frame) (e : Expr) (t : Token) :
    Except ParseError Progress :=
  match t.kind with
  | .operator op =>
      let (fs, left, n) := join op.rank frames e 0
      if limits.maxChainLength < n + 1 then
        .error (.chainTooLong limits.maxChainLength t.position)
      else .ok (before (.operation op left (n + 1) :: fs))
  | .rightParen =>
      match join 0 frames e 0 with
      | (.group _ :: fs, inner, _) => .ok (complete fs (.grouping inner))
      | _ => .error (unexpected t)
  | _ => .error (unexpected t)

def step (limits : Limits) (p : Progress) (t : Token) : Except ParseError Progress :=
  match p with
  | before frames => stepBefore limits frames t
  | after frames e => stepAfter limits frames e t

def finish (position : Nat) : Progress → Except ParseError Expr
  | before _ => .error (.unexpectedEnd position)
  | after frames e =>
      match join 0 frames e 0 with
      | (.group opening :: _, _, _) => .error (.unmatchedParenthesis opening)
      | (_, whole, _) => .ok whole

end Progress

def untilEnding (tokens : List Token) : List Token × Nat :=
  let body := tokens.takeWhile fun t => !t.isEnding
  match tokens.drop body.length with
  | t :: _ => (body, t.position)
  -- Without an ending the last token is the end.
  | [] => (body, (body.getLast?.map Token.stop).getD 0)

theorem untilEnding_append {body : List Token} (hb : ∀ t ∈ body, t.isEnding = false) {t : Token}
    (ht : t.isEnding = true) (more : List Token) :
    untilEnding (body ++ t :: more) = (body, t.position) := by
  have hw : (body ++ t :: more).takeWhile (fun t => !t.isEnding) = body := by
    rw [List.takeWhile_append_of_pos (by simpa using hb)]
    simp [ht]
  simp only [untilEnding, hw, List.drop_left]

theorem untilEnding_of_forall {ts : List Token} (h : ∀ t ∈ ts, t.isEnding = false) :
    untilEnding ts = (ts, (ts.getLast?.map Token.stop).getD 0) := by
  have hw : (ts ++ []).takeWhile (fun t => !t.isEnding) = ts ++ [] :=
    List.takeWhile_append_of_pos (by simpa using h)
  rw [List.append_nil] at hw
  simp only [untilEnding, hw, List.drop_length]

def Expr.ofTokens (limits : Limits) (stop : Nat) (tokens : List Token) :
    Except ParseError Expr := do
  (← tokens.foldlM (Progress.step limits) (.before [])).finish stop

def Statement.ofTokens (limits : Limits) (tokens : List Token) : Except ParseError Statement :=
  match untilEnding tokens with
  | (x :: a :: rest, stop) =>
      if x.kind = .identifier ∧ a.kind = .assign then
        assignment x.lexeme <$> Expr.ofTokens limits stop rest
      else expression <$> Expr.ofTokens limits stop (x :: a :: rest)
  | (body, stop) => expression <$> Expr.ofTokens limits stop body

end Reckoner
