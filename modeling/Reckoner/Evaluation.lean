import Reckoner.Expr
import Reckoner.Operation

namespace Reckoner

abbrev Environment := String → Option Value

structure Policy where
  shortCircuit : Bool
  maxDepth : Nat

def Connective.decided? : Connective → Value → Option Bool
  | and, .boolean false => some false
  | or, .boolean true => some true
  | _, _ => none

def BinaryOperator.decided? : BinaryOperator → Value → Option Bool
  | connective op, v => op.decided? v
  | arithmetic _, _ => none

namespace Policy

def link (p : Policy) (op : BinaryOperator) (v : Value) (right : Unit → Except EvalError Value) :
    Except EvalError Value :=
  match if p.shortCircuit then op.decided? v else none with
  | some b => .ok (.boolean b)
  | none => do op.apply v (← right ())

/-- Chains of binary operations are worked off from the left at one depth. Their operands, and those
of all other forms, lie one deeper. -/
def evaluateAt (p : Policy) (env : Environment) (depth : Nat) (e : Expr) :
    Except EvalError Value :=
  if p.maxDepth < depth then .error (.depthLimitExceeded p.maxDepth)
  else
    match e with
    | .literal v => .ok v
    | .var name =>
        match env name with
        | some v => .ok v
        | none => .error (.unboundVariable name)
    | .grouping inner => evaluateAt p env (depth + 1) inner
    | .unary op operand => do op.apply (← evaluateAt p env (depth + 1) operand)
    | .binary op left right => do
        let chain := left.spine [(op, right)]
        let first ← evaluateAt p env (depth + 1) chain.1
        chain.2.attach.foldlM
          (fun v l => p.link l.1.1 v fun _ => evaluateAt p env (depth + 1) l.1.2) first
termination_by sizeOf e
decreasing_by
  · simp only [Expr.grouping.sizeOf_spec]; omega
  · simp only [Expr.unary.sizeOf_spec]; omega
  · have h := Expr.sizeOf_spine_fst left [(op, right)]
    simp only [Expr.binary.sizeOf_spec]; omega
  · rcases Expr.sizeOf_of_mem_spine l.2 with hm | hlt
    · simp only [List.mem_singleton] at hm
      simp only [hm, Expr.binary.sizeOf_spec]; omega
    · simp only [Expr.binary.sizeOf_spec]; omega

def evaluate (p : Policy) (env : Environment) (e : Expr) : Except EvalError Value :=
  p.evaluateAt env 1 e

end Policy

end Reckoner
