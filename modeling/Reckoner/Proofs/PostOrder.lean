import Reckoner.Evaluation

namespace Reckoner

def Expr.isBinary : Expr → Bool
  | .binary .. => true
  | _ => false

theorem Expr.spine_append (e : Expr) (links more : List (BinaryOperator × Expr)) :
    e.spine (links ++ more) = ((e.spine links).1, (e.spine links).2 ++ more) := by
  induction e generalizing links with
  | binary op l r ihl _ => exact ihl ((op, r) :: links)
  | literal | var | grouping | unary => rfl

theorem Expr.spine_of_not_isBinary {e : Expr} (h : e.isBinary = false)
    (links : List (BinaryOperator × Expr)) : e.spine links = (e, links) := by
  cases e with
  | binary op l r => cases h
  | literal | var | grouping | unary => rfl

namespace Policy

variable (p : Policy) (env : Environment)

def leftDepth (depth : Nat) (left : Expr) : Nat := if left.isBinary then depth else depth + 1

/-- The operands of a form are evaluated before the form, from the left to the right. -/
def postOrder (depth : Nat) (e : Expr) : Except EvalError Value :=
  if p.maxDepth < depth then .error (.depthLimitExceeded p.maxDepth)
  else
    match e with
    | .literal v => .ok v
    | .var name =>
        match env name with
        | some v => .ok v
        | none => .error (.unboundVariable name)
    | .grouping inner => postOrder (depth + 1) inner
    | .unary op operand => do op.apply (← postOrder (depth + 1) operand)
    | .binary op left right => do
        let v ← postOrder (leftDepth depth left) left
        match p.shortCircuit, op, v with
        | true, .connective .and, .boolean false => .ok (.boolean false)
        | true, .connective .or, .boolean true => .ok (.boolean true)
        | _, _, _ => op.apply v (← postOrder (depth + 1) right)

theorem evaluateAt_of_lt {depth : Nat} (h : p.maxDepth < depth) (e : Expr) :
    p.evaluateAt env depth e = .error (.depthLimitExceeded p.maxDepth) := by
  rw [evaluateAt.eq_def, if_pos h]

theorem evaluateAt_grouping {depth : Nat} (h : ¬ p.maxDepth < depth) (inner : Expr) :
    p.evaluateAt env depth (.grouping inner) = p.evaluateAt env (depth + 1) inner := by
  rw [evaluateAt, if_neg h]

theorem evaluateAt_unary {depth : Nat} (h : ¬ p.maxDepth < depth) (op : UnaryOperator)
    (operand : Expr) :
    p.evaluateAt env depth (.unary op operand) =
      p.evaluateAt env (depth + 1) operand >>= op.apply := by
  rw [evaluateAt, if_neg h]

theorem evaluateAt_chain {depth : Nat} (h : ¬ p.maxDepth < depth) (op : BinaryOperator)
    (left right : Expr) :
    p.evaluateAt env depth (.binary op left right) =
      p.evaluateAt env (depth + 1) (left.spine [(op, right)]).1 >>=
        (left.spine [(op, right)]).2.foldlM fun v l =>
          p.link l.1 v fun _ => p.evaluateAt env (depth + 1) l.2 := by
  rw [evaluateAt, if_neg h]
  apply congrArg (_ >>= ·)
  funext first
  conv => rhs; rw [← List.attach_map_subtype_val (left.spine [(op, right)]).2, List.foldlM_map]

theorem evaluateAt_binary {depth : Nat} (h : ¬ p.maxDepth < depth) (op : BinaryOperator)
    (left right : Expr) :
    p.evaluateAt env depth (.binary op left right) =
      p.evaluateAt env (leftDepth depth left) left >>= fun v =>
        p.link op v fun _ => p.evaluateAt env (depth + 1) right := by
  rw [evaluateAt_chain p env h]
  cases hl : left.isBinary with
  | false =>
      rw [Expr.spine_of_not_isBinary hl, leftDepth, hl]
      simp
  | true =>
      cases left with
      | literal | var | grouping | unary => cases hl
      | binary op' l r =>
          have hs : (Expr.binary op' l r).spine [(op, right)] =
              ((l.spine [(op', r)]).1, (l.spine [(op', r)]).2 ++ [(op, right)]) :=
            Expr.spine_append l [(op', r)] [(op, right)]
          rw [hs, leftDepth, hl, if_pos rfl, evaluateAt_chain p env h]
          simp [List.foldlM_append]

theorem link_eq (op : BinaryOperator) (v : Value) (right : Unit → Except EvalError Value) :
    p.link op v right =
      match p.shortCircuit, op, v with
      | true, .connective .and, .boolean false => .ok (.boolean false)
      | true, .connective .or, .boolean true => .ok (.boolean true)
      | _, _, _ => right () >>= op.apply v := by
  rw [link]
  cases p.shortCircuit with
  | false => rfl
  | true =>
      cases op with
      | arithmetic op => rfl
      | connective op =>
          cases op <;> cases v with
          | boolean b => cases b <;> rfl
          | integer | decimal | string => rfl

theorem evaluateAt_eq_postOrder (depth : Nat) (e : Expr) :
    p.evaluateAt env depth e = p.postOrder env depth e := by
  induction e generalizing depth with
  | literal v => rw [evaluateAt, postOrder]
  | var name => cases h : env name <;> rw [evaluateAt, postOrder, h]
  | grouping inner ih => rw [evaluateAt, postOrder, ih]
  | unary op operand ih => rw [evaluateAt, postOrder, ih]
  | binary op left right ihl ihr =>
      rw [postOrder]
      by_cases h : p.maxDepth < depth
      · rw [if_pos h, evaluateAt_of_lt p env h]
      · rw [if_neg h, evaluateAt_binary p env h, ihl, ihr]
        simp only [link_eq]

/-- Whatever the tree, the loop over its chains reports the value, or the error, that the walk from
operands to forms comes upon. -/
theorem evaluate_eq_postOrder (e : Expr) : p.evaluate env e = p.postOrder env 1 e :=
  p.evaluateAt_eq_postOrder env 1 e

end Policy

end Reckoner
