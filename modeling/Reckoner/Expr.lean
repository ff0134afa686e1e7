import Reckoner.Operator
import Reckoner.Value

namespace Reckoner

inductive Expr
  | literal (v : Value)
  | var (name : String)
  | grouping (inner : Expr)
  | binary (op : BinaryOperator) (left right : Expr)
  | unary (op : UnaryOperator) (operand : Expr)
  deriving DecidableEq

namespace Expr

def depth : Expr → Nat
  | literal _ | var _ => 1
  | grouping inner => inner.depth + 1
  | binary _ left right => max left.depth right.depth + 1
  | unary _ operand => operand.depth + 1

/-- The operator in front of its operands, with parentheses around each operation. -/
def prefixForm : Expr → String
  | literal (.string s) => "\"" ++ s ++ "\""
  | literal v => v.text
  | var name => name
  | grouping inner => "(group " ++ inner.prefixForm ++ ")"
  | binary op left right =>
      "(" ++ op.symbol ++ " " ++ left.prefixForm ++ " " ++ right.prefixForm ++ ")"
  | unary op operand => "(" ++ op.symbol ++ " " ++ operand.prefixForm ++ ")"

/-- The leftmost operand of a chain of binary operations, and its operators with their right
operands in the order of application, in front of further ones. -/
def spine : Expr → List (BinaryOperator × Expr) → Expr × List (BinaryOperator × Expr)
  | binary op left right, links => left.spine ((op, right) :: links)
  | e, links => (e, links)

theorem sizeOf_spine_fst (e : Expr) (links : List (BinaryOperator × Expr)) :
    sizeOf (e.spine links).1 ≤ sizeOf e := by
  induction e generalizing links with
  | binary op l r ihl _ =>
      have h := ihl ((op, r) :: links)
      simp only [spine, binary.sizeOf_spec]
      omega
  | literal | var | grouping | unary => exact Nat.le_refl _

theorem sizeOf_of_mem_spine {e : Expr} {links : List (BinaryOperator × Expr)}
    {x : BinaryOperator × Expr} (h : x ∈ (e.spine links).2) :
    x ∈ links ∨ sizeOf x.2 < sizeOf e := by
  induction e generalizing links with
  | binary op l r ihl _ =>
      rcases ihl h with hm | hlt
      · rcases List.mem_cons.1 hm with rfl | hm
        · right; simp only [binary.sizeOf_spec]; omega
        · exact .inl hm
      · right; simp only [binary.sizeOf_spec]; omega
  | literal | var | grouping | unary => exact .inl h

end Expr

inductive Statement
  | expression (e : Expr)
  | assignment (name : String) (e : Expr)
  deriving DecidableEq

namespace Statement

def expr : Statement → Expr
  | expression e => e
  | assignment _ e => e

def name? : Statement → Option String
  | expression _ => none
  | assignment name _ => some name

def prefixForm : Statement → String
  | expression e => e.prefixForm
  | assignment name e => "(= " ++ name ++ " " ++ e.prefixForm ++ ")"

end Statement

end Reckoner
