import Reckoner.Operator
import Reckoner.Text.Basic
import Reckoner.Value

namespace Reckoner

inductive TokenKind
  | number
  | string
  | boolean
  | identifier
  | operator (op : BinaryOperator)
  | leftParen
  | rightParen
  | assign
  | endOfInput
  deriving DecidableEq

def TokenKind.name : TokenKind → String
  | number => "Number"
  | string => "String"
  | boolean => "Boolean"
  | identifier => "Identifier"
  | operator op => "Operator(" ++ op.symbol ++ ")"
  | leftParen => "LParen"
  | rightParen => "RParen"
  | assign => "Assign"
  | endOfInput => "EOF"

/-- A piece of the input with its byte offset. A string keeps its quotes in the lexeme. -/
structure Token where
  kind : TokenKind
  lexeme : String
  position : Nat
  literal : Option Value
  deriving DecidableEq

namespace Token

def ending (position : Nat) : Token := ⟨.endOfInput, "", position, none⟩

def isEnding (t : Token) : Bool := t.kind == .endOfInput

theorem isEnding_iff {t : Token} : t.isEnding = true ↔ t.kind = .endOfInput := beq_iff_eq

def stop (t : Token) : Nat := t.position + Text.width t.lexeme.toList

def text (t : Token) : String :=
  t.kind.name ++ (if t.isEnding then "" else " '" ++ t.lexeme ++ "'") ++ "@" ++
    Text.ofNat t.position

end Token

end Reckoner
