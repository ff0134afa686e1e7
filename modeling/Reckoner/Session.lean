import Reckoner.Bindings
import Reckoner.Calculator

namespace Reckoner

structure Answer where
  name? : Option String
  value : Value

def Answer.text (a : Answer) : String :=
  match a.name? with
  | some name => name ++ " = " ++ a.value.text
  | none => a.value.text

/-- A calculator with the values assigned so far, and with expressions kept for later. -/
structure Session where
  calculator : Calculator
  assigned : Bindings Value
  kept : Bindings Expr

namespace Session

def start (c : Calculator) : Session := ⟨c, .empty, .empty⟩

def environment (s : Session) : Environment := s.assigned.find?

def assign (s : Session) (name : String) (v : Value) : Session :=
  { s with assigned := s.assigned.insert name v }

def forget (s : Session) (name : String) : Session :=
  { s with assigned := s.assigned.erase name }

def line (s : Session) (text : String) : Except Failure (Answer × Session) := do
  let statement ← s.calculator.parse text
  let v ← s.calculator.evaluate s.environment statement.expr
  .ok (⟨statement.name?, v⟩, (statement.name?.map fun name => s.assign name v).getD s)

def keep (s : Session) (name text : String) : Except Failure (Expr × Session) := do
  let e := (← s.calculator.parse text).expr
  .ok (e, { s with kept := s.kept.insert name e })

end Session

end Reckoner
