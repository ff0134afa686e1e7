import Reckoner.Except
import Reckoner.Settings
import Reckoner.Token.Scan
import Reckoner.Value.Conversion

namespace Reckoner

inductive Failure
  | lex (cause : LexError)
  | parse (cause : ParseError)
  | eval (cause : EvalError)
  | conversion (cause : ConversionError)
  deriving DecidableEq

namespace Failure

def causeMessage : Failure → String
  | lex cause => cause.message
  | parse cause => cause.message
  | eval cause => cause.message
  | conversion cause => cause.message

def stage : Failure → String
  | lex _ => "词法错误"
  | parse _ => "语法错误"
  | eval _ => "求值错误"
  | conversion _ => "转换错误"

def message (f : Failure) : String := f.stage ++ ": " ++ f.causeMessage

end Failure

def Statement.ofText (limits : Limits) (text : String) : Except Failure Statement := do
  let tokens ← (Token.tokenize text).mapError .lex
  (Statement.ofTokens limits tokens).mapError .parse

theorem Statement.ofText_eq_ok_iff {limits : Limits} {text : String} {r : Statement} :
    ofText limits text = .ok r ↔
      ∃ tokens, Token.tokenize text = .ok tokens ∧ ofTokens limits tokens = .ok r := by
  constructor
  · intro h
    obtain ⟨tokens, ht, ho⟩ := exists_of_bind_eq_ok h
    exact ⟨tokens, mapError_eq_ok_iff.1 ht, mapError_eq_ok_iff.1 ho⟩
  · rintro ⟨tokens, ht, ho⟩
    rw [ofText, mapError_eq_ok_iff.2 ht]
    exact mapError_eq_ok_iff.2 ho

/-- A calculator keeps nothing but its settings, which are usable. -/
structure Calculator where
  settings : Settings
  usable : settings.Usable

namespace Calculator

def ofSettings (s : Settings) : Except SettingsError Calculator :=
  match h : s.check with
  | .ok () => .ok ⟨s, (Settings.check_eq_ok_iff s).1 h⟩
  | .error e => .error e

def standard : Calculator := ⟨{}, by decide⟩

def parse (c : Calculator) (text : String) : Except Failure Statement :=
  Statement.ofText c.settings.limits text

def evaluate (c : Calculator) (env : Environment) (e : Expr) : Except Failure Value :=
  (c.settings.policy.evaluate env e).mapError .eval

def evaluateTo (c : Calculator) (env : Environment) (target : Option Target) (e : Expr) :
    Except Failure Value := do
  let v ← c.evaluate env e
  match target with
  | some t => (v.convert t).mapError .conversion
  | none => .ok v

/-- Evaluates the expression of a text. An assignment binds nothing here. -/
def evaluateText (c : Calculator) (env : Environment) (target : Option Target) (text : String) :
    Except Failure Value := do
  c.evaluateTo env target (← c.parse text).expr

end Calculator

end Reckoner
