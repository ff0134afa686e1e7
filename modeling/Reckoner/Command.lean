import Reckoner.Stored.Settings
import Reckoner.Transcript

namespace Reckoner

inductive Command
  | eval (expression : String) (definitions : List String) (target : Option Target) (ast : Bool)
  | tokens (expression : String)
  | repl

/-- A command with the settings asked for beside it. The file is given by its path. -/
structure Invocation where
  command : Command
  file : Option (String × Settings.Source)
  shortCircuit : Bool
  maxDepth : Option UInt64

inductive CommandError
  | settingsFile (path : String) (cause : SettingsError)
  | settings (cause : SettingsError)
  | missingEquals (definition : String)
  | invalidName (name : String)
  | invalidValue (name : String) (cause : Failure)
  | lex (cause : LexError)
  | failure (cause : Failure)

-- The message tells the cause already.
def Failure.chain (f : Failure) : List String := [f.message, f.causeMessage]

namespace CommandError

def chain : CommandError → List String
  | settingsFile path cause => ["加载配置失败: " ++ path, cause.message]
  | settings cause => [cause.message]
  | missingEquals definition => ["变量定义缺少 '=': " ++ definition]
  | invalidName name => ["无效的变量名: '" ++ name ++ "'"]
  | invalidValue name cause => ("变量 '" ++ name ++ "' 的值无效") :: cause.chain
  | lex cause => [cause.message]
  | failure cause => cause.chain

def message (e : CommandError) : String := "exprc error: " ++ ": ".intercalate e.chain

end CommandError

namespace Invocation

def settings (i : Invocation) : Except CommandError Settings := do
  let base ← match i.file with
    | some (path, source) => (Settings.load source).mapError (.settingsFile path)
    | none => .ok {}
  -- Options go before the file, and the file before the standard.
  let s : Settings :=
    { base with
      shortCircuit := i.shortCircuit || base.shortCircuit
      maxDepth := i.maxDepth.getD base.maxDepth }
  s.check.mapError .settings
  .ok s

end Invocation

namespace Command

/-- A name, an equals sign and an expression of its own, in which no name is bound. -/
def define (c : Calculator) (assigned : Bindings Value) (definition : String) :
    Except CommandError (Bindings Value) := do
  let cs := definition.toList
  match cs.dropWhile (· != '=') with
  | [] => .error (.missingEquals definition)
  | _ :: text =>
      let name := Text.trim (String.ofList (cs.takeWhile (· != '=')))
      if Token.isIdentifier name.toList then
        let v ← (c.evaluateText (fun _ => none) none (String.ofList text)).mapError
          (.invalidValue name)
        .ok (assigned.insert name v)
      else .error (.invalidName name)

def answer (c : Calculator) (env : Environment) (target : Option Target) (ast : Bool)
    (text : String) : Except Failure String := do
  let statement ← c.parse text
  if ast then .ok statement.prefixForm
  else
    let v ← c.evaluateTo env target statement.expr
    .ok (Answer.text ⟨statement.name?, v⟩)

def output (c : Calculator) (input : List String) : Command → Except CommandError String
  | eval expression definitions target ast => do
      let assigned ← definitions.foldlM (define c) .empty
      let line ← (answer c assigned.find? target ast expression).mapError .failure
      .ok (line ++ "\n")
  | tokens expression => do
      let ts ← (Token.tokenize expression).mapError .lex
      .ok (String.join (ts.map fun t => t.text ++ "\n"))
  | repl => .ok (Transcript.ofLines c input)

end Command

def Invocation.calculator (i : Invocation) : Except CommandError Calculator := do
  (Calculator.ofSettings (← i.settings)).mapError .settings

def Invocation.output (i : Invocation) (input : List String) : Except CommandError String := do
  i.command.output (← i.calculator) input

end Reckoner
