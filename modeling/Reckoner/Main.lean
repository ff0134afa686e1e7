import Reckoner.Command.Arguments

namespace Reckoner.Main

def source (path : String) : IO Settings.Source := do
  try
    return .bytes (← IO.FS.readBinFile path)
  catch
    | .noFileOrDirectory .. => return .missing
    | _ => return .unavailable

def invocation (a : Arguments) (c : Command) : IO Invocation := do
  let file ← a.file.mapM fun path => return (path, ← source path)
  return ⟨c, file, a.shortCircuit, a.maxDepth⟩

partial def converse (s : Session) (input output : IO.FS.Stream) : IO Unit := do
  let line ← input.getLine
  if line.isEmpty then return
  match Transcript.reply? s line with
  | none => return
  | some (answer, s) =>
      output.putStr (answer ++ Transcript.prompt)
      output.flush
      converse s input output

def run (i : Invocation) : IO UInt32 := do
  let output ← IO.getStdout
  let fail (e : CommandError) : IO UInt32 := do
    IO.eprintln e.message
    return 1
  match i.command, i.calculator with
  | _, .error e => fail e
  | .repl, .ok c =>
      output.putStr Transcript.prompt
      output.flush
      converse (.start c) (← IO.getStdin) output
      return 0
  | command, .ok c =>
      match command.output c [] with
      | .ok text =>
          output.putStr text
          return 0
      | .error e => fail e

def start (words : List String) : IO UInt32 := do
  let asked := do
    let a ← Arguments.read? {} words
    return (a, ← a.command?)
  match asked with
  | some (a, c) => run (← invocation a c)
  | none => return 2

end Reckoner.Main

def main (words : List String) : IO UInt32 := Reckoner.Main.start words
