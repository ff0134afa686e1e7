import Reckoner.Session
import Reckoner.Text.CharClass

namespace Reckoner.Transcript

def prompt : String := "> "

def lines (text : String) : List String :=
  let ls := text.splitOn "\n"
  -- The last line needs no line break behind it.
  if ls.getLast? = some "" then ls.dropLast else ls

inductive Request
  | nothing
  | quit
  | listing
  | statement (text : String)

def Request.ofLine (line : String) : Request :=
  match Text.trim line with
  | "" => nothing
  | ":quit" => quit
  | ":vars" => listing
  | text => statement text

def listing (s : Session) : String :=
  String.join (s.assigned.entries.map fun e => e.1 ++ " = " ++ e.2.taggedText ++ "\n")

/-- The answer to a line and the session after it; none if the line ends the session. -/
def reply? (s : Session) (line : String) : Option (String × Session) :=
  match Request.ofLine line with
  | .nothing => some ("", s)
  | .quit => none
  | .listing => some (listing s, s)
  | .statement text =>
      match s.line text with
      | .ok (a, s) => some (a.text ++ "\n", s)
      | .error f => some ("error: " ++ f.message ++ "\n", s)

def replies (s : Session) : List String → String
  | [] => ""
  | line :: lines =>
      match reply? s line with
      | some (answer, s) => answer ++ prompt ++ replies s lines
      | none => ""

def ofLines (c : Calculator) (lines : List String) : String :=
  prompt ++ replies (.start c) lines

end Reckoner.Transcript
