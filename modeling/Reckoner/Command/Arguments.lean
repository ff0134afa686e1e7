import Reckoner.Command

namespace Reckoner

structure Arguments where
  words : List String := []
  definitions : List String := []
  target : Option Target := none
  ast : Bool := false
  file : Option String := none
  shortCircuit : Bool := false
  maxDepth : Option UInt64 := none

namespace Arguments

def target? : String → Option Target
  | "int" => some (.integer .long)
  | "decimal" => some .decimal
  | "string" => some .string
  | "bool" => some .boolean
  | _ => none

def word? (s : String) : Option UInt64 :=
  let cs := s.toList
  let n := Nat.ofDigitChars 10 cs 0
  if !cs.isEmpty && cs.all Char.isDigit && decide (n < UInt64.size) then some (UInt64.ofNat n)
  else none

def flag? (a : Arguments) : String → Option Arguments
  | "--ast" => some { a with ast := true }
  | "--short-circuit" => some { a with shortCircuit := true }
  | "--verbose" => some a
  | s =>
      match s.toList with
      | '-' :: 'v' :: vs => if vs.all (· == 'v') then some a else none
      | _ => none

def takesValue (name : String) : Bool :=
  ["--var", "--as", "--config", "--max-depth"].contains name

def option? (a : Arguments) (name value : String) : Option Arguments :=
  match name with
  | "--var" => some { a with definitions := a.definitions ++ [value] }
  | "--config" => some { a with file := some value }
  | "--as" => do return { a with target := some (← target? value) }
  | "--max-depth" => do return { a with maxDepth := some (← word? value) }
  | _ => none

/-- Reads the words of a command line, unless it is refused. All words behind two dashes stand
alone. -/
def read? (a : Arguments) : List String → Option Arguments
  | [] => some a
  | "--" :: rest => some { a with words := a.words ++ rest }
  | word :: rest =>
      match flag? a word with
      | some a => read? a rest
      | none =>
          if takesValue word then
            match rest with
            | value :: rest => do read? (← option? a word value) rest
            | [] => none
          else
            match word.toList with
            | '-' :: '-' :: _ => do
                let name := String.ofList (word.toList.takeWhile (· != '='))
                let value := String.ofList ((word.toList.dropWhile (· != '=')).drop 1)
                read? (← option? a name value) rest
            | '-' :: _ :: _ => none
            | _ => read? { a with words := a.words ++ [word] } rest

def command? (a : Arguments) : Option Command :=
  match a.words with
  | ["eval", expression] => some (.eval expression a.definitions a.target a.ast)
  | ["tokens", expression] => some (.tokens expression)
  | ["repl"] => some .repl
  | _ => none

end Arguments

end Reckoner
