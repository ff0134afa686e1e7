import Reckoner.Json.Basic

namespace Reckoner.Json

def escape (c : Char) : List Char :=
  if c == '"' || c == '\\' then ['\\', c]
  else if c == '\n' then ['\\', 'n']
  else if c == '\t' then ['\\', 't']
  else if c == '\r' then ['\\', 'r']
  else if c == '\x08' then ['\\', 'b']
  else if c == '\x0c' then ['\\', 'f']
  else if c.toNat < 0x20 then
    ['\\', 'u', '0', '0', Nat.digitChar (c.toNat / 16), Nat.digitChar (c.toNat % 16)]
  else [c]

def quoted (s : Option String) : List Char :=
  '"' :: (s.getD "").toList.flatMap escape ++ ['"']

def Numeral.chars (n : Numeral) : List Char :=
  (if n.negative then ['-'] else []) ++ n.whole ++ (n.fraction.map ('.' :: ·)).getD [] ++
    (n.exponent.map fun (negative, ds) => 'e' :: (if negative then '-' :: ds else ds)).getD []

mutual

/-- A document in front of a text, without blanks. -/
def write : Json → List Char → List Char
  | null, r => 'n' :: 'u' :: 'l' :: 'l' :: r
  | boolean true, r => 't' :: 'r' :: 'u' :: 'e' :: r
  | boolean false, r => 'f' :: 'a' :: 'l' :: 's' :: 'e' :: r
  | number n, r => n.chars ++ r
  | string s, r => quoted s ++ r
  | array [], r => '[' :: ']' :: r
  | array (j :: js), r => '[' :: write j (writeItems js r)
  | object [], r => '\x7b' :: '\x7d' :: r
  | object ((key, j) :: ms), r => '\x7b' :: quoted key ++ ':' :: write j (writeMembers ms r)

def writeItems : List Json → List Char → List Char
  | [], r => ']' :: r
  | j :: js, r => ',' :: write j (writeItems js r)

def writeMembers : List (Option String × Json) → List Char → List Char
  | [], r => '\x7d' :: r
  | (key, j) :: ms, r => ',' :: quoted key ++ ':' :: write j (writeMembers ms r)

end

def compact (j : Json) : String := String.ofList (j.write [])

end Reckoner.Json
