import Reckoner.Json.Basic

namespace Reckoner.Json

def isSpace (c : Char) : Bool := c == ' ' || c == '\t' || c == '\n' || c == '\r'

def hexDigit? (c : Char) : Option Nat :=
  if c.isDigit then some (c.toNat - '0'.toNat)
  else if 'a' ≤ c ∧ c ≤ 'f' then some (c.toNat - 'a'.toNat + 10)
  else if 'A' ≤ c ∧ c ≤ 'F' then some (c.toNat - 'A'.toNat + 10)
  else none

def hex? (cs : List Char) : Option Nat :=
  cs.foldlM (fun n c => (16 * n + ·) <$> hexDigit? c) 0

def shortEscape? : Char → Option Nat
  | '"' => some 0x22
  | '\\' => some 0x5c
  | '/' => some 0x2f
  | 'b' => some 0x8
  | 'f' => some 0xc
  | 'n' => some 0xa
  | 'r' => some 0xd
  | 't' => some 0x9
  | _ => none

/-- The numbers of the characters up to the closing quote, halves of surrogate pairs included, and
the rest behind it. -/
def readQuoted : List Char → Option (List Nat × List Char)
  | [] => none
  | '"' :: r => some ([], r)
  | '\\' :: 'u' :: a :: b :: c :: d :: r => do
      let n ← hex? [a, b, c, d]
      let (ns, rest) ← readQuoted r
      some (n :: ns, rest)
  | '\\' :: c :: r => do
      let n ← shortEscape? c
      let (ns, rest) ← readQuoted r
      some (n :: ns, rest)
  | c :: r =>
      if c.toNat < 0x20 || c == '\\' then none
      else do
        let (ns, rest) ← readQuoted r
        some (c.toNat :: ns, rest)

def characters? : List Nat → Option (List Char)
  | [] => some []
  | [n] => if n.isValidChar then some [Char.ofNat n] else none
  | n :: k :: r =>
      if 0xd800 ≤ n ∧ n < 0xdc00 ∧ 0xdc00 ≤ k ∧ k < 0xe000 then
        (Char.ofNat (0x10000 + (n - 0xd800) * 0x400 + (k - 0xdc00)) :: ·) <$> characters? r
      else if n.isValidChar then (Char.ofNat n :: ·) <$> characters? (k :: r)
      else none

def digits (cs : List Char) : List Char × List Char :=
  (cs.takeWhile Char.isDigit, cs.dropWhile Char.isDigit)

def readFraction : List Char → Option (Option (List Char) × List Char)
  | '.' :: r =>
      match digits r with
      | ([], _) => none
      | (ds, rest) => some (some ds, rest)
  | r => some (none, r)

def readExponent (cs : List Char) : Option (Option (Bool × List Char) × List Char) :=
  match cs with
  | c :: r =>
      if c == 'e' || c == 'E' then
        let (negative, r) := match r with
          | '-' :: r => (true, r)
          | '+' :: r => (false, r)
          | r => (false, r)
        match digits r with
        | ([], _) => none
        | (ds, rest) => some (some (negative, ds), rest)
      else some (none, cs)
  | [] => some (none, [])

def readNumeral (negative : Bool) (cs : List Char) : Option (Numeral × List Char) := do
  let (whole, r) ← match cs with
    | '0' :: r => some (['0'], r)
    | c :: r => if c.isDigit then some (c :: (digits r).1, (digits r).2) else none
    | [] => none
  let (fraction, r) ← readFraction r
  let (exponent, r) ← readExponent r
  some (⟨negative, whole, fraction, exponent⟩, r)

inductive Piece
  | openArray
  | closeArray
  | openObject
  | closeObject
  | comma
  | colon
  | scalar (j : Json)

def readPiece : List Char → Option (Piece × List Char)
  | '[' :: r => some (.openArray, r)
  | ']' :: r => some (.closeArray, r)
  | '\x7b' :: r => some (.openObject, r)
  | '\x7d' :: r => some (.closeObject, r)
  | ',' :: r => some (.comma, r)
  | ':' :: r => some (.colon, r)
  | 'n' :: 'u' :: 'l' :: 'l' :: r => some (.scalar .null, r)
  | 't' :: 'r' :: 'u' :: 'e' :: r => some (.scalar (.boolean true), r)
  | 'f' :: 'a' :: 'l' :: 's' :: 'e' :: r => some (.scalar (.boolean false), r)
  | '"' :: r => do
      let (ns, rest) ← readQuoted r
      some (.scalar (.string (String.ofList <$> characters? ns)), rest)
  | '-' :: r => do
      let (n, rest) ← readNumeral true r
      some (.scalar (.number n), rest)
  | r => do
      let (n, rest) ← readNumeral false r
      some (.scalar (.number n), rest)

def pieces : Nat → List Char → Option (List Piece)
  | _, [] => some []
  -- Each piece takes one character at least.
  | 0, _ :: _ => none
  | n + 1, c :: cs =>
      if isSpace c then pieces n cs
      else do
        let (p, rest) ← readPiece (c :: cs)
        (p :: ·) <$> pieces n rest

inductive Open
  | array (items : List Json)
  | object (members : List (Option String × Json)) (key : Option String)

/-- Between two pieces: what may come next, inside of the open arrays and objects. -/
inductive Place
  | value (outer : List Open)
  | firstItem (outer : List Open)
  | firstKey (outer : List Open)
  | key (outer : List Open) (members : List (Option String × Json))
  | colon (outer : List Open) (members : List (Option String × Json)) (key : Option String)
  | done (outer : List Open) (j : Json)

namespace Place

def stepValue (outer : List Open) : Piece → Option Place
  | .scalar j => some (done outer j)
  | .openArray => some (firstItem outer)
  | .openObject => some (firstKey outer)
  | _ => none

def stepDone (j : Json) : List Open → Piece → Option Place
  | .array items :: outer, .comma => some (value (.array (j :: items) :: outer))
  | .array items :: outer, .closeArray => some (done outer (.array (j :: items).reverse))
  | .object members k :: outer, .comma => some (key outer ((k, j) :: members))
  | .object members k :: outer, .closeObject =>
      some (done outer (.object ((k, j) :: members).reverse))
  | _, _ => none

def step : Place → Piece → Option Place
  | value outer, p => stepValue outer p
  | firstItem outer, .closeArray => some (done outer (.array []))
  | firstItem outer, p => stepValue (.array [] :: outer) p
  | firstKey outer, .closeObject => some (done outer (.object []))
  | firstKey outer, .scalar (.string k) => some (colon outer [] k)
  | key outer members, .scalar (.string k) => some (colon outer members k)
  | colon outer members k, .colon => some (value (.object members k :: outer))
  | done outer j, p => stepDone j outer p
  | _, _ => none

end Place

def ofText? (s : String) : Option Json := do
  let ps ← pieces s.length s.toList
  match ← ps.foldlM Place.step (.value []) with
  | .done [] j => some j
  | _ => none

end Reckoner.Json
