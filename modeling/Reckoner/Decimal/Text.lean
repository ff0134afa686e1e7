import Reckoner.Decimal.Basic

namespace Reckoner.Decimal

def lastDigits : Nat → Nat → List Char
  | 0, _ => []
  | k + 1, n => lastDigits k (n / 10) ++ [Nat.digitChar (n % 10)]

theorem length_lastDigits (k n : Nat) : (lastDigits k n).length = k := by
  induction k generalizing n with
  | zero => rfl
  | succ k ih => simp [lastDigits, ih]

def chars (d : Decimal) : List Char :=
  (if d.negative then ['-'] else []) ++ Nat.toDigits 10 (d.mantissa / tenPow d.scale) ++
    (if d.scale = 0 then [] else '.' :: lastDigits d.scale d.mantissa)

def text (d : Decimal) : String := String.ofList d.chars

/-- What has been read of an unsigned numeral: its digits as a number, how many stood behind the
point, and whether there was a point, and a digit, at all. -/
structure Numeral where
  mantissa : Nat
  scale : Nat
  point : Bool
  started : Bool

namespace Numeral

def empty : Numeral := ⟨0, 0, false, false⟩

def digit? (c : Char) : Option Nat :=
  if c.isDigit then some (c.toNat - '0'.toNat) else none

def isFiller (c : Char) : Bool := c.isDigit || c == '_'

/-- Ends the numeral in front of characters that no longer fit: their first digit rounds up from 5
on, and the others count for nothing. -/
def round (n : Numeral) (c : Char) (cs : List Char) : Option (Nat × Nat) :=
  if !(c :: cs).all isFiller then none
  else if ((c :: cs).findSome? digit?).getD 0 < 5 then some (n.mantissa, n.scale)
  else if Fits (n.mantissa + 1) then some (n.mantissa + 1, n.scale)
  else if n.scale = 0 then none
  else some ((n.mantissa + 5) / 10, n.scale - 1)

def read (n : Numeral) : List Char → Option (Nat × Nat)
  | [] => if n.started then some (n.mantissa, n.scale) else none
  | c :: cs =>
      if n.scale = 28 then n.round c cs
      else
        match digit? c with
        | some d =>
            let m := 10 * n.mantissa + d
            if Fits m then read ⟨m, if n.point then n.scale + 1 else n.scale, n.point, true⟩ cs
            else if n.point then n.round c cs
            else none
        | none =>
            if c == '.' && !n.point then read { n with point := true } cs
            else if c == '_' && n.started then read n cs
            else none

end Numeral

def ofChars? (cs : List Char) : Option Decimal :=
  let (negative, body) :=
    match cs with
    | '-' :: r => (true, r)
    | '+' :: r => (false, r)
    | r => (false, r)
  match Numeral.empty.read body with
  -- Zero has no sign here.
  | some (m, k) => ofParts? (negative && m != 0) m k
  | none => none

def exponent? (cs : List Char) : Option Nat :=
  let ds := match cs with
    | '+' :: r => r
    | r => r
  if ds.isEmpty || !ds.all Char.isDigit then none
  else
    let n := Nat.ofDigitChars 10 ds 0
    if n ≤ 28 then some n else none

def roundTo (d : Decimal) (k : Nat) : Nat :=
  -- A half goes away from zero.
  (d.mantissa + 5 * tenPow (d.scale - k) / 10) / tenPow (d.scale - k)

def shrink? (d : Decimal) (e : Nat) : Option Decimal :=
  if d.scale + e ≤ 28 then ofParts? d.negative d.mantissa (d.scale + e)
  else ofParts? d.negative (d.roundTo (28 - e)) 28

def grow? (d : Decimal) (e : Nat) : Option Decimal :=
  if e ≤ d.scale then ofParts? d.negative d.mantissa (d.scale - e)
  else ofParts? d.negative (d.mantissa * tenPow (e - d.scale)) 0

def ofScientific? (cs : List Char) : Option Decimal :=
  let isMark : Char → Bool := fun c => c == 'e' || c == 'E'
  match cs.span fun c => !isMark c with
  | (base, _ :: e) => do
      let d ← ofChars? base
      match e with
      | '-' :: r => shrink? d (← exponent? r)
      | '+' :: r => grow? d (← exponent? r)
      | r => grow? d (← exponent? r)
  | _ => none

def ofText? (s : String) : Option Decimal :=
  (ofChars? s.toList).or (ofScientific? s.toList)

end Reckoner.Decimal
