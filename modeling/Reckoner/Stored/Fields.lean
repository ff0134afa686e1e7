import Reckoner.Json.Basic

namespace Reckoner.Json

/-- The members of the given names. Others are passed over, but none of these may come twice, and
each key must be a text. -/
def members? (names : List String) (members : List (Option String × Json)) :
    Option (List (Option Json)) :=
  if members.any (·.1.isNone) then none
  else
    names.mapM fun name =>
      match members.filter (·.1 == some name) with
      | [] => some none
      | [m] => some (some m.2)
      | _ => none

def fields? (names : List String) : Json → Option (List (Option Json))
  | object members => members? names members
  | array items =>
      if items.length ≤ names.length then
        some (items.map some ++ List.replicate (names.length - items.length) none)
      else none
  | _ => none

def variant? : Json → Option (String × Option Json)
  | string (some name) => some (name, none)
  | object [(some name, content)] => some (name, some content)
  | _ => none

def text? : Json → Option String
  | string s => s
  | _ => none

def boolean? : Json → Option Bool
  | boolean b => some b
  | _ => none

def whole? : Json → Option Int
  | number n => n.whole?
  | _ => none

def word? (j : Json) : Option UInt64 := do
  let n ← j.whole?
  if 0 ≤ n ∧ n.toNat < UInt64.size then some (UInt64.ofNat n.toNat) else none

end Reckoner.Json
