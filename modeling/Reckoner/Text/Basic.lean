namespace Reckoner.Text

def ofNat (n : Nat) : String := String.ofList (Nat.toDigits 10 n)

def width : List Char → Nat
  | [] => 0
  | c :: cs => c.utf8Size + width cs

def atPosition (position : Nat) (remark : String) : String :=
  "位置 " ++ ofNat position ++ "：" ++ remark

/-- Takes the leftmost occurrence of a word out of a text that has one. -/
def removeFirst (word : List Char) : List Char → List Char
  | [] => []
  | c :: cs =>
      match word.isPrefixOf? (c :: cs) with
      | some rest => rest
      | none => c :: removeFirst word cs

theorem removeFirst_nil (s : List Char) : removeFirst [] s = s := by
  cases s <;> rfl

def remove (text word : String) : String :=
  String.ofList (removeFirst word.toList text.toList)

end Reckoner.Text
