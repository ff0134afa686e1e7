import Reckoner.Except
import Reckoner.Text.CharClass
import Reckoner.Token

namespace Reckoner

inductive LexError
  | unexpectedCharacter (ch : Char) (position : Nat)
  | malformedNumber (lexeme : String) (position : Nat)
  | unterminatedString (position : Nat)
  deriving DecidableEq

def LexError.message : LexError → String
  | unexpectedCharacter ch position =>
      Text.atPosition position ("无法识别的字符 '" ++ String.singleton ch ++ "'")
  | malformedNumber lexeme position => Text.atPosition position ("无效的数字 '" ++ lexeme ++ "'")
  | unterminatedString position =>
      Text.atPosition position "字符串字面量未闭合，缺少 '\"'"

namespace Token

def startsWord (c : Char) : Bool := Text.isLetter c || c == '_'

def continuesWord (c : Char) : Bool := Text.isLetter c || Text.isNumeral c || c == '_'

def isNumberChar (c : Char) : Bool := c.isDigit || c == '.'

def isIdentifier (name : List Char) : Bool :=
  match name with
  | [] => false
  | c :: cs => startsWord c && cs.all continuesWord

def numberValue? (lexeme : List Char) : Option Value :=
  if lexeme.count '.' = 0 then Value.integer <$> Integer.ofInt? (Nat.ofDigitChars 10 lexeme 0)
  else if lexeme.count '.' = 1 ∧ lexeme.getLast? ≠ some '.' then
    Value.decimal <$> Decimal.ofChars? lexeme
  else none

def number (position : Nat) (lexeme : List Char) : Except LexError Token :=
  match numberValue? lexeme with
  | some v => .ok ⟨.number, String.ofList lexeme, position, some v⟩
  | none => .error (.malformedNumber (String.ofList lexeme) position)

def word (position : Nat) (lexeme : List Char) : Token :=
  let s := String.ofList lexeme
  if s == "true" then ⟨.boolean, s, position, some (.boolean true)⟩
  else if s == "false" then ⟨.boolean, s, position, some (.boolean false)⟩
  else ⟨.identifier, s, position, none⟩

/-- The kind and the lexeme of the mark that a text starts with, and the rest. -/
def mark? : List Char → Option (TokenKind × String × List Char)
  | '(' :: r => some (.leftParen, "(", r)
  | ')' :: r => some (.rightParen, ")", r)
  | '=' :: r => some (.assign, "=", r)
  | '+' :: r => some (.operator (.arithmetic .add), "+", r)
  | '-' :: r => some (.operator (.arithmetic .subtract), "-", r)
  | '*' :: r => some (.operator (.arithmetic .multiply), "*", r)
  | '/' :: r => some (.operator (.arithmetic .divide), "/", r)
  | '&' :: '&' :: r => some (.operator (.connective .and), "&&", r)
  | '|' :: '|' :: r => some (.operator (.connective .or), "||", r)
  | _ => none

def front (position : Nat) (c : Char) (cs : List Char) : Except LexError (Token × List Char) :=
  if c.isDigit then do
    let t ← number position (c :: cs.takeWhile isNumberChar)
    .ok (t, cs.dropWhile isNumberChar)
  else if c == '"' then
    let content := cs.takeWhile (· != '"')
    match cs.dropWhile (· != '"') with
    | [] => .error (.unterminatedString position)
    | quote :: r =>
        .ok (⟨.string, String.ofList (c :: content ++ [quote]), position,
          some (.string (String.ofList content))⟩, r)
  else if startsWord c then
    .ok (word position (c :: cs.takeWhile continuesWord), cs.dropWhile continuesWord)
  else
    match mark? (c :: cs) with
    | some (kind, lexeme, r) => .ok (⟨kind, lexeme, position, none⟩, r)
    | none => .error (.unexpectedCharacter c position)

theorem mark?_shorter {c : Char} {cs r : List Char} {k : TokenKind} {s : String}
    (h : mark? (c :: cs) = some (k, s, r)) : r.length ≤ cs.length := by
  unfold mark? at h
  split at h <;> grind

theorem front_shorter {p : Nat} {c : Char} {cs r : List Char} {t : Token}
    (h : front p c cs = .ok (t, r)) : r.length ≤ cs.length := by
  unfold front at h
  split at h
  · obtain ⟨_, _, h⟩ := exists_of_bind_eq_ok h
    simp only [Except.ok.injEq, Prod.mk.injEq] at h
    exact h.2 ▸ (List.dropWhile_sublist _).length_le
  split at h
  · have hl := (List.dropWhile_sublist (· != '"') (l := cs)).length_le
    simp only at h
    split at h
    · cases h
    · rename_i hd
      rw [hd, List.length_cons] at hl
      simp only [Except.ok.injEq, Prod.mk.injEq] at h
      rw [← h.2]; omega
  split at h
  · simp only [Except.ok.injEq, Prod.mk.injEq] at h
    exact h.2 ▸ (List.dropWhile_sublist _).length_le
  split at h
  · rename_i hm
    simp only [Except.ok.injEq, Prod.mk.injEq] at h
    exact h.2 ▸ mark?_shorter hm
  · cases h

theorem rest_shorter {p : Nat} {c : Char} {text cs r : List Char} {t : Token}
    (hd : text.dropWhile Text.isBlank = c :: cs) (hf : front p c cs = .ok (t, r)) :
    r.length < text.length := by
  have hr := front_shorter hf
  have hl := (List.dropWhile_sublist Text.isBlank (l := text)).length_le
  rw [hd, List.length_cons] at hl
  omega

/-- What a text that starts at the position yields: tokens up to the end of the input, or up to the
first error. Nothing comes after either. -/
def scanFrom (position : Nat) (text : List Char) : List (Except LexError Token) :=
  let p := position + Text.width (text.takeWhile Text.isBlank)
  match hd : text.dropWhile Text.isBlank with
  | [] => [.ok (ending p)]
  | c :: cs =>
      match hf : front p c cs with
      | .error e => [.error e]
      | .ok (t, rest) =>
          have := rest_shorter hd hf
          .ok t :: scanFrom t.stop rest
termination_by text.length

def scan (text : String) : List (Except LexError Token) := scanFrom 0 text.toList

def tokenize (text : String) : Except LexError (List Token) := (scan text).mapM id

end Token

end Reckoner
