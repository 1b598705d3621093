import StationRelay.Decimal.Layout
import StationRelay.Json.Text

/-!
# Writing values

Values are written without blanks.  A finite word is written as the shortest
decimal that reads back, an infinity or a NaN as `null`.
-/

namespace StationRelay

namespace Json

/-- Decimals are written positionally from one millionth to below ten million millions. -/
def layout : Decimal.Layout := ⟨-6, 12⟩

def wordChars (word : Binary32) : List Char :=
  if word.Finite then
    (if word.negative then ['-'] else [])
      ++ (if word.significand = 0 then ['0', '.', '0'] else Decimal.toChars layout word.shortest)
  else ['n', 'u', 'l', 'l']

def natChars (n : Nat) : List Char :=
  Decimal.digitChars n

/-- Texts with single commas between them. -/
def commaSeparated : List (List Char) → List Char
  | [] => []
  | [item] => item
  | item :: rest => item ++ ',' :: commaSeparated rest

def arrayChars (items : List (List Char)) : List Char :=
  '[' :: commaSeparated items ++ [']']

def objectChars (members : List (String × List Char)) : List Char :=
  '\x7b' :: commaSeparated (members.map fun (name, value) => quote name ++ ':' :: value)
    ++ ['\x7d']

end Json

end StationRelay
