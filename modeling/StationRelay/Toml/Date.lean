/-!
# Dates and times

A date is a day, a time of day, or both with an offset or without one.  The day
must exist, and the time may have a leap second.
-/

namespace StationRelay

namespace Toml

def isDecimal (c : Char) : Bool :=
  '0' ≤ c && c ≤ '9'

def fixedNumber? (count : Nat) (text : List Char) : Option (Nat × List Char) :=
  let digits := text.take count
  if digits.length = count ∧ digits.all isDecimal then
    some (digits.foldl (fun n c => 10 * n + (c.toNat - '0'.toNat)) 0, text.drop count)
  else none

def bounded? (low high : Nat) (text : List Char) : Option (Nat × List Char) :=
  (fixedNumber? 2 text).filter fun (n, _) => low ≤ n && n ≤ high

def expect? (c : Char) : List Char → Option (List Char)
  | head :: rest => if head = c then some rest else none
  | [] => none

def isLeapYear (year : Nat) : Bool :=
  year % 4 = 0 && (year % 100 ≠ 0 || year % 400 = 0)

def daysInMonth (year month : Nat) : Nat :=
  if month = 2 then if isLeapYear year then 29 else 28
  else if month = 4 ∨ month = 6 ∨ month = 9 ∨ month = 11 then 30
  else 31

def skipDay? (text : List Char) : Option (List Char) := do
  let (year, text) ← fixedNumber? 4 text
  let (month, text) ← bounded? 1 12 (← expect? '-' text)
  let (_, text) ← bounded? 1 (daysInMonth year month) (← expect? '-' text)
  return text

def skipFraction : List Char → List Char
  | '.' :: c :: rest => if isDecimal c then rest.dropWhile isDecimal else '.' :: c :: rest
  | text => text

def skipTime? (text : List Char) : Option (List Char) := do
  let (_, text) ← bounded? 0 23 text
  let (_, text) ← bounded? 0 59 (← expect? ':' text)
  let (_, text) ← bounded? 0 60 (← expect? ':' text)
  return skipFraction text

def skipOffset? : List Char → Option (List Char)
  | c :: rest =>
    if c = 'Z' ∨ c = 'z' then some rest
    else if c = '+' ∨ c = '-' then do
      let (_, text) ← bounded? 0 23 rest
      let (_, text) ← bounded? 0 59 (← expect? ':' text)
      return text
    else none
  | [] => none

/-- What follows the time behind a day; without a time, what follows the day. -/
def skipDayTime (text : List Char) : List Char :=
  match text with
  | c :: rest =>
    if c = 'T' ∨ c = 't' ∨ c = ' ' then
      match skipTime? rest with
      | some after => (skipOffset? after).getD after
      | none => text
    else text
  | [] => []

/-- What follows a date of any form. -/
def skipDate? (text : List Char) : Option (List Char) :=
  match skipDay? text with
  | some rest => some (skipDayTime rest)
  | none => skipTime? text

end Toml

end StationRelay
