import StationRelay.Bytes.Hex

/-!
# Numbers

An integer is decimal, with a sign and without zeros in front, or hexadecimal,
octal or binary behind its mark.  A float has a fraction, an exponent or both
behind a decimal integer, or is infinite or no number.  Single underscores may
stand between digits.  Integers have 64 bits, and a positive float must not
exceed the largest double.
-/

namespace StationRelay

namespace Toml

/-- The value of a digit of a base up to sixteen; a letter may be of either case. -/
def digit? (base : Nat) (c : Char) : Option Nat :=
  (Hex.value? c).filter (· < base)

/-- The digits behind the first one, with single underscores between them, and what follows. -/
def moreDigits? (base : Nat) : List Char → Option (List Nat × List Char)
  | [] => some ([], [])
  | '_' :: c :: rest =>
    match digit? base c with
    | none => none
    | some d => (moreDigits? base rest).map fun (ds, after) => (d :: ds, after)
  | '_' :: [] => none
  | c :: rest =>
    match digit? base c with
    | none => some ([], c :: rest)
    | some d => (moreDigits? base rest).map fun (ds, after) => (d :: ds, after)

def someDigits? (base : Nat) : List Char → Option (List Nat × List Char)
  | [] => none
  | c :: rest =>
    match digit? base c with
    | none => none
    | some d => (moreDigits? base rest).map fun (ds, after) => (d :: ds, after)

def ofDigits (base : Nat) (digits : List Nat) : Nat :=
  digits.foldl (fun n d => base * n + d) 0

/-- Whether a minus stands in front, and what follows the sign, if there is one. -/
def sign : List Char → Bool × List Char
  | '+' :: rest => (false, rest)
  | '-' :: rest => (true, rest)
  | text => (false, text)

/-- The digits of a decimal integer: a zero alone, or digits that do not start with one. -/
def wholeDigits? : List Char → Option (List Nat × List Char)
  | '0' :: rest => some ([0], rest)
  | text => someDigits? 10 text

/-- The integer with this sign and magnitude, if it has 64 bits. -/
def signed? (isNegative : Bool) (magnitude : Nat) : Option Int :=
  if isNegative then if magnitude ≤ 0x8000000000000000 then some (-magnitude) else none
  else if magnitude < 0x8000000000000000 then some magnitude else none

/-- An integer of another base behind its mark. -/
def marked? (base : Nat) (text : List Char) : Option (Int × List Char) := do
  let (digits, rest) ← someDigits? base text
  let value ← signed? false (ofDigits base digits)
  return (value, rest)

def integer? : List Char → Option (Int × List Char)
  | '0' :: 'x' :: rest => marked? 16 rest
  | '0' :: 'o' :: rest => marked? 8 rest
  | '0' :: 'b' :: rest => marked? 2 rest
  | text => do
    let (isNegative, unsigned) := sign text
    let (digits, rest) ← wholeDigits? unsigned
    let value ← signed? isNegative (ofDigits 10 digits)
    return (value, rest)

/-- The digits of a fraction, or none if there is no point. -/
def fraction? : List Char → Option (List Nat × List Char)
  | '.' :: rest => someDigits? 10 rest
  | text => some ([], text)

/-- An exponent, or zero if there is none. -/
def exponent? : List Char → Option (Int × List Char)
  | c :: rest =>
    if c = 'e' ∨ c = 'E' then do
      let (isNegative, unsigned) := sign rest
      let (digits, after) ← someDigits? 10 unsigned
      let magnitude : Int := ofDigits 10 digits
      return (if isNegative then -magnitude else magnitude, after)
    else some (0, c :: rest)
  | [] => some (0, [])

/-- The least number that a double rounds to infinity. -/
def overflowBound : Nat := Nat.pow 2 1024 - Nat.pow 2 970

/-- The number with these digits and this power of ten is infinite as a double.  Far from the
bound the number of digits decides alone. -/
def overflows (digits : List Nat) (power : Int) : Bool :=
  let significant := digits.dropWhile (· = 0)
  let size : Int := significant.length + power
  let value := ofDigits 10 significant
  if significant.isEmpty || size < 300 then false
  else if 320 < size then true
  else if 0 ≤ power then overflowBound ≤ value * Nat.pow 10 power.toNat
  else overflowBound * Nat.pow 10 (-power).toNat ≤ value

def finiteFloat? (text : List Char) : Option (List Char) := do
  let (isNegative, unsigned) := sign text
  let (whole, afterWhole) ← wholeDigits? unsigned
  let (fraction, afterFraction) ← fraction? afterWhole
  let (exponent, rest) ← exponent? afterFraction
  if rest.length = afterWhole.length then none
  else if !isNegative && overflows (whole ++ fraction) (exponent - fraction.length) then none
  else some rest

/-- What follows a float that is not finite. -/
def specialFloat? (text : List Char) : Option (List Char) :=
  match (sign text).2 with
  | 'i' :: 'n' :: 'f' :: rest => some rest
  | 'n' :: 'a' :: 'n' :: rest => some rest
  | _ => none

def skipFloat? (text : List Char) : Option (List Char) :=
  (finiteFloat? text).or (specialFloat? text)

end Toml

end StationRelay
