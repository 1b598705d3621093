import StationRelay.Bytes

/-!
# Hexadecimal digits

Digits are read in either case and written in the case the place calls for:
lower case in identifiers, upper case in messages about a byte.
-/

namespace StationRelay

namespace Hex

def digit (n : Nat) : Char :=
  if n < 10 then Char.ofNat (48 + n) else Char.ofNat (87 + n)

def upperDigit (n : Nat) : Char :=
  if n < 10 then Char.ofNat (48 + n) else Char.ofNat (55 + n)

/-- The number a digit stands for, in either case. -/
def value? (c : Char) : Option Nat :=
  if '0' ≤ c ∧ c ≤ '9' then some (c.toNat - 48)
  else if 'a' ≤ c ∧ c ≤ 'f' then some (c.toNat - 87)
  else if 'A' ≤ c ∧ c ≤ 'F' then some (c.toNat - 55)
  else none

def encode (bytes : Bytes) : List Char :=
  bytes.flatMap fun b => [digit (b.toNat / 16), digit (b.toNat % 16)]

/-- Reads pairs of digits as bytes; an odd digit or another character is refused. -/
def decode? : List Char → Option Bytes
  | [] => some []
  | [_] => none
  | high :: low :: rest => do
    let h ← value? high
    let l ← value? low
    let bytes ← decode? rest
    return UInt8.ofNat (16 * h + l) :: bytes

/-- A byte as `0x` and two upper-case digits. -/
def byteText (b : UInt8) : String :=
  String.ofList ['0', 'x', upperDigit (b.toNat / 16), upperDigit (b.toNat % 16)]

end Hex

end StationRelay
