import StationRelay.Json

/-!
# Number literals

A literal without sign, fraction and exponent is a natural number.  Any other
literal, and a natural number of more than 64 bits, is read as a double, and is
refused when it is too large for one.

The double is found from at most 64 bits of significand: later digits only
count as a power of ten.  The significand and the power of ten are each rounded
to 53 bits before they are multiplied, and the product is too large when it
rounds to `2 ^ 1024`.
-/

namespace StationRelay

namespace Json

namespace Number

def digit? (b : UInt8) : Option Nat :=
  if 48 ≤ b ∧ b ≤ 57 then some (b.toNat - 48) else none

def ofDigits (digits : List Nat) : Nat :=
  digits.foldl (fun n d => 10 * n + d) 0

/-- No sign, fraction or exponent. -/
def isPlain (literal : Number) : Bool :=
  !literal.negative && literal.fraction.isEmpty && literal.exponent.isNone

/-- The least number that does not fit 64 bits. -/
def wordBound : Nat := 0x10000000000000000

/-- The natural number a plain literal of at most 64 bits stands for. -/
def word? (literal : Number) : Option Nat :=
  if literal.isPlain ∧ ofDigits literal.whole < wordBound then some (ofDigits literal.whole)
  else none

def byte? (literal : Number) : Option UInt8 :=
  match literal.word? with
  | some n => if n < 256 then some (UInt8.ofNat n) else none
  | none => none

/-- A significand of at most 64 bits and a power of ten. -/
structure Scaled where
  significand : Nat
  exponent : Int
  deriving DecidableEq

/-- The significand with one more digit still fits 64 bits. -/
def Scaled.Takes (scaled : Scaled) (digit : Nat) : Prop :=
  10 * scaled.significand + digit < wordBound

instance (scaled : Scaled) (digit : Nat) : Decidable (scaled.Takes digit) :=
  inferInstanceAs (Decidable (_ < _))

/-- Takes digits before the point; from the first that does not fit, each counts as a power. -/
def Scaled.takeWhole (scaled : Scaled) : List Nat → Scaled
  | [] => scaled
  | d :: rest =>
    if scaled.Takes d then Scaled.takeWhole ⟨10 * scaled.significand + d, scaled.exponent⟩ rest
    else ⟨scaled.significand, scaled.exponent + (rest.length + 1 : Nat)⟩

/-- Takes digits after the point; from the first that does not fit, all are dropped. -/
def Scaled.takeFraction (scaled : Scaled) : List Nat → Scaled
  | [] => scaled
  | d :: rest =>
    if scaled.Takes d then
      Scaled.takeFraction ⟨10 * scaled.significand + d, scaled.exponent - 1⟩ rest
    else scaled

def writtenExponent (literal : Number) : Int :=
  match literal.exponent with
  | none => 0
  | some (negative, digits) => if negative then -(ofDigits digits : Int) else ofDigits digits

def scaled (literal : Number) : Scaled :=
  let mantissa := (Scaled.takeWhole ⟨0, 0⟩ literal.whole).takeFraction literal.fraction
  ⟨mantissa.significand, mantissa.exponent + literal.writtenExponent⟩

/-- The nearest number with at most `bits` significant bits, ties to even. -/
def roundToBits (bits n : Nat) : Nat :=
  let shift := Nat.log2 n + 1 - bits
  let unit := Nat.pow 2 shift
  let below := n / unit
  let twice := 2 * (n % unit)
  if twice < unit ∨ (twice = unit ∧ below % 2 = 0) then below * unit else (below + 1) * unit

def maxPower : Int := 308

/-- The least number that rounds to a number too large for a double. -/
def overflowBound : Nat := Nat.pow 2 1024 - Nat.pow 2 970

/-- The literal is within the range of a double. -/
def InRange (literal : Number) : Prop :=
  let scaled := literal.scaled
  scaled.significand = 0 ∨ scaled.exponent < 0 ∨
    (scaled.exponent ≤ maxPower ∧
      roundToBits 53 scaled.significand * roundToBits 53 (Nat.pow 10 scaled.exponent.toNat)
        < overflowBound)

instance (literal : Number) : Decidable literal.InRange :=
  inferInstanceAs (Decidable (_ ∨ _ ∨ (_ ∧ _)))

end Number

end Json

end StationRelay
