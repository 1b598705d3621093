import StationRelay.Decimal.Shortest

/-!
# How a decimal is laid out

A decimal whose leading digit has an exponent within the limits of a layout is
written positionally, with a fraction even where it is zero.  Any other is
written with one digit before the point, no point where there is only one
digit, and a signed exponent.
-/

namespace StationRelay

namespace Decimal

/-- The exponents of the leading digit that are written positionally. -/
structure Layout where
  lowest : Int
  highest : Int
  deriving DecidableEq

def digitChars (n : Nat) : List Char :=
  Nat.toDigits 10 n

def leadingExponent (decimal : Decimal) : Int :=
  decimal.exponent + (digitChars decimal.digits).length - 1

/-- A fraction, which has at least one digit. -/
def fractionChars (digits : List Char) : List Char :=
  if digits.isEmpty then ['0'] else digits

/-- The positional form of digits whose first one has exponent `leading`. -/
def positional (digits : List Char) (leading : Int) : List Char :=
  if leading < 0 then
    ['0', '.'] ++ List.replicate (-leading - 1).toNat '0' ++ digits
  else
    let whole := leading.toNat + 1
    digits.take whole ++ List.replicate (whole - digits.length) '0'
      ++ '.' :: fractionChars (digits.drop whole)

def exponentChars (exponent : Int) : List Char :=
  (if exponent < 0 then '-' else '+') :: digitChars exponent.natAbs

/-- The form with one digit before the point and an exponent. -/
def scientific (digits : List Char) (leading : Int) : List Char :=
  digits.take 1 ++ (if digits.length ≤ 1 then [] else '.' :: digits.drop 1)
    ++ 'e' :: exponentChars leading

def toChars (layout : Layout) (decimal : Decimal) : List Char :=
  let digits := digitChars decimal.digits
  let leading := decimal.leadingExponent
  if layout.lowest ≤ leading ∧ leading ≤ layout.highest then positional digits leading
  else scientific digits leading

end Decimal

end StationRelay
