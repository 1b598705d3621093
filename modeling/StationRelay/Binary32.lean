/-!
# 32-bit floating-point words

Readings carry their numbers as IEEE 754 words.  A word is kept as its bits, so
that two words are equal when their bits are, and a NaN keeps its payload.  A
finite word stands for `significand * 2 ^ exponent`, with a sign in front.
-/

namespace StationRelay

/-- A 32-bit word that holds a floating-point number; every bit pattern is a value of its own. -/
structure Binary32 where
  bits : UInt32
  deriving DecidableEq

namespace Binary32

def negative (word : Binary32) : Bool :=
  decide (0x80000000 ≤ word.bits.toNat)

def biasedExponent (word : Binary32) : Nat :=
  word.bits.toNat / 0x800000 % 256

def fraction (word : Binary32) : Nat :=
  word.bits.toNat % 0x800000

def Finite (word : Binary32) : Prop :=
  word.biasedExponent ≠ 255

instance (word : Binary32) : Decidable word.Finite :=
  inferInstanceAs (Decidable (_ ≠ _))

/-- The integer that the exponent scales; a subnormal word has no implicit bit. -/
def significand (word : Binary32) : Nat :=
  if word.biasedExponent = 0 then word.fraction else 0x800000 + word.fraction

def exponent (word : Binary32) : Int :=
  (max word.biasedExponent 1 : Nat) - 150

/--
The word below is only half as far away as the word above.  So it is just
above a power of two, save at the smallest normal number.
-/
def NarrowBelow (word : Binary32) : Prop :=
  word.fraction = 0 ∧ 1 < word.biasedExponent

instance (word : Binary32) : Decidable word.NarrowBelow :=
  inferInstanceAs (Decidable (_ ∧ _))

end Binary32

end StationRelay
