import StationRelay.Binary32

/-!
# The shortest decimal that reads back

The real numbers that round to a finite word form an interval around it: from
half-way to the word below to half-way to the word above, ends included when
the significand is even.  The decimal chosen for the word is a point of the
coarsest grid of powers of ten that has a point in that interval, the nearest
such point, and the even one of two equally near.

All comparisons are between natural numbers.  A word `m * 2 ^ q` and a decimal
`d * 10 ^ k` are compared after multiplication by what clears the negative
powers on both sides.
-/

namespace StationRelay

/-- The number `digits * 10 ^ exponent`. -/
structure Decimal where
  digits : Nat
  exponent : Int
  deriving DecidableEq

namespace Decimal

/-- Four times `2 ^ q` is the unit in which the ends of an interval are whole. -/
def scaledWord (quarters : Nat) (q k : Int) : Nat :=
  quarters * Nat.pow 2 (q - 2).toNat * Nat.pow 10 (-k).toNat

/-- The size of a step of the grid `10 ^ k`, in the same unit. -/
def scaledStep (q k : Int) : Nat :=
  Nat.pow 10 k.toNat * Nat.pow 2 (2 - q).toNat

end Decimal

namespace Binary32

/-- The lower end of the interval of a word, in quarters of its last place. -/
def lowerQuarters (word : Binary32) : Nat :=
  4 * word.significand - (if word.NarrowBelow then 1 else 2)

/-- The upper end of the interval of a word, in quarters of its last place. -/
def upperQuarters (word : Binary32) : Nat :=
  4 * word.significand + 2

/-- A number between two ends; the ends themselves count if they are `closed`. -/
def Between (closed : Prop) (lower point upper : Nat) : Prop :=
  (lower < point ∧ point < upper) ∨ (closed ∧ lower ≤ point ∧ point ≤ upper)

instance (closed : Prop) [Decidable closed] (lower point upper : Nat) :
    Decidable (Between closed lower point upper) :=
  inferInstanceAs (Decidable (_ ∨ _))

/-- The decimal `d * 10 ^ k` rounds to the magnitude of the word. -/
def ReadsBack (word : Binary32) (d : Nat) (k : Int) : Prop :=
  Between (word.significand % 2 = 0)
    (Decimal.scaledWord word.lowerQuarters word.exponent k)
    (d * Decimal.scaledStep word.exponent k)
    (Decimal.scaledWord word.upperQuarters word.exponent k)

instance (word : Binary32) (d : Nat) (k : Int) : Decidable (word.ReadsBack d k) :=
  inferInstanceAs (Decidable (Between _ _ _ _))

/-- The two neighbours of the word on the grid `10 ^ k`, the nearer one first, ties to even. -/
def neighbours (word : Binary32) (k : Int) : Nat × Nat :=
  let value := Decimal.scaledWord (4 * word.significand) word.exponent k
  let step := Decimal.scaledStep word.exponent k
  let below := value / step
  let twice := 2 * (value % step)
  if twice < step ∨ (twice = step ∧ below % 2 = 0) then (below, below + 1)
  else (below + 1, below)

/-- The point of the grid `10 ^ k` that stands for the word, if one reads back. -/
def onGrid? (word : Binary32) (k : Int) : Option Decimal :=
  let (near, far) := word.neighbours k
  if word.ReadsBack near k then some ⟨near, k⟩
  else if word.ReadsBack far k then some ⟨far, k⟩
  else none

/-- Tries the grid `10 ^ k` and up to `finer` finer ones; the last one needs no test. -/
def onCoarsest (word : Binary32) : Nat → Int → Decimal
  | 0, k => ⟨(word.neighbours k).1, k⟩
  | finer + 1, k =>
    match word.onGrid? k with
    | some decimal => decimal
    | none => word.onCoarsest finer (k - 1)

/-- The exponent of a grid whose step passes every finite word. -/
def coarsestGrid : Int := 39

/-- The number of grids from the coarsest one down to `10 ^ (-45)`, whose step is below the
distance of any two words. -/
def finerGrids : Nat := 84

/-- The shortest decimal that reads back as the magnitude of a finite word. -/
def shortest (word : Binary32) : Decimal :=
  if word.significand = 0 then ⟨0, 0⟩ else word.onCoarsest finerGrids coarsestGrid

end Binary32

end StationRelay
