import Mathlib.Algebra.Order.Field.Power
import Mathlib.Data.Rat.Cast.Order
import Mathlib.Order.Monotone.Basic
import Mathlib.Tactic.FieldSimp
import Mathlib.Tactic.Linarith
import Mathlib.Tactic.NormNum
import Mathlib.Tactic.Positivity
import Mathlib.Tactic.Ring
import StationRelay.Decimal.Shortest

/-!
# Rounding to 32-bit words

Without its sign a word is a number of 31 bits, its place among the magnitudes:
the magnitude of the next place is further by the power of two that scales the
significand.  `Rounds` says to which word a number is rounded, and by
`Rounds.eq` there is only one: two words that are equally near are next to each
other, and only one of them has an even significand.  `rounds_shortest` says
that the decimal written for a word is rounded to that word.
-/

namespace StationRelay

/-! ## Places -/

def significandAt (place : Nat) : Nat :=
  if place / 0x800000 = 0 then place % 0x800000 else 0x800000 + place % 0x800000

def exponentAt (place : Nat) : Int :=
  (max (place / 0x800000) 1 : Nat) - 150

def magnitudeAt (place : Nat) : ℚ :=
  significandAt place * 2 ^ exponentAt place

theorem significandAt_mod_two (place : Nat) : significandAt place % 2 = place % 2 := by
  unfold significandAt
  split <;> omega

/-- One place further is further by one unit in the last place. -/
theorem magnitudeAt_succ (place : Nat) :
    magnitudeAt (place + 1) = magnitudeAt place + 2 ^ exponentAt place := by
  unfold magnitudeAt
  by_cases carries : place % 0x800000 = 0x7FFFFF ∧ place / 0x800000 ≠ 0
  · have whole : significandAt place = 0xFFFFFF := by
      rw [significandAt, if_neg carries.2]
      omega
    have next : significandAt (place + 1) = 0x800000 := by
      rw [significandAt, if_neg (by omega)]
      omega
    have scaled : exponentAt (place + 1) = exponentAt place + 1 := by
      unfold exponentAt
      omega
    rw [whole, next, scaled, zpow_add_one₀ two_ne_zero]
    push_cast
    ring
  · have next : significandAt (place + 1) = significandAt place + 1 := by
      unfold significandAt
      split <;> split <;> omega
    have scaled : exponentAt (place + 1) = exponentAt place := by
      unfold exponentAt
      omega
    rw [next, scaled]
    push_cast
    ring

theorem strictMono_magnitudeAt : StrictMono magnitudeAt := by
  refine strictMono_nat_of_lt_succ fun place => ?_
  rw [magnitudeAt_succ]
  have unit : (0 : ℚ) < 2 ^ exponentAt place := by positivity
  linarith

def Decimal.value (decimal : Decimal) : ℚ :=
  decimal.digits * 10 ^ decimal.exponent

namespace Binary32

/-! ## Words -/

/-- The place of a word among the magnitudes: its bits without the sign. -/
def place (word : Binary32) : Nat :=
  word.bits.toNat % 0x80000000

def magnitude (word : Binary32) : ℚ :=
  word.significand * 2 ^ word.exponent

def ofPlace (place : Nat) : Binary32 :=
  ⟨UInt32.ofNat place⟩

variable {word other : Binary32} {x : ℚ}

theorem biasedExponent_eq (word : Binary32) : word.biasedExponent = word.place / 0x800000 := by
  unfold biasedExponent place
  omega

theorem fraction_eq (word : Binary32) : word.fraction = word.place % 0x800000 := by
  unfold fraction place
  omega

theorem significand_eq (word : Binary32) : word.significand = significandAt word.place := by
  rw [significand, significandAt, biasedExponent_eq, fraction_eq]

theorem exponent_eq (word : Binary32) : word.exponent = exponentAt word.place := by
  rw [exponent, exponentAt, biasedExponent_eq]

theorem magnitude_eq (word : Binary32) : word.magnitude = magnitudeAt word.place := by
  rw [magnitude, magnitudeAt, significand_eq, exponent_eq]

theorem finite_iff : word.Finite ↔ word.place < 0x7F800000 := by
  unfold Finite biasedExponent place
  have small := word.bits.toNat_lt
  omega

theorem place_ofPlace {place : Nat} (inside : place < 0x80000000) :
    (ofPlace place).place = place := by
  unfold ofPlace Binary32.place
  rw [UInt32.toNat_ofNat']
  omega

/-- A word is its sign and its place. -/
theorem eq_of_place_eq (sign : word.negative = other.negative) (same : word.place = other.place) :
    word = other := by
  obtain ⟨bits⟩ := word
  obtain ⟨more⟩ := other
  unfold negative at sign
  unfold place at same
  have small := bits.toNat_lt
  have smallToo := more.toNat_lt
  rw [decide_eq_decide] at sign
  dsimp only at sign same
  have equal : bits.toNat = more.toNat := by omega
  rw [UInt32.toNat_inj.mp equal]

/-! ## The nearest word -/

/-- A number that is not negative is rounded to the magnitude of this word: it is in range, no
finite word is nearer, and of two that are equally near the significand is even. -/
structure Rounds (x : ℚ) (word : Binary32) : Prop where
  finite : word.Finite
  inRange : x < 2 ^ 128 - 2 ^ 103
  nearest : ∀ other : Binary32, other.Finite → |x - word.magnitude| ≤ |x - other.magnitude|
  even : ∀ other : Binary32, other.Finite → other.magnitude ≠ word.magnitude →
    |x - other.magnitude| = |x - word.magnitude| → word.significand % 2 = 0

/-- Two words that a number is rounded to have one place. -/
theorem Rounds.not_lt (rounds : Rounds x word) (roundsToo : Rounds x other) :
    ¬ word.place < other.place := by
  intro before
  have less : word.magnitude < other.magnitude := by
    rw [magnitude_eq, magnitude_eq]
    exact strictMono_magnitudeAt before
  have asNear : |x - word.magnitude| = |x - other.magnitude| :=
    le_antisymm (rounds.nearest other roundsToo.finite) (roundsToo.nearest word rounds.finite)
  -- The number is in the middle, so any word between the two is nearer.
  have middle : 2 * x = word.magnitude + other.magnitude := by
    rcases abs_eq_abs.mp asNear with same | opposite
    · linarith
    · linarith
  by_cases adjacent : other.place = word.place + 1
  · have even := rounds.even other roundsToo.finite less.ne' asNear.symm
    have evenToo := roundsToo.even word rounds.finite less.ne asNear
    rw [significand_eq, significandAt_mod_two] at even evenToo
    omega
  · have bound := finite_iff.mp roundsToo.finite
    have between : (ofPlace (word.place + 1)).place = word.place + 1 := place_ofPlace (by omega)
    have finite : (ofPlace (word.place + 1)).Finite := by
      rw [finite_iff, between]
      omega
    have above : word.magnitude < (ofPlace (word.place + 1)).magnitude := by
      rw [magnitude_eq, magnitude_eq, between]
      exact strictMono_magnitudeAt (Nat.lt_succ_self _)
    have below : (ofPlace (word.place + 1)).magnitude < other.magnitude := by
      rw [magnitude_eq, magnitude_eq, between]
      exact strictMono_magnitudeAt (by omega)
    have nearest := rounds.nearest _ finite
    rw [abs_of_pos (by linarith : 0 < x - word.magnitude)] at nearest
    rcases le_abs'.mp nearest with far | far <;> linarith

/-- A number is rounded to one word of each sign. -/
theorem Rounds.eq (rounds : Rounds x word) (roundsToo : Rounds x other)
    (sign : word.negative = other.negative) : word = other := by
  have first := rounds.not_lt roundsToo
  have second := roundsToo.not_lt rounds
  exact eq_of_place_eq sign (by omega)

/-! ## The interval of a word -/

def lowerEnd (word : Binary32) : ℚ :=
  word.lowerQuarters * 2 ^ (word.exponent - 2)

def upperEnd (word : Binary32) : ℚ :=
  word.upperQuarters * 2 ^ (word.exponent - 2)

/-- The number is in the interval of the word, to which the ends belong if the significand is
even. -/
def Holds (word : Binary32) (x : ℚ) : Prop :=
  (word.lowerEnd < x ∧ x < word.upperEnd) ∨
    (word.significand % 2 = 0 ∧ word.lowerEnd ≤ x ∧ x ≤ word.upperEnd)

theorem Holds.ends (holds : word.Holds x) : word.lowerEnd ≤ x ∧ x ≤ word.upperEnd := by
  rcases holds with ⟨above, below⟩ | ⟨-, above, below⟩
  · exact ⟨above.le, below.le⟩
  · exact ⟨above, below⟩

theorem quarter (exponent : Int) : (2 : ℚ) ^ exponent = 4 * 2 ^ (exponent - 2) := by
  rw [zpow_sub₀ two_ne_zero]
  ring

/-- The upper end is in the middle to the next place. -/
theorem two_mul_upperEnd (word : Binary32) :
    2 * word.upperEnd = word.magnitude + magnitudeAt (word.place + 1) := by
  rw [magnitudeAt_succ, ← exponent_eq, ← magnitude_eq, magnitude, upperEnd, upperQuarters,
    quarter word.exponent]
  push_cast
  ring

/-- The lower end is in the middle to the place before. -/
theorem two_mul_lowerEnd {place : Nat} (behind : word.place = place + 1) :
    2 * word.lowerEnd = magnitudeAt place + word.magnitude := by
  have step := magnitudeAt_succ place
  rw [← behind, ← magnitude_eq] at step
  have positive : 0 < word.significand := by
    rw [significand_eq, behind, significandAt]
    split <;> omega
  rw [lowerEnd, lowerQuarters]
  by_cases narrow : word.NarrowBelow
  · -- Above a power of two the place before is only half as far.
    have scaled : exponentAt place = word.exponent - 1 := by
      obtain ⟨none, normal⟩ := narrow
      rw [fraction_eq] at none
      rw [biasedExponent_eq] at normal
      rw [exponent_eq]
      unfold exponentAt
      omega
    rw [scaled, zpow_sub_one₀ two_ne_zero, quarter word.exponent] at step
    rw [if_pos narrow, Nat.cast_sub (by omega)]
    rw [magnitude, quarter word.exponent] at step ⊢
    push_cast
    linarith
  · have scaled : exponentAt place = word.exponent := by
      rw [NarrowBelow, fraction_eq, biasedExponent_eq] at narrow
      rw [exponent_eq]
      unfold exponentAt
      omega
    rw [scaled, quarter word.exponent] at step
    rw [if_neg narrow, Nat.cast_sub (by omega)]
    rw [magnitude, quarter word.exponent] at step ⊢
    push_cast
    linarith

/-- Below the upper end the words of higher places are further. -/
theorem near_of_le_upperEnd (inside : x ≤ word.upperEnd) (higher : word.place < other.place) :
    |x - word.magnitude| ≤ |x - other.magnitude| ∧
      (x < word.upperEnd → |x - word.magnitude| < |x - other.magnitude|) := by
  have middle := word.two_mul_upperEnd
  have next : magnitudeAt (word.place + 1) ≤ other.magnitude := by
    rw [magnitude_eq]
    exact strictMono_magnitudeAt.monotone higher
  have less : word.magnitude < magnitudeAt (word.place + 1) := by
    rw [magnitude_eq]
    exact strictMono_magnitudeAt (Nat.lt_succ_self _)
  rw [abs_of_nonpos (by linarith : x - other.magnitude ≤ 0)]
  refine ⟨abs_le.mpr ⟨by linarith, by linarith⟩, fun strictly => abs_lt.mpr ⟨?_, ?_⟩⟩ <;> linarith

/-- Above the lower end the words of lower places are further. -/
theorem near_of_lowerEnd_le (inside : word.lowerEnd ≤ x) (lower : other.place < word.place) :
    |x - word.magnitude| ≤ |x - other.magnitude| ∧
      (word.lowerEnd < x → |x - word.magnitude| < |x - other.magnitude|) := by
  obtain ⟨place, behind⟩ := Nat.exists_eq_succ_of_ne_zero (Nat.ne_of_gt (Nat.zero_lt_of_lt lower))
  have middle := two_mul_lowerEnd behind
  have before : other.magnitude ≤ magnitudeAt place := by
    rw [magnitude_eq]
    exact strictMono_magnitudeAt.monotone (by omega)
  have less : magnitudeAt place < word.magnitude := by
    rw [magnitude_eq]
    exact strictMono_magnitudeAt (by omega)
  rw [abs_of_nonneg (by linarith : 0 ≤ x - other.magnitude)]
  refine ⟨abs_le.mpr ⟨by linarith, by linarith⟩, fun strictly => abs_lt.mpr ⟨?_, ?_⟩⟩ <;> linarith

/-- The last finite place has an odd significand, and its upper end is the end of the range. -/
theorem Holds.inRange (holds : word.Holds x) (finite : word.Finite) : x < 2 ^ 128 - 2 ^ 103 := by
  have bound := finite_iff.mp finite
  have middle := word.two_mul_upperEnd
  have last : magnitudeAt 0x7F7FFFFF = 2 ^ 128 - 2 ^ 104 := by
    norm_num [magnitudeAt, significandAt, exponentAt]
  have behind : magnitudeAt 0x7F800000 = 2 ^ 128 := by
    norm_num [magnitudeAt, significandAt, exponentAt]
  have next : magnitudeAt (word.place + 1) ≤ magnitudeAt 0x7F800000 :=
    strictMono_magnitudeAt.monotone (by omega)
  rw [magnitude_eq] at middle
  by_cases isLast : word.place = 0x7F7FFFFF
  · rw [isLast, last, behind] at middle
    rcases holds with ⟨-, below⟩ | ⟨even, -⟩
    · linarith
    · rw [significand_eq, significandAt_mod_two, isLast] at even
      cases even
  · have less : magnitudeAt word.place < magnitudeAt 0x7F7FFFFF :=
      strictMono_magnitudeAt (by omega)
    have below := holds.ends.2
    rw [last] at less
    rw [behind] at next
    linarith

/-- What is in the interval of a word is rounded to it. -/
theorem Holds.rounds (holds : word.Holds x) (finite : word.Finite) : word.Rounds x := by
  obtain ⟨above, below⟩ := holds.ends
  refine ⟨finite, holds.inRange finite, fun other _ => ?nearest, fun other _ apart asNear => ?even⟩
  case nearest =>
    rcases Nat.lt_trichotomy other.place word.place with lower | same | higher
    · exact (near_of_lowerEnd_le above lower).1
    · rw [magnitude_eq, magnitude_eq, same]
    · exact (near_of_le_upperEnd below higher).1
  case even =>
    rcases holds with ⟨above, below⟩ | ⟨even, -⟩
    · rcases Nat.lt_trichotomy other.place word.place with lower | same | higher
      · exact absurd asNear ((near_of_lowerEnd_le above.le lower).2 above).ne'
      · rw [magnitude_eq, magnitude_eq, same] at apart
        exact absurd rfl apart
      · exact absurd asNear ((near_of_le_upperEnd below.le higher).2 below).ne'
    · exact even

/-! ## Grids of decimals -/

def clearing (q k : Int) : ℚ :=
  2 ^ (2 - q).toNat * 10 ^ (-k).toNat

theorem clearing_pos (q k : Int) : 0 < clearing q k := by
  unfold clearing
  positivity

theorem pow_toNat {base : ℚ} (nonzero : base ≠ 0) (exponent : Int) :
    base ^ exponent.toNat = base ^ exponent * base ^ (-exponent).toNat := by
  rw [← zpow_natCast, ← zpow_natCast, ← zpow_add₀ nonzero]
  congr 1
  omega

theorem scaledWord_eq (quarters : Nat) (q k : Int) :
    (Decimal.scaledWord quarters q k : ℚ) = quarters * 2 ^ (q - 2) * clearing q k := by
  have power := pow_toNat two_ne_zero (q - 2)
  rw [neg_sub] at power
  unfold Decimal.scaledWord clearing
  simp only [Nat.pow_eq]
  push_cast
  rw [power]
  ring

theorem scaledStep_eq (q k : Int) :
    (Decimal.scaledStep q k : ℚ) = 10 ^ k * clearing q k := by
  unfold Decimal.scaledStep clearing
  simp only [Nat.pow_eq]
  push_cast
  rw [pow_toNat (by norm_num) k]
  ring

/-- The comparisons between natural numbers are those with the interval. -/
theorem readsBack_iff {digits : Nat} {k : Int} :
    word.ReadsBack digits k ↔ word.Holds (Decimal.value ⟨digits, k⟩) := by
  have cleared := clearing_pos word.exponent k
  have point : ((digits * Decimal.scaledStep word.exponent k : Nat) : ℚ) =
      Decimal.value ⟨digits, k⟩ * clearing word.exponent k := by
    rw [Nat.cast_mul, scaledStep_eq, Decimal.value]
    ring
  unfold ReadsBack Between Holds lowerEnd upperEnd
  simp only [← Nat.cast_lt (α := ℚ), ← Nat.cast_le (α := ℚ), scaledWord_eq, point,
    mul_lt_mul_iff_left₀ cleared, mul_le_mul_iff_left₀ cleared]

/-- The nearer neighbour on a grid is no further than half a step. -/
theorem near_neighbours (word : Binary32) (k : Int) :
    |Decimal.value ⟨(word.neighbours k).1, k⟩ - word.magnitude| ≤ 10 ^ k / 2 := by
  have cleared := clearing_pos word.exponent k
  have scaled : (Decimal.scaledWord (4 * word.significand) word.exponent k : ℚ) =
      word.magnitude * clearing word.exponent k := by
    rw [scaledWord_eq, magnitude, quarter word.exponent]
    push_cast
    ring
  have step := scaledStep_eq word.exponent k
  unfold neighbours
  dsimp only
  generalize Decimal.scaledWord (4 * word.significand) word.exponent k = value,
    Decimal.scaledStep word.exponent k = size at *
  have positive : 0 < size := by
    have large : (0 : ℚ) < size := by
      rw [step]
      positivity
    exact_mod_cast large
  have close {near : Nat} (above : 2 * value ≤ 2 * (near * size) + size)
      (below : 2 * (near * size) ≤ 2 * value + size) :
      |Decimal.value ⟨near, k⟩ - word.magnitude| ≤ 10 ^ k / 2 := by
    have above : (2 * value : ℚ) ≤ 2 * (near * size) + size := by exact_mod_cast above
    have below : (2 * (near * size) : ℚ) ≤ 2 * value + size := by exact_mod_cast below
    rw [scaled, step] at above below
    refine abs_le.mpr ⟨?_, ?_⟩ <;>
      refine le_of_mul_le_mul_right ?_ cleared <;> unfold Decimal.value <;> linarith
  have split := Nat.div_add_mod' value size
  have below := Nat.mod_lt value positive
  have next : (value / size + 1) * size = value / size * size + size := Nat.succ_mul _ _
  split <;> dsimp only <;> exact close (by omega) (by omega)

/-- At the last grid the nearer neighbour is in the interval. -/
theorem holds_of_near {x : ℚ} (nonzero : word.significand ≠ 0)
    (near : |x - word.magnitude| < 2 ^ (-150 : Int)) : word.Holds x := by
  have least : -149 ≤ word.exponent := by
    unfold exponent
    omega
  obtain ⟨below, above⟩ := abs_lt.mp near
  have half : (2 : ℚ) ^ (-150 : Int) ≤ 2 * 2 ^ (word.exponent - 2) := by
    rw [← zpow_one_add₀ two_ne_zero]
    exact zpow_le_zpow_right₀ one_le_two (by omega)
  have lower : word.lowerEnd ≤ word.magnitude - 2 ^ (-150 : Int) := by
    rw [lowerEnd, lowerQuarters, magnitude, quarter word.exponent]
    by_cases narrow : word.NarrowBelow
    · have normal : -148 ≤ word.exponent := by
        have large := narrow.2
        unfold exponent
        omega
      have apart : (2 : ℚ) ^ (-150 : Int) ≤ 2 ^ (word.exponent - 2) :=
        zpow_le_zpow_right₀ one_le_two (by omega)
      rw [if_pos narrow, Nat.cast_sub (by omega)]
      push_cast
      linarith
    · rw [if_neg narrow, Nat.cast_sub (by omega)]
      push_cast
      linarith
  have upper : word.magnitude + 2 ^ (-150 : Int) ≤ word.upperEnd := by
    rw [upperEnd, upperQuarters, magnitude, quarter word.exponent]
    push_cast
    linarith
  exact Or.inl ⟨by linarith, by linarith⟩

theorem holds_onCoarsest (nonzero : word.significand ≠ 0) (finer : Nat) (k : Int)
    (fine : (10 : ℚ) ^ (k - finer) / 2 < 2 ^ (-150 : Int)) :
    word.Holds (word.onCoarsest finer k).value := by
  induction finer generalizing k with
  | zero =>
      rw [Nat.cast_zero, Int.sub_zero] at fine
      exact holds_of_near nonzero (lt_of_le_of_lt (word.near_neighbours k) fine)
  | succ finer ih =>
      rw [onCoarsest]
      split
      · rename_i decimal found
        unfold onGrid? at found
        dsimp only at found
        split at found
        · rename_i readsBack
          cases found
          exact readsBack_iff.mp readsBack
        · split at found
          · rename_i readsBack
            cases found
            exact readsBack_iff.mp readsBack
          · cases found
      · refine ih (k - 1) ?_
        rw [Nat.cast_succ] at fine
        rwa [show k - 1 - finer = k - (finer + 1) by omega]

/-- The decimal that is written for a finite word is rounded to it. -/
theorem rounds_shortest (finite : word.Finite) : word.Rounds word.shortest.value := by
  refine Holds.rounds ?_ finite
  unfold shortest
  by_cases zero : word.significand = 0
  · rw [if_pos zero]
    have value : Decimal.value ⟨0, 0⟩ = 0 := by rw [Decimal.value, Nat.cast_zero, zero_mul]
    have lower : word.lowerEnd = 0 := by simp [lowerEnd, lowerQuarters, zero]
    have upper : 0 ≤ word.upperEnd := by
      unfold upperEnd
      positivity
    rw [value]
    exact Or.inr ⟨by rw [zero], lower.le, upper⟩
  · rw [if_neg zero]
    exact holds_onCoarsest zero finerGrids coarsestGrid (by norm_num [finerGrids, coarsestGrid])

end Binary32

end StationRelay
