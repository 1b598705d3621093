import StationRelay.Json.Number
import StationRelay.Json.Writer
import StationRelay.Proofs.JsonGrammar
import StationRelay.Proofs.JsonStrings
import StationRelay.Proofs.Rounding

/-!
# Texts of numbers

A literal has a magnitude, and it is rounded to a word as its magnitude and its
sign say.  The digits of a natural number are digits of the grammar, and so are
those of a decimal in any layout: a layout only moves the point, and the zeros
that it writes are made up for by the exponent.  By `exists_roundsTo` the text
of a finite word is a literal that is rounded to this word.
-/

namespace StationRelay

namespace Json

open Bytes (ofChars)
open Decimal (Layout digitChars positional scientific)

namespace Number

/-! ## What a literal stands for -/

/-- The number a literal stands for, without its sign. -/
def magnitude (literal : Number) : ℚ :=
  ofDigits (literal.whole ++ literal.fraction) *
    10 ^ (literal.writtenExponent - literal.fraction.length)

/-- The literal is rounded to the word, which has the sign that is written. -/
structure RoundsTo (literal : Number) (word : Binary32) : Prop where
  sign : literal.negative = word.negative
  rounds : word.Rounds literal.magnitude

theorem RoundsTo.eq {literal : Number} {word other : Binary32} (first : literal.RoundsTo word)
    (second : literal.RoundsTo other) : word = other :=
  first.rounds.eq second.rounds (first.sign.symm.trans second.sign)

theorem ofDigits_append_zeros (digits : List Nat) (zeros : Nat) :
    ofDigits (digits ++ List.replicate zeros 0) = ofDigits digits * 10 ^ zeros := by
  induction zeros with
  | zero => simp
  | succ zeros ih =>
      rw [List.replicate_succ', ← List.append_assoc, pow_succ, ← Nat.mul_assoc, ← ih]
      simp [ofDigits, Nat.mul_comm]

theorem ofDigits_zeros_append (zeros : Nat) (digits : List Nat) :
    ofDigits (List.replicate zeros 0 ++ digits) = ofDigits digits := by
  induction zeros with
  | zero => rfl
  | succ zeros ih => exact ih

/-- Zeros behind the digits are made up for by the exponent. -/
theorem magnitude_eq {literal : Number} {decimal : Decimal} (zeros : Nat)
    (digits : ofDigits (literal.whole ++ literal.fraction) = decimal.digits * 10 ^ zeros)
    (exponent : literal.writtenExponent - literal.fraction.length + zeros = decimal.exponent) :
    literal.magnitude = decimal.value := by
  rw [magnitude, digits, Decimal.value, ← exponent, zpow_add₀ (by norm_num), zpow_natCast]
  push_cast
  ring

end Number

/-! ## Digits -/

open Grammar (Digits Whole Fraction Exponent Minus Sign Literal digitByte)

variable {digits : List Nat}

theorem encode_digitChar : ∀ value < 10,
    String.utf8EncodeChar (Nat.digitChar value) = [digitByte value] := by
  decide

theorem ofChars_digitChars (below : ∀ value ∈ digits, value < 10) :
    ofChars (digits.map Nat.digitChar) = digits.map digitByte := by
  induction digits with
  | nil => rfl
  | cons first rest ih =>
      obtain ⟨small, others⟩ := List.forall_mem_cons.mp below
      rw [List.map_cons, Bytes.ofChars_cons, ih others, encode_digitChar first small]
      rfl

theorem digits_written (below : ∀ value ∈ digits, value < 10) :
    Digits digits (ofChars (digits.map Nat.digitChar)) :=
  ⟨below, ofChars_digitChars below⟩

/-- These are the digits of a number as it is written: none is too many in front. -/
structure Numeral (n : Nat) (digits : List Nat) : Prop where
  chars : digitChars n = digits.map Nat.digitChar
  below : ∀ value ∈ digits, value < 10
  value : Number.ofDigits digits = n
  nonempty : digits ≠ []
  leading : digits.head? = some 0 → digits = [0]

theorem exists_numeral (n : Nat) : ∃ digits, Numeral n digits := by
  induction n using Nat.strong_induction_on with
  | _ n ih =>
      by_cases single : n < 10
      · refine ⟨[n], Nat.toDigits_of_lt_base single, by simpa using single, ?_, by simp, ?_⟩
        · simp [Number.ofDigits]
        · intro zero
          rw [Option.some.inj zero]
      · obtain ⟨front, numeral⟩ := ih (n / 10) (by omega)
        have split : digitChars n = digitChars (n / 10) ++ [Nat.digitChar (n % 10)] := by
          rw [digitChars, Nat.toDigits_eq_if (by omega), if_neg single]
          rfl
        have shifted : Number.ofDigits (front ++ [n % 10]) =
            10 * Number.ofDigits front + n % 10 := by
          simp [Number.ofDigits]
        refine ⟨front ++ [n % 10], ?_, ?_, ?_, by simp, fun zero => ?_⟩
        · rw [split, numeral.chars, List.map_append]
          rfl
        · rw [List.forall_mem_append]
          exact ⟨numeral.below, by simp; omega⟩
        · rw [shifted, numeral.value]
          omega
        · -- The digits in front are those of a number that is not zero.
          rw [List.head?_append_of_ne_nil _ numeral.nonempty] at zero
          have value := numeral.value
          rw [numeral.leading zero] at value
          simp only [Number.ofDigits, List.foldl] at value
          omega

theorem Numeral.written {n : Nat} (numeral : Numeral n digits) :
    Digits digits (ofChars (digitChars n)) := by
  rw [numeral.chars]
  exact digits_written numeral.below

theorem Numeral.whole {n : Nat} (numeral : Numeral n digits) :
    Whole digits (ofChars (digitChars n)) := by
  obtain ⟨first, rest, rfl⟩ := List.exists_cons_of_ne_nil numeral.nonempty
  by_cases zero : first = 0
  · have alone := numeral.leading (congrArg some zero)
    rw [numeral.written.written, alone]
    exact .zero
  · exact .digits zero numeral.written

theorem Numeral.exists_cons {n : Nat} (numeral : Numeral n digits) (nonzero : n ≠ 0) :
    ∃ first rest, digits = first :: rest ∧ first ≠ 0 := by
  obtain ⟨first, rest, rfl⟩ := List.exists_cons_of_ne_nil numeral.nonempty
  refine ⟨first, rest, rfl, fun zero => nonzero ?_⟩
  rw [← numeral.value, numeral.leading (congrArg some zero)]
  rfl

/-- A natural number is written as a literal without sign, fraction and exponent. -/
theorem exists_natural (n : Nat) : ∃ digits, Number.ofDigits digits = n ∧
    Literal ⟨false, digits, [], none⟩ (ofChars (natChars n)) := by
  obtain ⟨digits, numeral⟩ := exists_numeral n
  have literal := Literal.mk .absent numeral.whole .absent .absent
  rw [List.nil_append, List.append_nil, List.append_nil] at literal
  exact ⟨digits, numeral.value, literal⟩

/-! ## Layouts -/

theorem ofChars_append_cons {c : Char} {b : UInt8} (ascii : String.utf8EncodeChar c = [b])
    (front back : List Char) :
    ofChars (front ++ c :: back) = ofChars front ++ b :: ofChars back := by
  rw [Bytes.ofChars_append, Bytes.ofChars_cons, ascii]
  rfl

theorem map_zeros (zeros : Nat) :
    (List.replicate zeros 0).map Nat.digitChar = List.replicate zeros '0' :=
  List.map_replicate

theorem below_zeros (zeros : Nat) : ∀ value ∈ List.replicate zeros 0, value < 10 := by
  intro value member
  rw [List.eq_of_mem_replicate member]
  decide

def Writes (decimal : Decimal) (chars : List Char) : Prop :=
  ∀ (negative : Bool) (minus : Bytes), Minus negative minus → ∃ literal : Number,
    literal.negative = negative ∧ literal.magnitude = decimal.value ∧
      Literal literal (minus ++ ofChars chars)

theorem exists_exponent (place : Int) : ∃ exponent,
    Exponent exponent (ofChars ('e' :: Decimal.exponentChars place)) ∧
      ∀ {negative : Bool} {whole fraction : List Nat},
        Number.writtenExponent ⟨negative, whole, fraction, exponent⟩ = place := by
  obtain ⟨digits, numeral⟩ := exists_numeral place.natAbs
  have value := numeral.value
  have written {negative : Bool} {sign : Bytes} (signed : Sign negative sign) :
      Exponent (some (negative, digits)) (0x65 :: (sign ++ ofChars (digitChars place.natAbs))) :=
    .present (.inl rfl) signed numeral.nonempty numeral.written
  unfold Decimal.exponentChars
  by_cases below : place < 0
  · refine ⟨some (true, digits), ?_, ?_⟩
    · rw [if_pos below]
      exact written .minus
    · simp only [Number.writtenExponent, if_true]
      omega
  · refine ⟨some (false, digits), ?_, ?_⟩
    · rw [if_neg below]
      exact written .plus
    · simp only [Number.writtenExponent, Bool.false_eq_true, if_false]
      omega

section Layouts

variable {decimal : Decimal} {whole fraction : List Nat}

theorem Numeral.leadingExponent (numeral : Numeral decimal.digits digits) :
    decimal.leadingExponent = decimal.exponent + digits.length - 1 := by
  rw [Decimal.leadingExponent, numeral.chars, List.length_map]

theorem Numeral.whole_of_head? (numeral : Numeral decimal.digits digits)
    (nonzero : decimal.digits ≠ 0) {front : List Nat} (starts : front.head? = digits.head?)
    (below : ∀ value ∈ front, value < 10) :
    Whole front (ofChars (front.map Nat.digitChar)) := by
  obtain ⟨first, rest, rfl, notZero⟩ := numeral.exists_cons nonzero
  obtain ⟨others, rfl⟩ := List.head?_eq_some_iff.mp starts
  exact .digits notZero (digits_written below)

/-- Digits on both sides of a point, and zeros that belong to neither. -/
theorem writes_point (zeros : Nat) (inFront : Whole whole (ofChars (whole.map Nat.digitChar)))
    (nonempty : fraction ≠ []) (below : ∀ value ∈ fraction, value < 10)
    (digits : Number.ofDigits (whole ++ fraction) = decimal.digits * 10 ^ zeros)
    (exponent : decimal.exponent = zeros - fraction.length) :
    Writes decimal (whole.map Nat.digitChar ++ '.' :: fraction.map Nat.digitChar) := by
  intro negative minus sign
  have behind := Fraction.present nonempty (digits_written below)
  have literal := Literal.mk sign inFront behind .absent
  rw [List.append_nil] at literal
  refine ⟨⟨negative, whole, fraction, none⟩, rfl, Number.magnitude_eq zeros digits ?_, ?_⟩
  · dsimp only [Number.writtenExponent]
    omega
  · rw [ofChars_append_cons (b := 0x2E) (by decide)]
    exact literal

variable (numeral : Numeral decimal.digits digits) (nonzero : decimal.digits ≠ 0)
include numeral

theorem writes_below (small : decimal.leadingExponent < 0) :
    Writes decimal (positional (digitChars decimal.digits) decimal.leadingExponent) := by
  have leading := numeral.leadingExponent
  rw [positional, if_pos small, numeral.chars, ← map_zeros]
  generalize zeros : (-decimal.leadingExponent - 1).toNat = count
  have below : ∀ value ∈ List.replicate count 0 ++ digits, value < 10 :=
    List.forall_mem_append.mpr ⟨below_zeros count, numeral.below⟩
  rw [List.append_assoc, ← List.map_append]
  refine writes_point 0 .zero (List.append_ne_nil_of_right_ne_nil _ numeral.nonempty) below
    ?inAll ?scale
  case inAll =>
    rw [pow_zero, Nat.mul_one, ← numeral.value]
    exact Number.ofDigits_zeros_append (count + 1) digits
  case scale =>
    rw [List.length_append, List.length_replicate]
    push_cast
    omega

include nonzero

theorem writes_within (least : 0 ≤ decimal.leadingExponent)
    (most : decimal.leadingExponent + 1 < digits.length) :
    Writes decimal (positional (digitChars decimal.digits) decimal.leadingExponent) := by
  have leading := numeral.leadingExponent
  rw [positional, if_neg (Int.not_lt.mpr least), numeral.chars, List.length_map]
  generalize size : decimal.leadingExponent.toNat + 1 = count
  have behind : digits.drop count ≠ [] := by
    rw [Ne, List.drop_eq_nil_iff]
    omega
  have front : Whole (digits.take count) (ofChars ((digits.take count).map Nat.digitChar)) := by
    refine numeral.whole_of_head? nonzero ?_ fun value member =>
      numeral.below value (List.mem_of_mem_take member)
    rw [List.head?_take, if_neg (by omega)]
  dsimp only
  rw [Nat.sub_eq_zero_of_le (by omega), List.replicate_zero, List.append_nil,
    Decimal.fractionChars, ← List.map_take, ← List.map_drop, if_neg (by simpa using behind)]
  refine writes_point 0 front behind
    (fun value member => numeral.below value (List.mem_of_mem_drop member)) ?inAll ?scale
  case inAll => rw [List.take_append_drop, numeral.value, pow_zero, Nat.mul_one]
  case scale =>
    rw [List.length_drop]
    omega

theorem writes_behind (most : (digits.length : Int) ≤ decimal.leadingExponent + 1) :
    Writes decimal (positional (digitChars decimal.digits) decimal.leadingExponent) := by
  have leading := numeral.leadingExponent
  have some_digits := List.length_pos_iff.mpr numeral.nonempty
  rw [positional, if_neg (by omega), numeral.chars]
  generalize size : decimal.leadingExponent.toNat + 1 = count
  dsimp only
  rw [List.length_map, ← List.map_take, ← List.map_drop, List.take_of_length_le (by omega),
    List.drop_of_length_le (by omega), ← map_zeros, ← List.map_append]
  generalize zeros : count - digits.length = more
  have front : Whole (digits ++ List.replicate more 0)
      (ofChars ((digits ++ List.replicate more 0).map Nat.digitChar)) :=
    numeral.whole_of_head? nonzero (List.head?_append_of_ne_nil _ numeral.nonempty)
      (List.forall_mem_append.mpr ⟨numeral.below, below_zeros more⟩)
  refine writes_point (more + 1) front (List.cons_ne_nil 0 []) (below_zeros 1) ?inAll ?scale
  case inAll =>
    rw [List.append_assoc, ← List.replicate_succ', Number.ofDigits_append_zeros, numeral.value]
  case scale =>
    rw [List.length_singleton]
    omega

theorem writes_scientific :
    Writes decimal (scientific (digitChars decimal.digits) decimal.leadingExponent) := by
  have leading := numeral.leadingExponent
  have all := numeral.value
  have below := numeral.below
  rw [numeral.chars]
  obtain ⟨first, rest, rfl, notZero⟩ := numeral.exists_cons nonzero
  obtain ⟨small, others⟩ := List.forall_mem_cons.mp below
  rw [List.length_cons] at leading
  generalize decimal.leadingExponent = place at *
  obtain ⟨exponent, written, scaled⟩ := exists_exponent place
  have front : Whole [first] (ofChars ([first].map Nat.digitChar)) :=
    .digits notZero (digits_written (by simpa using small))
  have behind : Fraction rest
      (ofChars (if rest = [] then [] else '.' :: rest.map Nat.digitChar)) := by
    by_cases alone : rest = []
    · rw [if_pos alone, alone]
      exact .absent
    · rw [if_neg alone]
      exact .present alone (digits_written others)
  have split : scientific ((first :: rest).map Nat.digitChar) place =
      [first].map Nat.digitChar ++ (if rest = [] then [] else '.' :: rest.map Nat.digitChar)
        ++ 'e' :: Decimal.exponentChars place := by
    simp [scientific]
  intro negative minus sign
  refine ⟨⟨negative, [first], rest, exponent⟩, rfl, Number.magnitude_eq 0 ?inAll ?scale, ?_⟩
  case inAll =>
    rw [pow_zero, Nat.mul_one, ← all]
    rfl
  case scale =>
    rw [scaled]
    dsimp only
    omega
  · have literal := Literal.mk sign front behind written
    rwa [← Bytes.ofChars_append, ← Bytes.ofChars_append, ← List.append_assoc, ← split] at literal

end Layouts

/-- A decimal that is not zero is written as a literal of its magnitude, in any layout. -/
theorem writes_toChars (layout : Layout) {decimal : Decimal} (nonzero : decimal.digits ≠ 0) :
    Writes decimal (decimal.toChars layout) := by
  obtain ⟨digits, numeral⟩ := exists_numeral decimal.digits
  unfold Decimal.toChars
  dsimp only
  by_cases near : layout.lowest ≤ decimal.leadingExponent ∧ decimal.leadingExponent ≤ layout.highest
  · rw [if_pos near]
    rcases Int.lt_or_le decimal.leadingExponent 0 with small | least
    · exact writes_below numeral small
    · rcases Int.lt_or_le (decimal.leadingExponent + 1) digits.length with most | many
      · exact writes_within numeral nonzero least most
      · exact writes_behind numeral nonzero many
  · rw [if_neg near]
    exact writes_scientific numeral nonzero

/-! ## Words -/

theorem shortest_digits_ne_zero {word : Binary32} (finite : word.Finite)
    (nonzero : word.significand ≠ 0) : word.shortest.digits ≠ 0 := by
  intro none
  have rounds := Binary32.rounds_shortest finite
  have value : word.shortest.value = 0 := by rw [Decimal.value, none, Nat.cast_zero, zero_mul]
  have zero : (Binary32.ofPlace 0).magnitude = 0 := by
    rw [Binary32.magnitude_eq, Binary32.place_ofPlace (by decide)]
    simp [magnitudeAt, significandAt]
  have nearest := rounds.nearest (Binary32.ofPlace 0) (by decide)
  rw [value, zero, sub_zero, abs_zero, abs_nonpos_iff, zero_sub, neg_eq_zero,
    Binary32.magnitude] at nearest
  have power : (2 : ℚ) ^ word.exponent ≠ 0 := by positivity
  exact nonzero (by exact_mod_cast (mul_eq_zero.mp nearest).resolve_right power)

theorem writes_zero : Writes ⟨0, 0⟩ ['0', '.', '0'] :=
  writes_point 1 .zero (List.cons_ne_nil 0 []) (below_zeros 1) rfl (by simp)

/-- A finite word is written as a literal that is rounded to it. -/
theorem exists_roundsTo {word : Binary32} (finite : word.Finite) :
    ∃ literal : Number, literal.RoundsTo word ∧ Literal literal (ofChars (wordChars word)) := by
  have minus : Minus word.negative (ofChars (if word.negative then ['-'] else [])) := by
    cases word.negative
    · exact .absent
    · exact .present
  have writes : Writes word.shortest (if word.significand = 0 then ['0', '.', '0']
      else Decimal.toChars layout word.shortest) := by
    by_cases zero : word.significand = 0
    · rw [if_pos zero, Binary32.shortest, if_pos zero]
      exact writes_zero
    · rw [if_neg zero]
      exact writes_toChars layout (shortest_digits_ne_zero finite zero)
  obtain ⟨literal, sign, magnitude, written⟩ := writes _ _ minus
  refine ⟨literal, ⟨sign, magnitude ▸ Binary32.rounds_shortest finite⟩, ?_⟩
  rwa [wordChars, if_pos finite, Bytes.ofChars_append]

end Json

end StationRelay
