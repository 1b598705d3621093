import StationRelay.Json.Token
import StationRelay.Proofs.JsonGrammar

/-!
# Scanning by the grammar

Each scanner takes exactly what the grammar describes.  For numbers, strings
and tokens there are two lemmas: what is written is taken, whatever follows that
does not belong to it, and what is taken was written.  Only a number depends on
what follows, because digits, a point or an exponent would continue it.
-/

namespace StationRelay

namespace Json

namespace Grammar

/-! ## Reading numbers -/

theorem isDigit_digitByte {value : Nat} (below : value < 10) :
    isDigit (digitByte value) = true := by
  have size : (digitByte value).toNat = 48 + value := by
    simp only [digitByte, UInt8.toNat_ofNat']
    omega
  simp only [isDigit, Bool.and_eq_true, decide_eq_true_eq, UInt8.le_iff_toNat_le, size]
  exact ⟨Nat.le_add_right _ _, by change 48 + value ≤ 57; omega⟩

theorem toNat_digitByte {value : Nat} (below : value < 10) :
    (digitByte value).toNat - 48 = value := by
  simp only [digitByte, UInt8.toNat_ofNat']
  omega

theorem ofNat_add_sub {b : UInt8} {least : Nat} (above : least ≤ b.toNat) :
    UInt8.ofNat (least + (b.toNat - least)) = b := by
  rw [Nat.add_sub_cancel' above, UInt8.ofNat_toNat]

theorem digitByte_of_isDigit {b : UInt8} (digit : isDigit b = true) :
    b.toNat - 48 < 10 ∧ digitByte (b.toNat - 48) = b := by
  simp only [isDigit, Bool.and_eq_true, decide_eq_true_eq, UInt8.le_iff_toNat_le] at digit
  obtain ⟨least, most⟩ := digit
  change 48 ≤ b.toNat at least
  change b.toNat ≤ 57 at most
  exact ⟨by omega, ofNat_add_sub least⟩

def NoDigit (rest : Bytes) : Prop :=
  ∀ b ∈ rest.head?, isDigit b = false

/-- Nothing follows that a number could go on with. -/
def Stops (rest : Bytes) : Prop :=
  ∀ b ∈ rest.head?, isDigit b = false ∧ b ≠ 0x2E ∧ b ≠ 0x65 ∧ b ≠ 0x45

theorem Stops.noDigit {rest : Bytes} (stops : Stops rest) : NoDigit rest :=
  fun b next => (stops b next).1

section Digits

variable {values : List Nat} {bytes rest : Bytes}

theorem digits_append (digits : Digits values bytes) (stops : NoDigit rest) :
    Json.digits (bytes ++ rest) = (values, rest) := by
  obtain ⟨below, rfl⟩ := digits
  have all : ∀ b ∈ values.map digitByte, isDigit b = true := by
    intro b listed
    obtain ⟨value, member, rfl⟩ := List.mem_map.mp listed
    exact isDigit_digitByte (below value member)
  have none : rest.takeWhile isDigit = [] ∧ rest.dropWhile isDigit = rest := by
    cases rest with
    | nil => exact ⟨rfl, rfl⟩
    | cons b tail =>
        have other := stops b rfl
        exact ⟨by simp [other], by simp [other]⟩
  rw [Json.digits, List.takeWhile_append_of_pos all, List.dropWhile_append_of_pos all, none.1,
    none.2, List.append_nil, List.map_map]
  have back : values.map ((fun b : UInt8 => b.toNat - 48) ∘ digitByte) = values.map id :=
    List.map_congr_left fun value member => toNat_digitByte (below value member)
  rw [back, List.map_id]

theorem exists_digits (bytes : Bytes) :
    ∃ front, Digits (Json.digits bytes).1 front ∧ bytes = front ++ (Json.digits bytes).2 := by
  have all : ∀ b ∈ bytes.takeWhile isDigit, isDigit b = true :=
    List.all_eq_true.mp List.all_takeWhile
  refine ⟨bytes.takeWhile isDigit, ⟨?_, ?_⟩, (List.takeWhile_append_dropWhile ..).symm⟩
  · intro value listed
    obtain ⟨b, member, rfl⟩ := List.mem_map.mp listed
    exact (digitByte_of_isDigit (all b member)).1
  · have back : (bytes.takeWhile isDigit).map (digitByte ∘ fun b : UInt8 => b.toNat - 48) =
        (bytes.takeWhile isDigit).map id :=
      List.map_congr_left fun b member => (digitByte_of_isDigit (all b member)).2
    rw [Json.digits, List.map_map, back, List.map_id]

end Digits

section Numbers

variable {values : List Nat} {bytes rest : Bytes}

theorem someDigits?_append (nonempty : values ≠ []) (digits : Digits values bytes)
    (stops : NoDigit rest) : someDigits? (bytes ++ rest) = some (values, rest) := by
  cases values with
  | nil => exact absurd rfl nonempty
  | cons first others => simp [someDigits?, digits_append digits stops]

theorem exists_someDigits (found : someDigits? bytes = some (values, rest)) :
    ∃ front, values ≠ [] ∧ Digits values front ∧ bytes = front ++ rest := by
  obtain ⟨front, digits, split⟩ := exists_digits bytes
  unfold someDigits? at found
  split at found
  · cases found
  · rename_i nonempty
    have same : Json.digits bytes = (values, rest) := Option.some.inj found
    rw [same] at digits split nonempty
    exact ⟨front, by simpa using nonempty, digits, split⟩

theorem wholeDigits?_append (whole : Whole values bytes) (stops : NoDigit rest) :
    wholeDigits? (bytes ++ rest) = some (values, rest) := by
  cases whole with
  | zero =>
      have zero : Digits [0] [0x30] := ⟨by simp, rfl⟩
      simp only [wholeDigits?, digits_append zero stops]
  | digits nonzero digits =>
      rename_i first others
      cases first with
      | zero => exact absurd rfl nonzero
      | succ first => simp only [wholeDigits?, digits_append digits stops]

theorem exists_whole (found : wholeDigits? bytes = some (values, rest)) :
    ∃ front, Whole values front ∧ bytes = front ++ rest := by
  obtain ⟨front, digits, split⟩ := exists_digits bytes
  unfold wholeDigits? at found
  split at found
  · rename_i after zero
    rw [zero] at digits split
    cases found
    have alone : front = [0x30] := digits.written
    exact ⟨front, alone ▸ .zero, split⟩
  · cases found
  · cases found
  · rename_i pair notZero notEmpty notLeading
    rw [Option.some.inj found] at digits split notEmpty notLeading
    cases values with
    | nil => exact absurd rfl (notEmpty rest)
    | cons first others =>
        have nonzero : first ≠ 0 := fun zero => notLeading others rest (by rw [zero])
        exact ⟨front, .digits nonzero digits, split⟩

theorem fractionDigits?_append (fraction : Fraction values bytes) (stops : NoDigit rest)
    (noPoint : ∀ b ∈ rest.head?, b ≠ 0x2E) :
    fractionDigits? (bytes ++ rest) = some (values, rest) := by
  cases fraction with
  | absent =>
      cases rest with
      | nil => rfl
      | cons b tail =>
          have other : b ≠ 46 := noPoint b rfl
          unfold fractionDigits?
          split
          · rename_i same
            exact absurd (List.cons.inj same).1 other
          · rfl
  | present nonempty digits => exact someDigits?_append nonempty digits stops

theorem exists_fraction (found : fractionDigits? bytes = some (values, rest)) :
    ∃ front, Fraction values front ∧ bytes = front ++ rest := by
  unfold fractionDigits? at found
  split at found
  · obtain ⟨front, nonempty, digits, rfl⟩ := exists_someDigits found
    exact ⟨_, .present nonempty digits, rfl⟩
  · cases found
    exact ⟨[], .absent, rfl⟩

theorem exponentSign_append {negative : Bool} {sign : Bytes} (signed : Sign negative sign)
    (digit : ∀ b ∈ (bytes ++ rest).head?, isDigit b = true) :
    exponentSign (sign ++ (bytes ++ rest)) = (negative, bytes ++ rest) := by
  cases signed with
  | absent =>
      unfold exponentSign
      split
      · rename_i tail same
        exact absurd (digit 43 (by rw [← List.nil_append (bytes ++ rest), same]; rfl)) (by decide)
      · rename_i tail same
        exact absurd (digit 45 (by rw [← List.nil_append (bytes ++ rest), same]; rfl)) (by decide)
      · rfl
  | plus => rfl
  | minus => rfl

theorem exists_sign (bytes : Bytes) :
    ∃ front, Sign (exponentSign bytes).1 front ∧ bytes = front ++ (exponentSign bytes).2 := by
  unfold exponentSign
  split
  · exact ⟨_, .plus, rfl⟩
  · exact ⟨_, .minus, rfl⟩
  · exact ⟨_, .absent, rfl⟩

theorem Digits.isDigit_of_mem (digits : Digits values bytes) {b : UInt8} (member : b ∈ bytes) :
    isDigit b = true := by
  obtain ⟨below, rfl⟩ := digits
  obtain ⟨value, listed, rfl⟩ := List.mem_map.mp member
  exact isDigit_digitByte (below value listed)

theorem exponentDigits?_append {exponent : Option (Bool × List Nat)}
    (written : Exponent exponent bytes) (stops : Stops rest) :
    exponentDigits? (bytes ++ rest) = some (exponent, rest) := by
  cases written with
  | absent =>
      cases rest with
      | nil => rfl
      | cons b tail =>
          obtain ⟨-, -, notLower, notUpper⟩ := stops b rfl
          exact if_neg fun mark => mark.elim notLower notUpper
  | present marked signed nonempty digits =>
      rename_i mark negative values sign bytes
      have digit : ∀ b ∈ (bytes ++ rest).head?, isDigit b = true := by
        cases bytes with
        | nil => exact absurd (List.map_eq_nil_iff.mp digits.written.symm) nonempty
        | cons b tail =>
            rintro _ ⟨⟩
            exact digits.isDigit_of_mem List.mem_cons_self
      rw [List.cons_append, List.append_assoc, exponentDigits?, if_pos marked,
        exponentSign_append signed digit, someDigits?_append nonempty digits stops.noDigit]

theorem exists_exponent {exponent : Option (Bool × List Nat)}
    (found : exponentDigits? bytes = some (exponent, rest)) :
    ∃ front, Exponent exponent front ∧ bytes = front ++ rest := by
  unfold exponentDigits? at found
  split at found
  · rename_i mark tail
    split at found
    · rename_i marked
      split at found
      · rename_i values after digits
        cases found
        obtain ⟨front, nonempty, digits, split⟩ := exists_someDigits digits
        obtain ⟨sign, signed, whole⟩ := exists_sign tail
        refine ⟨_, .present marked signed nonempty digits, ?_⟩
        rw [whole, split, List.cons_append, List.append_assoc]
      · cases found
    · cases found
      exact ⟨[], .absent, rfl⟩
  · cases found
    exact ⟨[], .absent, rfl⟩

/-- What can stand behind the whole part of a number is no digit. -/
theorem noDigit_behind {fraction : List Nat} {exponent : Option (Bool × List Nat)}
    {first second : Bytes} (behind : Fraction fraction first)
    (scaled : Exponent exponent second) (stops : Stops rest) :
    NoDigit (first ++ (second ++ rest)) := by
  cases behind with
  | present =>
      rintro _ ⟨⟩
      decide
  | absent =>
      cases scaled with
      | absent => exact stops.noDigit
      | present marked =>
          rintro _ ⟨⟩
          rcases marked with rfl | rfl <;> decide

/-- What can stand behind the fraction of a number is neither a digit nor a point. -/
theorem noPoint_behind {exponent : Option (Bool × List Nat)} {first : Bytes}
    (scaled : Exponent exponent first) (stops : Stops rest) :
    ∀ b ∈ (first ++ rest).head?, b ≠ 0x2E := by
  cases scaled with
  | absent => exact fun b next => (stops b next).2.1
  | present marked =>
      rintro _ ⟨⟩
      rcases marked with rfl | rfl <;> decide

theorem unsignedNumber?_append (negative : Bool) {whole fraction : List Nat}
    {exponent : Option (Bool × List Nat)} {first second third : Bytes}
    (inFront : Whole whole first) (behind : Fraction fraction second)
    (scaled : Exponent exponent third) (stops : Stops rest) :
    unsignedNumber? negative (first ++ (second ++ (third ++ rest))) =
      some (⟨negative, whole, fraction, exponent⟩, rest) := by
  have afterFraction : NoDigit (third ++ rest) := noDigit_behind .absent scaled stops
  simp only [unsignedNumber?,
    wholeDigits?_append inFront (noDigit_behind behind scaled stops),
    fractionDigits?_append behind afterFraction (noPoint_behind scaled stops),
    exponentDigits?_append scaled stops]

theorem exists_unsignedNumber {negative : Bool} {literal : Number}
    (found : unsignedNumber? negative bytes = some (literal, rest)) :
    ∃ body, (∀ sign, Minus negative sign → Literal literal (sign ++ body)) ∧
      bytes = body ++ rest := by
  unfold unsignedNumber? at found
  split at found
  · cases found
  · rename_i whole afterWhole wholeFound
    split at found
    · cases found
    · rename_i fraction afterFraction fractionFound
      split at found
      · cases found
      · rename_i exponent after exponentFound
        cases found
        obtain ⟨first, inFront, rfl⟩ := exists_whole wholeFound
        obtain ⟨second, behind, rfl⟩ := exists_fraction fractionFound
        obtain ⟨third, scaled, rfl⟩ := exists_exponent exponentFound
        exact ⟨_, fun sign minus => .mk minus inFront behind scaled, by simp⟩

/-- The digits of a number do not start with a minus. -/
theorem Whole.head?_ne (whole : Whole values bytes) (more : Bytes) :
    (bytes ++ more).head? ≠ some 0x2D := by
  cases whole with
  | zero => simp
  | digits nonzero digits =>
      rename_i first others
      rw [digits.written]
      intro same
      have minus : digitByte first = 0x2D := by simpa using same
      have digit := isDigit_digitByte (digits.below first List.mem_cons_self)
      rw [minus] at digit
      exact absurd digit (by decide)

theorem number?_append {literal : Number} (written : Literal literal bytes)
    (stops : Stops rest) : number? (bytes ++ rest) = some (literal, rest) := by
  cases written with
  | mk minus inFront behind scaled =>
      rename_i negative whole fraction exponent first second third fourth
      have number := unsignedNumber?_append negative inFront behind scaled stops
      simp only [List.append_assoc]
      cases minus with
      | present => exact number
      | absent =>
          unfold number?
          split
          · rename_i tail same
            have other := inFront.head?_ne (third ++ (fourth ++ rest))
            rw [← List.nil_append (second ++ _), same] at other
            exact absurd rfl other
          · exact number

theorem exists_number {literal : Number} (found : number? bytes = some (literal, rest)) :
    ∃ front, Literal literal front ∧ bytes = front ++ rest := by
  unfold number? at found
  split at found
  · obtain ⟨body, written, rfl⟩ := exists_unsignedNumber found
    exact ⟨_, written _ .present, rfl⟩
  · obtain ⟨body, written, rfl⟩ := exists_unsignedNumber found
    exact ⟨_, written _ .absent, rfl⟩

end Numbers

/-! ## Reading strings -/

theorem escaped?_eq_some_iff {letter raw : UInt8} :
    escaped? letter = some raw ↔ Escape letter raw := by
  constructor
  · intro found
    unfold escaped? at found
    split at found
    · rename_i itself
      cases found
      rcases itself with rfl | rfl | rfl
      · exact .quote
      · exact .backslash
      · exact .slash
    split at found
    · rename_i same
      cases found
      exact same ▸ .backspace
    split at found
    · rename_i same
      cases found
      exact same ▸ .formFeed
    split at found
    · rename_i same
      cases found
      exact same ▸ .lineFeed
    split at found
    · rename_i same
      cases found
      exact same ▸ .carriageReturn
    split at found
    · rename_i same
      cases found
      exact same ▸ .tab
    · cases found
  · intro escape
    cases escape <;> rfl

theorem toNat_ofNat_byte (b : UInt8) : (Char.ofNat b.toNat).toNat = b.toNat := by
  have small := b.toNat_lt
  have valid : b.toNat.isValidChar := Or.inl (by omega)
  rw [Char.ofNat, dif_pos valid]
  rfl

theorem hexValue_eq_some_iff {b : UInt8} {value : Nat} :
    Hex.value? (Char.ofNat b.toNat) = some value ↔ HexDigit value b := by
  have size := toNat_ofNat_byte b
  have le (c d : Char) : c ≤ d ↔ c.toNat ≤ d.toNat := UInt32.le_iff_toNat_le
  have digits : '0'.toNat = 48 ∧ '9'.toNat = 57 := ⟨rfl, rfl⟩
  have lower : 'a'.toNat = 97 ∧ 'f'.toNat = 102 := ⟨rfl, rfl⟩
  have upper : 'A'.toNat = 65 ∧ 'F'.toNat = 70 := ⟨rfl, rfl⟩
  simp only [Hex.value?, le, size, digits, lower, upper]
  constructor
  · intro found
    split at found
    · cases found
      have digit : HexDigit (b.toNat - 48) (digitByte (b.toNat - 48)) := .decimal (by omega)
      rwa [digitByte, ofNat_add_sub (by omega)] at digit
    split at found
    · cases found
      have digit : HexDigit (b.toNat - 87) (UInt8.ofNat (0x57 + (b.toNat - 87))) :=
        .lower (by omega) (by omega)
      rwa [ofNat_add_sub (by omega)] at digit
    split at found
    · cases found
      have digit : HexDigit (b.toNat - 55) (UInt8.ofNat (0x37 + (b.toNat - 55))) :=
        .upper (by omega) (by omega)
      rwa [ofNat_add_sub (by omega)] at digit
    · cases found
  · intro digit
    cases digit with
    | decimal below =>
        simp only [digitByte, UInt8.toNat_ofNat']
        rw [if_pos (by omega)]
        congr 1
        omega
    | lower letter below =>
        simp only [UInt8.toNat_ofNat']
        rw [if_neg (by omega), if_pos (by omega)]
        congr 1
        omega
    | upper letter below =>
        simp only [UInt8.toNat_ofNat']
        rw [if_neg (by omega), if_neg (by omega), if_pos (by omega)]
        congr 1
        omega

theorem unit?_eq_some_iff {a b c d : UInt8} {code : Nat} :
    unit? a b c d = some code ↔
      ∃ w x y z, HexDigit w a ∧ HexDigit x b ∧ HexDigit y c ∧ HexDigit z d ∧
        code = 4096 * w + 256 * x + 16 * y + z := by
  simp only [unit?, Option.bind_eq_bind, Option.bind_eq_some_iff, Option.pure_def,
    Option.some.injEq, hexValue_eq_some_iff]
  constructor
  · rintro ⟨w, first, x, second, y, third, z, fourth, rfl⟩
    exact ⟨w, x, y, z, first, second, third, fourth, rfl⟩
  · rintro ⟨w, x, y, z, first, second, third, fourth, rfl⟩
    exact ⟨w, first, x, second, y, third, z, fourth, rfl⟩

/-- No escape of one letter begins like one of four digits. -/
theorem Escape.ne_unit {letter raw : UInt8} (escape : Escape letter raw) : letter ≠ 0x75 := by
  cases escape <;> decide

theorem scanAfter_append {pieces : List Piece} {bytes : Bytes} (chars : Chars pieces bytes)
    (before : List Piece) (rest : Bytes) :
    scanAfter before (bytes ++ 0x22 :: rest) = some (before.reverse ++ pieces, rest) := by
  induction chars generalizing before with
  | nil => simp [scanAfter]
  | @plain b pieces bytes printable notQuote notBackslash _ ih =>
      have plain : isPlainByte b = true := by
        simpa [isPlainByte, notQuote, notBackslash] using printable
      rw [List.cons_append, scanAfter.eq_def]
      split
      · rename_i same
        cases same
      · rename_i same
        exact absurd (List.cons.inj same).1 notQuote
      · rename_i same
        exact absurd (List.cons.inj same).1 notBackslash
      · rename_i same
        exact absurd (List.cons.inj same).1 notBackslash
      · rename_i other tail _ _ _ same
        cases same
        rw [if_pos plain, ih]
        simp
  | @escape letter raw pieces bytes escape _ ih =>
      have found : escaped? letter = some raw := escaped?_eq_some_iff.mpr escape
      rw [List.cons_append, List.cons_append, scanAfter.eq_def]
      split
      · rename_i same
        cases same
      · rename_i same
        exact absurd (List.cons.inj same).1 (by decide)
      · rename_i same
        exact absurd (List.cons.inj (List.cons.inj same).2).1 escape.ne_unit
      · rename_i same
        cases same
        rw [found]
        simp [ih]
      · rename_i notEscape same
        cases same
        exact absurd rfl (notEscape _ _ rfl)
  | unit first second third fourth _ ih =>
      have found := unit?_eq_some_iff.mpr ⟨_, _, _, _, first, second, third, fourth, rfl⟩
      simp only [List.cons_append, scanAfter, found, ih]
      simp

theorem exists_chars {before pieces : List Piece} {bytes rest : Bytes}
    (found : scanAfter before bytes = some (pieces, rest)) :
    ∃ new front, Chars new front ∧ pieces = before.reverse ++ new ∧
      bytes = front ++ 0x22 :: rest := by
  fun_induction scanAfter before bytes with
  | case1 => cases found
  | case2 before tail =>
      cases found
      exact ⟨[], [], .nil, by simp, rfl⟩
  | case3 before a b c d tail code unit ih =>
      obtain ⟨new, front, chars, same, split⟩ := ih found
      obtain ⟨w, x, y, z, first, second, third, fourth, rfl⟩ := unit?_eq_some_iff.mp unit
      exact ⟨_, _, .unit first second third fourth chars, by simp [same], by simp [split]⟩
  | case4 => cases found
  | case5 before letter tail _ raw escape ih =>
      obtain ⟨new, front, chars, same, split⟩ := ih found
      exact ⟨_, _, .escape (escaped?_eq_some_iff.mp escape) chars, by simp [same],
        by simp [split]⟩
  | case6 => cases found
  | case7 before b tail notQuote _ notBackslash plain ih =>
      obtain ⟨new, front, chars, same, split⟩ := ih found
      simp only [isPlainByte, Bool.and_eq_true, decide_eq_true_eq, bne_iff_ne] at plain
      obtain ⟨⟨printable, notQuote⟩, notBackslash⟩ := plain
      exact ⟨_, _, .plain printable notQuote notBackslash chars, by simp [same],
        by simp [split]⟩
  | case8 => cases found

/-! ## Reading tokens -/

inductive Spelled : Token → Bytes → Prop where
  | openObject : Spelled .openObject [0x7B]
  | closeObject : Spelled .closeObject [0x7D]
  | openArray : Spelled .openArray [0x5B]
  | closeArray : Spelled .closeArray [0x5D]
  | comma : Spelled .comma [0x2C]
  | colon : Spelled .colon [0x3A]
  | null : Spelled .null [0x6E, 0x75, 0x6C, 0x6C]
  | trueName : Spelled (.bool true) [0x74, 0x72, 0x75, 0x65]
  | falseName : Spelled (.bool false) [0x66, 0x61, 0x6C, 0x73, 0x65]
  | number {literal : Number} {bytes : Bytes} (written : Literal literal bytes) :
      Spelled (.number literal) bytes
  | string {pieces : List Piece} {bytes : Bytes} (written : Quoted pieces bytes) :
      Spelled (.string pieces) bytes

theorem Literal.exists_head {literal : Number} {bytes : Bytes} (written : Literal literal bytes) :
    ∃ b tail, bytes = b :: tail ∧ (b = 0x2D ∨ isDigit b = true) := by
  cases written with
  | mk minus inFront =>
      cases minus with
      | present => exact ⟨_, _, rfl, Or.inl rfl⟩
      | absent =>
          cases inFront with
          | zero => exact ⟨_, _, rfl, Or.inr rfl⟩
          | digits nonzero digits =>
              obtain ⟨below, rfl⟩ := digits
              exact ⟨_, _, rfl, Or.inr (isDigit_digitByte (below _ List.mem_cons_self))⟩

theorem next?_number {literal : Number} {bytes rest : Bytes} (written : Literal literal bytes)
    (stops : Stops rest) : Token.next? (bytes ++ rest) = some (.number literal, rest) := by
  have number := number?_append written stops
  obtain ⟨b, tail, rfl, head⟩ := written.exists_head
  rw [List.cons_append] at number ⊢
  -- No other token starts like a number.
  have other {c : UInt8} (notMinus : c ≠ 0x2D) (noDigit : isDigit c = false) : b ≠ c := by
    rintro rfl
    exact head.elim notMinus fun digit => by simp [noDigit] at digit
  unfold Token.next?
  split
  case h_11 => rw [number]; rfl
  all_goals
    rename_i same
    exact absurd (List.cons.inj same).1 (other (by decide) (by decide))

theorem next?_append {token : Token} {bytes rest : Bytes} (spelled : Spelled token bytes)
    (stops : Stops rest ∨ ∀ literal, token ≠ .number literal) :
    Token.next? (bytes ++ rest) = some (token, rest) := by
  cases spelled with
  | number written =>
      exact next?_number written (stops.resolve_right fun none => none _ rfl)
  | string written =>
      obtain ⟨chars⟩ := written
      simp only [List.cons_append, List.append_assoc, List.nil_append, Token.next?, scan,
        scanAfter_append chars]
      rfl
  | openObject | closeObject | openArray | closeArray | comma | colon | null | trueName
  | falseName => rfl

theorem exists_spelled {token : Token} {bytes rest : Bytes}
    (found : Token.next? bytes = some (token, rest)) :
    ∃ front, Spelled token front ∧ bytes = front ++ rest := by
  unfold Token.next? at found
  split at found
  case h_7 =>
    obtain ⟨⟨pieces, after⟩, scanned, same⟩ := Option.map_eq_some_iff.mp found
    cases same
    obtain ⟨new, front, chars, rfl, rfl⟩ := exists_chars scanned
    exact ⟨_, .string (.mk chars), by simp⟩
  case h_11 =>
    obtain ⟨⟨literal, after⟩, number, same⟩ := Option.map_eq_some_iff.mp found
    cases same
    obtain ⟨front, written, rfl⟩ := exists_number number
    exact ⟨front, .number written, rfl⟩
  all_goals
    cases found
    exact ⟨_, by constructor, rfl⟩

/-- No token starts with a blank. -/
theorem Spelled.exists_head {token : Token} {bytes : Bytes} (spelled : Spelled token bytes) :
    ∃ b tail, bytes = b :: tail ∧ isBlank b = false := by
  cases spelled with
  | number written =>
      obtain ⟨b, tail, rfl, head⟩ := written.exists_head
      refine ⟨b, tail, rfl, ?_⟩
      cases blank : isBlank b with
      | false => rfl
      | true =>
          simp only [isBlank, Bool.or_eq_true, beq_iff_eq] at blank
          rcases blank with ((rfl | rfl) | rfl) | rfl <;> rcases head with same | digit <;>
            contradiction
  | string written =>
      obtain ⟨chars⟩ := written
      exact ⟨_, _, rfl, rfl⟩
  | openObject | closeObject | openArray | closeArray | comma | colon | null | trueName
  | falseName =>
      exact ⟨_, _, rfl, rfl⟩

theorem Blanks.all_isBlank {bytes : Bytes} (blank : Blanks bytes) :
    ∀ b ∈ bytes, isBlank b = true := by
  intro b member
  rcases blank b member with rfl | rfl | rfl | rfl <;> rfl

theorem blanks_takeWhile (bytes : Bytes) : Blanks (bytes.takeWhile isBlank) := by
  intro b member
  have blank := List.all_eq_true.mp List.all_takeWhile b member
  simp only [isBlank, Bool.or_eq_true, beq_iff_eq] at blank
  rcases blank with ((rfl | rfl) | rfl) | rfl <;> simp

theorem tokensAfter_eq (before : List Token) (bytes : Bytes) :
    tokensAfter before bytes =
      match bytes.dropWhile isBlank with
      | [] => some before.reverse
      | b :: tail =>
        match Token.next? (b :: tail) with
        | none => none
        | some (token, rest) => tokensAfter (token :: before) rest := by
  rw [tokensAfter.eq_def]
  split
  · rename_i blanks
    rw [blanks]
  · rename_i blanks
    split
    · rename_i found
      simp only [blanks, found]
    · rename_i found
      simp only [blanks, found]

theorem tokensAfter_blanks {blanks : Bytes} (blank : Blanks blanks) (before : List Token)
    (rest : Bytes) : tokensAfter before (blanks ++ rest) = tokensAfter before rest := by
  rw [tokensAfter_eq, tokensAfter_eq before rest,
    List.dropWhile_append_of_pos blank.all_isBlank]

theorem tokensAfter_spelled {token : Token} {bytes rest : Bytes} (spelled : Spelled token bytes)
    (stops : Stops rest ∨ ∀ literal, token ≠ .number literal) (before : List Token) :
    tokensAfter before (bytes ++ rest) = tokensAfter (token :: before) rest := by
  have found := next?_append spelled stops
  obtain ⟨b, tail, rfl, notBlank⟩ := spelled.exists_head
  have same : (b :: tail ++ rest).dropWhile isBlank = b :: tail ++ rest :=
    List.dropWhile_cons_of_neg (by simp [notBlank])
  rw [tokensAfter_eq, same, List.cons_append]
  rw [List.cons_append] at found
  simp only [found]

end Grammar

end Json

end StationRelay
