import StationRelay.Json.Number
import StationRelay.Json.Text

/-!
# Tokens

The text of a value is a sequence of tokens with blanks between them.  A blank
is a space, a tab, a line feed or a carriage return.  `tokens` cuts the whole
of a text; it refuses a byte that starts no token.
-/

namespace StationRelay

namespace Json

inductive Token where
  | openObject
  | closeObject
  | openArray
  | closeArray
  | comma
  | colon
  | null
  | bool (value : Bool)
  | number (literal : Number)
  | string (pieces : List Piece)
  deriving DecidableEq

def isBlank (b : UInt8) : Bool :=
  b == 32 || b == 9 || b == 10 || b == 13

def isDigit (b : UInt8) : Bool :=
  48 ≤ b && b ≤ 57

def digits (bytes : Bytes) : List Nat × Bytes :=
  ((bytes.takeWhile isDigit).map fun b => b.toNat - 48, bytes.dropWhile isDigit)

def someDigits? (bytes : Bytes) : Option (List Nat × Bytes) :=
  if (digits bytes).1.isEmpty then none else some (digits bytes)

/-- The digits before the point: a single zero, or digits that do not start with one. -/
def wholeDigits? (bytes : Bytes) : Option (List Nat × Bytes) :=
  match digits bytes with
  | ([0], rest) => some ([0], rest)
  | ([], _) => none
  | (0 :: _, _) => none
  | found => some found

/-- A point with digits behind it, or nothing. -/
def fractionDigits? : Bytes → Option (List Nat × Bytes)
  | 46 :: rest => someDigits? rest
  | bytes => some ([], bytes)

def exponentSign : Bytes → Bool × Bytes
  | 43 :: rest => (false, rest)
  | 45 :: rest => (true, rest)
  | bytes => (false, bytes)

def exponentDigits? (bytes : Bytes) : Option (Option (Bool × List Nat) × Bytes) :=
  match bytes with
  | b :: rest =>
    if b = 101 ∨ b = 69 then
      match someDigits? (exponentSign rest).2 with
      | some (found, rest') => some (some ((exponentSign rest).1, found), rest')
      | none => none
    else some (none, bytes)
  | [] => some (none, [])

def unsignedNumber? (negative : Bool) (bytes : Bytes) : Option (Number × Bytes) :=
  match wholeDigits? bytes with
  | none => none
  | some (whole, afterWhole) =>
    match fractionDigits? afterWhole with
    | none => none
    | some (fraction, afterFraction) =>
      match exponentDigits? afterFraction with
      | none => none
      | some (exponent, rest) => some (⟨negative, whole, fraction, exponent⟩, rest)

def number? : Bytes → Option (Number × Bytes)
  | 45 :: rest => unsignedNumber? true rest
  | bytes => unsignedNumber? false bytes

def Token.next? : Bytes → Option (Token × Bytes)
  | 123 :: rest => some (.openObject, rest)
  | 125 :: rest => some (.closeObject, rest)
  | 91 :: rest => some (.openArray, rest)
  | 93 :: rest => some (.closeArray, rest)
  | 44 :: rest => some (.comma, rest)
  | 58 :: rest => some (.colon, rest)
  | 34 :: rest => (scan rest).map fun (pieces, rest) => (.string pieces, rest)
  | 110 :: 117 :: 108 :: 108 :: rest => some (.null, rest)
  | 116 :: 114 :: 117 :: 101 :: rest => some (.bool true, rest)
  | 102 :: 97 :: 108 :: 115 :: 101 :: rest => some (.bool false, rest)
  | bytes => (number? bytes).map fun (literal, rest) => (.number literal, rest)

theorem length_digits (bytes : Bytes) :
    (digits bytes).1.length + (digits bytes).2.length = bytes.length := by
  simp only [digits, List.length_map]
  rw [← List.length_append, List.takeWhile_append_dropWhile]

theorem someDigits?_lt {bytes rest : Bytes} {found : List Nat}
    (h : someDigits? bytes = some (found, rest)) : rest.length < bytes.length := by
  unfold someDigits? at h
  split at h
  · cases h
  · rename_i nonempty
    have total := length_digits bytes
    have eq := Option.some.inj h
    rw [eq] at total nonempty
    cases found with
    | nil => simp at nonempty
    | cons d ds =>
      simp only [List.length_cons] at total
      omega

theorem wholeDigits?_lt {bytes rest : Bytes} {found : List Nat}
    (h : wholeDigits? bytes = some (found, rest)) : rest.length < bytes.length := by
  have total := length_digits bytes
  unfold wholeDigits? at h
  split at h
  · rename_i eq
    cases h
    rw [eq] at total
    simp at total
    omega
  · cases h
  · cases h
  · rename_i pair nonempty _
    have eq := Option.some.inj h
    rw [eq] at total nonempty
    cases found with
    | nil => exact absurd rfl (nonempty rest)
    | cons d ds =>
      simp only [List.length_cons] at total
      omega

theorem fractionDigits?_le {bytes rest : Bytes} {found : List Nat}
    (h : fractionDigits? bytes = some (found, rest)) : rest.length ≤ bytes.length := by
  unfold fractionDigits? at h
  split at h
  · have := someDigits?_lt h
    simp only [List.length_cons]
    omega
  · cases h
    exact Nat.le_refl _

theorem length_exponentSign (bytes : Bytes) : (exponentSign bytes).2.length ≤ bytes.length := by
  unfold exponentSign
  split <;> simp

theorem exponentDigits?_le {bytes rest : Bytes} {found : Option (Bool × List Nat)}
    (h : exponentDigits? bytes = some (found, rest)) : rest.length ≤ bytes.length := by
  unfold exponentDigits? at h
  split at h
  · rename_i b tail
    split at h
    · split at h
      · rename_i digits after eq
        cases h
        have := someDigits?_lt eq
        have := length_exponentSign tail
        simp only [List.length_cons]
        omega
      · cases h
    · cases h
      exact Nat.le_refl _
  · cases h
    exact Nat.le_refl _

theorem unsignedNumber?_lt {negative : Bool} {bytes rest : Bytes} {literal : Number}
    (h : unsignedNumber? negative bytes = some (literal, rest)) :
    rest.length < bytes.length := by
  unfold unsignedNumber? at h
  split at h
  · cases h
  · rename_i whole afterWhole eqWhole
    split at h
    · cases h
    · rename_i fraction afterFraction eqFraction
      split at h
      · cases h
      · rename_i exponent after eqExponent
        cases h
        have := wholeDigits?_lt eqWhole
        have := fractionDigits?_le eqFraction
        have := exponentDigits?_le eqExponent
        omega

theorem number?_lt {bytes rest : Bytes} {literal : Number}
    (h : number? bytes = some (literal, rest)) : rest.length < bytes.length := by
  unfold number? at h
  split at h
  · have := unsignedNumber?_lt h
    simp only [List.length_cons]
    omega
  · exact unsignedNumber?_lt h

theorem Token.next?_lt {bytes rest : Bytes} {token : Token}
    (h : Token.next? bytes = some (token, rest)) : rest.length < bytes.length := by
  unfold Token.next? at h
  split at h
  all_goals try (cases h; simp only [List.length_cons]; omega)
  · rename_i tail
    obtain ⟨⟨pieces, after⟩, found, eq⟩ := Option.map_eq_some_iff.1 h
    cases eq
    have := scanAfter_lt found
    simp only [List.length_cons]
    omega
  · obtain ⟨⟨literal, after⟩, found, eq⟩ := Option.map_eq_some_iff.1 h
    cases eq
    exact number?_lt found

theorem length_dropWhile_le (keep : UInt8 → Bool) (bytes : Bytes) :
    (bytes.dropWhile keep).length ≤ bytes.length := by
  have := congrArg List.length (List.takeWhile_append_dropWhile (p := keep) (l := bytes))
  rw [List.length_append] at this
  omega

/-- The tokens of a text, behind those found before. -/
def tokensAfter (before : List Token) (bytes : Bytes) : Option (List Token) :=
  match blanks : bytes.dropWhile isBlank with
  | [] => some before.reverse
  | b :: tail =>
    match found : Token.next? (b :: tail) with
    | none => none
    | some (token, rest) =>
      have : rest.length < bytes.length := by
        have shorter := Token.next?_lt found
        have le := length_dropWhile_le isBlank bytes
        rw [blanks] at le
        omega
      tokensAfter (token :: before) rest
  termination_by bytes.length

def tokens? (bytes : Bytes) : Option (List Token) :=
  tokensAfter [] bytes

end Json

end StationRelay
