import StationRelay.Proofs.JsonReading

/-!
# Blanks between tokens

`compact` takes the blanks out of a text and leaves strings as they are.  A
value that is written with blanks is also written without them, so texts that
differ in their blanks only are texts of one value (`eq_of_compact_eq`).
-/

namespace StationRelay

namespace Json

mutual

/-- The bytes without the blanks outside strings. -/
def compact : Bytes → Bytes
  | [] => []
  | b :: rest =>
    if b = 34 then b :: compactString rest
    else if isBlank b then compact rest
    else b :: compact rest

/-- The bytes behind an opening quote without the blanks that stand behind the closing one. -/
def compactString : Bytes → Bytes
  | [] => []
  | 92 :: escape :: rest => 92 :: escape :: compactString rest
  | b :: rest => if b = 34 then b :: compact rest else b :: compactString rest

end

namespace Grammar

def Condenses (bytes dense : Bytes) : Prop :=
  ∀ rest, compact (bytes ++ rest) = dense ++ compact rest

def Solid (b : UInt8) : Prop :=
  b ≠ 34 ∧ isBlank b = false

instance (b : UInt8) : Decidable (Solid b) :=
  inferInstanceAs (Decidable (_ ∧ _))

namespace Condenses

theorem append {first second firstDense secondDense : Bytes} (front : Condenses first firstDense)
    (back : Condenses second secondDense) :
    Condenses (first ++ second) (firstDense ++ secondDense) := by
  intro rest
  rw [List.append_assoc, front, back, List.append_assoc]

theorem blanks {blanks : Bytes} (blank : Blanks blanks) : Condenses blanks [] := by
  intro rest
  have all := blank.all_isBlank
  clear blank
  induction blanks with
  | nil => rfl
  | cons b blanks ih =>
      obtain ⟨first, others⟩ := List.forall_mem_cons.mp all
      have noQuote : b ≠ 34 := by
        rintro rfl
        cases first
      rw [List.cons_append, compact, if_neg noQuote, if_pos first]
      exact ih others

theorem solid {bytes : Bytes} (solid : ∀ b ∈ bytes, Solid b) : Condenses bytes bytes := by
  intro rest
  induction bytes with
  | nil => rfl
  | cons b bytes ih =>
      obtain ⟨⟨noQuote, noBlank⟩, others⟩ := List.forall_mem_cons.mp solid
      rw [List.cons_append, compact, if_neg noQuote, if_neg (by simp [noBlank]), ih others]
      rfl

theorem cons {b : UInt8} {bytes dense : Bytes} (first : Solid b) (back : Condenses bytes dense) :
    Condenses (b :: bytes) (b :: dense) := by
  have alone : Condenses [b] [b] := solid (List.forall_mem_singleton.mpr first)
  exact alone.append back

theorem bracketed {left right : UInt8} {bytes dense : Bytes} (first : Solid left)
    (last : Solid right) (middle : Condenses bytes dense) :
    Condenses (left :: (bytes ++ [right])) (left :: (dense ++ [right])) :=
  cons first (append middle (solid (List.forall_mem_singleton.mpr last)))

end Condenses

/-! ## Tokens -/

theorem digitByte_solid {value : Nat} (below : value < 10) : Solid (digitByte value) := by
  have digit := isDigit_digitByte below
  generalize digitByte value = b at digit
  constructor
  · rintro rfl
    cases digit
  · cases blank : isBlank b with
    | false => rfl
    | true =>
        simp only [isBlank, Bool.or_eq_true, beq_iff_eq] at blank
        rcases blank with ((rfl | rfl) | rfl) | rfl <;> cases digit

theorem Digits.solid {values : List Nat} {bytes : Bytes} (digits : Digits values bytes) :
    ∀ b ∈ bytes, Solid b := by
  obtain ⟨below, rfl⟩ := digits
  intro b member
  obtain ⟨value, listed, rfl⟩ := List.mem_map.mp member
  exact digitByte_solid (below value listed)

theorem Literal.solid {literal : Number} {bytes : Bytes} (written : Literal literal bytes) :
    ∀ b ∈ bytes, Solid b := by
  obtain ⟨minus, inFront, behind, scaled⟩ := written
  simp only [List.forall_mem_append]
  refine ⟨?_, ?_, ?_, ?_⟩
  · cases minus with
    | absent => exact List.forall_mem_nil _
    | present => exact List.forall_mem_singleton.mpr (by decide)
  · cases inFront with
    | zero => exact List.forall_mem_singleton.mpr (by decide)
    | digits _ digits => exact digits.solid
  · cases behind with
    | absent => exact List.forall_mem_nil _
    | present _ digits => exact List.forall_mem_cons.mpr ⟨(by decide), digits.solid⟩
  · cases scaled with
    | absent => exact List.forall_mem_nil _
    | present marked signed _ digits =>
        rw [List.forall_mem_cons, List.forall_mem_append]
        refine ⟨?_, ?_, digits.solid⟩
        · rcases marked with rfl | rfl <;> exact (by decide)
        · cases signed with
          | absent => exact List.forall_mem_nil _
          | plus | minus => exact List.forall_mem_singleton.mpr (by decide)

theorem compactString_cons {b : UInt8} (rest : Bytes) (noQuote : b ≠ 34) (noEscape : b ≠ 92) :
    compactString (b :: rest) = b :: compactString rest := by
  rw [compactString]
  · exact if_neg noQuote
  · rintro escape tail rfl
    exact absurd rfl noEscape

theorem HexDigit.inString {value : Nat} {b : UInt8} (digit : HexDigit value b) :
    b ≠ 34 ∧ b ≠ 92 := by
  have plain {n : Nat} (inRange : 48 ≤ n ∧ n < 92 ∨ 97 ≤ n ∧ n < 103) :
      UInt8.ofNat n ≠ 34 ∧ UInt8.ofNat n ≠ 92 := by
    simp only [ne_eq, ← UInt8.toNat_inj, UInt8.toNat_ofNat']
    constructor
    · change ¬ n % 256 = 34
      omega
    · change ¬ n % 256 = 92
      omega
  cases digit with
  | decimal below => exact plain (Or.inl ⟨by omega, by omega⟩)
  | lower letter below => exact plain (Or.inr ⟨by omega, by omega⟩)
  | upper letter below => exact plain (Or.inl ⟨by omega, by omega⟩)

/-- What stands between quotes is left as it is. -/
theorem Chars.compactString_append {pieces : List Piece} {bytes : Bytes}
    (chars : Chars pieces bytes) (rest : Bytes) :
    compactString (bytes ++ 34 :: rest) = bytes ++ 34 :: compact rest := by
  induction chars with
  | nil => rw [List.nil_append, compactString, if_pos rfl, List.nil_append]; exact nofun
  | plain printable notQuote notBackslash _ ih =>
      rw [List.cons_append, compactString_cons _ notQuote notBackslash, ih]
      rfl
  | escape escape _ ih =>
      rw [List.cons_append, List.cons_append, compactString, ih]
      rfl
  | unit first second third fourth _ ih =>
      simp only [List.cons_append, compactString]
      rw [compactString_cons _ first.inString.1 first.inString.2,
        compactString_cons _ second.inString.1 second.inString.2,
        compactString_cons _ third.inString.1 third.inString.2,
        compactString_cons _ fourth.inString.1 fourth.inString.2, ih]

theorem Quoted.condenses {pieces : List Piece} {bytes : Bytes} (quoted : Quoted pieces bytes) :
    Condenses bytes bytes := by
  obtain ⟨chars⟩ := quoted
  intro rest
  rw [List.cons_append, List.append_assoc, List.singleton_append, compact, if_pos rfl,
    chars.compactString_append]
  simp

/-! ## Values -/

theorem noBlanks : Blanks [] := fun _ none => absurd none List.not_mem_nil

theorem Value.text {value : Json} {bytes : Bytes} (written : Value value bytes) :
    Text value bytes := by
  have text := Text.mk noBlanks written noBlanks
  rwa [List.append_nil] at text

mutual

theorem Value.exists_dense {value : Json} {bytes : Bytes} :
    Value value bytes → ∃ dense, Value value dense ∧ Condenses bytes dense
  | .null => ⟨_, .null, .solid (by simp [Solid, isBlank])⟩
  | .trueName => ⟨_, .trueName, .solid (by simp [Solid, isBlank])⟩
  | .falseName => ⟨_, .falseName, .solid (by simp [Solid, isBlank])⟩
  | .number written => ⟨_, .number written, .solid written.solid⟩
  | .string written => ⟨_, .string written, written.condenses⟩
  | .emptyArray blank =>
      ⟨_, .emptyArray noBlanks, .bracketed (by decide) (by decide) (.blanks blank)⟩
  | .array written => by
      obtain ⟨dense, same, condenses⟩ := written.exists_dense
      exact ⟨_, .array same, .bracketed (by decide) (by decide) condenses⟩
  | .emptyObject blank =>
      ⟨_, .emptyObject noBlanks, .bracketed (by decide) (by decide) (.blanks blank)⟩
  | .object written => by
      obtain ⟨dense, same, condenses⟩ := written.exists_dense
      exact ⟨_, .object same, .bracketed (by decide) (by decide) condenses⟩

theorem Text.exists_dense {value : Json} {bytes : Bytes} :
    Text value bytes → ∃ dense, Value value dense ∧ Condenses bytes dense
  | .mk blank written blankAfter => by
      obtain ⟨dense, same, condenses⟩ := written.exists_dense
      have around := (Condenses.blanks blank).append (condenses.append (.blanks blankAfter))
      rw [List.append_nil] at around
      exact ⟨dense, same, around⟩

theorem Items.exists_dense {items : List Json} {bytes : Bytes} :
    Items items bytes → ∃ dense, Items items dense ∧ Condenses bytes dense
  | .one written => by
      obtain ⟨dense, same, condenses⟩ := written.exists_dense
      exact ⟨_, .one same.text, condenses⟩
  | .more written follow => by
      obtain ⟨dense, same, condenses⟩ := written.exists_dense
      obtain ⟨others, rest, condensesRest⟩ := follow.exists_dense
      exact ⟨_, .more same.text rest, condenses.append (.cons (by decide) condensesRest)⟩

theorem Member.exists_dense {key : List Piece} {value : Json} {bytes : Bytes} :
    Member key value bytes → ∃ dense, Member key value dense ∧ Condenses bytes dense
  | .mk blank named blankAfter written => by
      obtain ⟨dense, same, condenses⟩ := written.exists_dense
      exact ⟨_, .mk noBlanks named noBlanks same.text,
        (Condenses.blanks blank).append (named.condenses.append
          ((Condenses.blanks blankAfter).append (.cons (by decide) condenses)))⟩

theorem Members.exists_dense {members : List (List Piece × Json)} {bytes : Bytes} :
    Members members bytes → ∃ dense, Members members dense ∧ Condenses bytes dense
  | .one written => by
      obtain ⟨dense, same, condenses⟩ := written.exists_dense
      exact ⟨_, .one same, condenses⟩
  | .more written follow => by
      obtain ⟨dense, same, condenses⟩ := written.exists_dense
      obtain ⟨others, rest, condensesRest⟩ := follow.exists_dense
      exact ⟨_, .more same rest, condenses.append (.cons (by decide) condensesRest)⟩

end

/-- A value is also written without blanks. -/
theorem Text.compact {value : Json} {bytes : Bytes} (written : Text value bytes) :
    Text value (compact bytes) := by
  obtain ⟨dense, same, condenses⟩ := written.exists_dense
  have whole := condenses []
  rw [List.append_nil, Json.compact, List.append_nil] at whole
  exact whole ▸ same.text

/-- Texts that differ in blanks only are texts of one value. -/
theorem Text.eq_of_compact_eq {value other : Json} {first second : Bytes}
    (written : Text value first) (writtenOther : Text other second)
    (same : Json.compact first = Json.compact second) : value = other :=
  written.compact.unique (same ▸ writtenOther.compact)

end Grammar

end Json

end StationRelay
