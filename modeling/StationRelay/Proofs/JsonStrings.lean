import StationRelay.Json.Text

/-!
# What strings mean

A string between quotes stands for characters, each by its UTF-8 bytes or by the
units that escape it; `text?_eq_some_iff` says that exactly these strings have a
text.  That escapes and bytes cannot mix within a character rests on UTF-8: no
character starts inside another one, so a text is cut wherever a character
stands in it (`exists_of_ofChars_eq`).
-/

namespace StationRelay

namespace Bytes

/-! ## UTF-8 -/

def ofChars (chars : List Char) : Bytes :=
  chars.flatMap String.utf8EncodeChar

def IsUtf8 (bytes : Bytes) : Prop :=
  ∃ chars, bytes = ofChars chars

@[simp] theorem ofChars_cons (c : Char) (chars : List Char) :
    ofChars (c :: chars) = String.utf8EncodeChar c ++ ofChars chars := rfl

@[simp] theorem ofChars_append (front back : List Char) :
    ofChars (front ++ back) = ofChars front ++ ofChars back :=
  List.flatMap_append

/-- A character is known by its bytes, whatever follows them. -/
theorem encode_append_cancel {c d : Char} {rest more : Bytes}
    (same : String.utf8EncodeChar c ++ rest = String.utf8EncodeChar d ++ more) :
    c = d ∧ rest = more := by
  have first (e : Char) (tail : Bytes) :
      (String.utf8EncodeChar e ++ tail).toByteArray.utf8DecodeChar? 0 = some e := by
    rw [List.toByteArray_append]
    exact ByteArray.utf8DecodeChar?_utf8EncodeChar_append
  have equal : c = d := Option.some.inj ((first c rest).symm.trans (same ▸ first d more))
  subst equal
  exact ⟨rfl, List.append_cancel_left same⟩

/-- The bytes of a character do not start inside another one. -/
theorem eq_nil_of_encode_eq {c d : Char} {front back rest : Bytes} (nonempty : back ≠ [])
    (inside : String.utf8EncodeChar d = front ++ back)
    (starts : ∃ more, back ++ rest = String.utf8EncodeChar c ++ more) : front = [] := by
  obtain ⟨more, starts⟩ := starts
  obtain ⟨b, tail, rfl⟩ := List.exists_cons_of_ne_nil nonempty
  have leads : (String.utf8EncodeChar c)[0]? = some b := by
    have head := congrArg (·[0]?) starts
    simp only [List.cons_append, List.getElem?_cons_zero] at head
    rw [head, List.getElem?_append_left (List.length_pos_iff.mpr String.utf8EncodeChar_ne_nil)]
  have lead : b.IsUTF8FirstByte := by
    obtain ⟨bound, same⟩ := List.getElem?_eq_some_iff.mp leads
    rw [← same]
    exact UInt8.isUTF8FirstByte_getElem_utf8EncodeChar.mpr rfl
  have place : (String.utf8EncodeChar d)[front.length]? = some b := by
    rw [inside]
    simp
  obtain ⟨bound, same⟩ := List.getElem?_eq_some_iff.mp place
  rw [← same] at lead
  exact List.eq_nil_of_length_eq_zero (UInt8.isUTF8FirstByte_getElem_utf8EncodeChar.mp lead)

/-- Where a character stands in a text, the text can be cut. -/
theorem exists_of_ofChars_eq {c : Char} {chars : List Char} {front back : Bytes}
    (written : ofChars chars = front ++ (String.utf8EncodeChar c ++ back)) :
    ∃ before after, chars = before ++ c :: after ∧ front = ofChars before ∧
      back = ofChars after := by
  induction chars generalizing front with
  | nil =>
      have empty := List.append_eq_nil_iff.mp (List.append_eq_nil_iff.mp written.symm).2
      exact absurd empty.1 String.utf8EncodeChar_ne_nil
  | cons d chars ih =>
      rw [ofChars_cons] at written
      rcases List.append_eq_append_iff.mp written with ⟨more, split, rest⟩ | ⟨more, split, rest⟩
      · obtain ⟨before, after, rfl, rfl, tail⟩ := ih rest
        exact ⟨d :: before, after, rfl, split, tail⟩
      · by_cases empty : more = []
        · subst empty
          rw [List.append_nil] at split
          have here : ofChars chars = [] ++ (String.utf8EncodeChar c ++ back) := rest.symm
          obtain ⟨before, after, rfl, none, tail⟩ := ih here
          exact ⟨d :: before, after, rfl, by rw [ofChars_cons, split, ← none, List.append_nil],
            tail⟩
        · have none := eq_nil_of_encode_eq empty split ⟨back, rest.symm⟩
          subst none
          obtain ⟨rfl, tail⟩ := encode_append_cancel written
          exact ⟨[], chars, rfl, rfl, tail.symm⟩

theorem encode_ascii {b : UInt8} (ascii : b < 128) :
    String.utf8EncodeChar (Char.ofNat b.toNat) = [b] := by
  have small : b.toNat < 128 := UInt8.lt_iff_toNat_lt.mp ascii
  have valid : b.toNat.isValidChar := Or.inl (by omega)
  have size : (Char.ofNat b.toNat).val.toNat = b.toNat := by
    rw [Char.ofNat, dif_pos valid]
    rfl
  rw [String.utf8EncodeChar, size]
  rw [if_pos (by omega), UInt8.ofNat_toNat]

/-- Text can be cut at a byte of ASCII. -/
theorem isUtf8_append_cons {b : UInt8} (ascii : b < 128) (front back : Bytes) :
    IsUtf8 (front ++ b :: back) ↔ IsUtf8 front ∧ IsUtf8 back := by
  have alone := encode_ascii ascii
  constructor
  · rintro ⟨chars, written⟩
    have cut : ofChars chars =
        front ++ (String.utf8EncodeChar (Char.ofNat b.toNat) ++ back) := by
      rw [alone]
      exact written.symm
    obtain ⟨before, after, -, left, right⟩ := exists_of_ofChars_eq cut
    exact ⟨⟨before, left⟩, ⟨after, right⟩⟩
  · rintro ⟨⟨before, rfl⟩, ⟨after, rfl⟩⟩
    refine ⟨before ++ Char.ofNat b.toNat :: after, ?_⟩
    rw [ofChars_append, ofChars_cons, alone]
    rfl

theorem isUtf8_nil : IsUtf8 [] := ⟨[], rfl⟩

theorem isUtf8_cons {b : UInt8} (ascii : b < 128) (rest : Bytes) :
    IsUtf8 (b :: rest) ↔ IsUtf8 rest := by
  have cut := isUtf8_append_cons ascii [] rest
  simpa [isUtf8_nil] using cut

theorem isUtf8_ascii_append {front : Bytes} (ascii : ∀ b ∈ front, b < 128) (back : Bytes) :
    IsUtf8 (front ++ back) ↔ IsUtf8 back := by
  induction front with
  | nil => rfl
  | cons b front ih =>
      rw [List.cons_append, isUtf8_cons (ascii b List.mem_cons_self)]
      exact ih fun other member => ascii other (List.mem_cons_of_mem b member)

theorem isUtf8_of_ascii {bytes : Bytes} (ascii : ∀ b ∈ bytes, b < 128) : IsUtf8 bytes := by
  have front := (isUtf8_ascii_append ascii []).mpr isUtf8_nil
  rwa [List.append_nil] at front

theorem isUtf8_append_ascii {back : Bytes} (ascii : ∀ b ∈ back, b < 128) (front : Bytes) :
    IsUtf8 (front ++ back) ↔ IsUtf8 front := by
  cases back with
  | nil => rw [List.append_nil]
  | cons b back =>
      obtain ⟨first, others⟩ := List.forall_mem_cons.mp ascii
      rw [isUtf8_append_cons first]
      exact and_iff_left (isUtf8_of_ascii others)

end Bytes

namespace Json

open Bytes (ofChars ofChars_cons)

/-! ## Texts -/

theorem ofUtf8?_eq_some_iff {bytes : Bytes} {text : String} :
    ofUtf8? bytes = some text ↔ bytes = ofChars text.toList := by
  have back : text.toByteArray.data.toList = ofChars text.toList := by
    rw [← String.ofList_toList (s := text), String.toByteArray_ofList, String.toList_ofList]
    exact List.toList_data_toByteArray
  rw [← back]
  constructor
  · intro found
    unfold ofUtf8? String.fromUTF8? at found
    split at found
    · cases found
      rfl
    · cases found
  · rintro rfl
    have valid : ByteArray.IsValidUTF8 ⟨text.toByteArray.data.toList.toArray⟩ := text.isValidUTF8
    unfold ofUtf8? String.fromUTF8?
    rw [dif_pos valid]
    rfl

theorem isSome_ofUtf8?_iff {bytes : Bytes} :
    (ofUtf8? bytes).isSome = true ↔ Bytes.IsUtf8 bytes := by
  rw [Option.isSome_iff_exists]
  constructor
  · rintro ⟨text, found⟩
    exact ⟨text.toList, ofUtf8?_eq_some_iff.mp found⟩
  · rintro ⟨chars, rfl⟩
    refine ⟨String.ofList chars, ofUtf8?_eq_some_iff.mpr ?_⟩
    rw [String.toList_ofList]

/-- The pieces of one character: its bytes, or the units that escape it. -/
inductive Spells : List Piece → Char → Prop where
  | bytes (c : Char) : Spells ((String.utf8EncodeChar c).map .byte) c
  | unit {code : Nat} (single : code < 0xD800 ∨ 0xE000 ≤ code) :
      Spells [.unit code] (Char.ofNat code)
  | pair {high low : Nat} (first : 0xD800 ≤ high ∧ high < 0xDC00)
      (second : 0xDC00 ≤ low ∧ low < 0xE000) :
      Spells [.unit high, .unit low]
        (Char.ofNat (0x10000 + 0x400 * (high - 0xD800) + (low - 0xDC00)))

/-- The characters a string between quotes stands for. -/
inductive Denotes : List Piece → List Char → Prop where
  | nil : Denotes [] []
  | cons {front pieces : List Piece} {c : Char} {chars : List Char} (spells : Spells front c)
      (rest : Denotes pieces chars) : Denotes (front ++ pieces) (c :: chars)

attribute [local simp] bytesAfter

theorem bytesAfter_append (front before : Bytes) (pieces : List Piece) :
    bytesAfter (front ++ before) pieces =
      (bytesAfter front pieces).map (before.reverse ++ ·) := by
  fun_induction bytesAfter front pieces with
  | case1 front => simp [bytesAfter]
  | case2 front raw rest ih => rw [bytesAfter, ← ih, List.cons_append]
  | case3 front code rest low =>
      rw [bytesAfter.eq_def]
      exact if_pos low
  | case4 front code notLow high low rest pair point ih =>
      rw [List.append_assoc] at ih
      rw [bytesAfter, if_neg notLow, if_pos high]
      exact (if_pos pair).trans ih
  | case5 front code notLow high low rest notPair =>
      rw [bytesAfter, if_neg notLow, if_pos high]
      exact if_neg notPair
  | case6 front code rest notLow high notUnit =>
      rw [bytesAfter.eq_def]
      dsimp only
      rw [if_neg notLow, if_pos high]
      split
      · exact absurd rfl (notUnit _ _)
      · rfl
  | case7 front code rest notLow notHigh ih =>
      rw [List.append_assoc] at ih
      rw [bytesAfter.eq_def]
      exact (if_neg notLow).trans ((if_neg notHigh).trans ih)

theorem bytesAfter_bytes (raws before : Bytes) (pieces : List Piece) :
    bytesAfter before (raws.map .byte ++ pieces) = bytesAfter (raws.reverse ++ before) pieces := by
  induction raws generalizing before with
  | nil => rfl
  | cons raw raws ih =>
      rw [List.map_cons, List.cons_append, bytesAfter, ih]
      simp

theorem bytesAfter_spelled {front : List Piece} {c : Char} (spells : Spells front c)
    (before : Bytes) (rest : List Piece) :
    bytesAfter before (front ++ rest) =
      bytesAfter ((String.utf8EncodeChar c).reverse ++ before) rest := by
  cases spells with
  | bytes => exact bytesAfter_bytes _ before rest
  | @unit code single =>
      have notLow : ¬ isLowSurrogate code = true := by
        simp only [isLowSurrogate, Bool.and_eq_true, decide_eq_true_eq]
        omega
      have notHigh : ¬ isHighSurrogate code = true := by
        simp only [isHighSurrogate, Bool.and_eq_true, decide_eq_true_eq]
        omega
      rw [bytesAfter.eq_def]
      exact (if_neg notLow).trans (if_neg notHigh)
  | @pair high low first second =>
      have notLow : ¬ isLowSurrogate high = true := by
        simp only [isLowSurrogate, Bool.and_eq_true, decide_eq_true_eq]
        omega
      have isHigh : isHighSurrogate high = true := by
        simpa [isHighSurrogate] using first
      have isLow : isLowSurrogate low = true := by
        simpa [isLowSurrogate] using second
      rw [bytesAfter.eq_def]
      exact (if_neg notLow).trans ((if_pos isHigh).trans (if_pos isLow))

/-- What can be read starts with the units of a character. -/
theorem exists_spells {code : Nat} {before bytes : Bytes} {rest : List Piece}
    (found : bytesAfter before (.unit code :: rest) = some bytes) :
    ∃ front c more, Spells front c ∧ front ≠ [] ∧ .unit code :: rest = front ++ more := by
  by_cases single : code < 0xD800 ∨ 0xE000 ≤ code
  · exact ⟨[.unit code], _, rest, .unit single, List.cons_ne_nil _ _, rfl⟩
  rw [bytesAfter.eq_def] at found
  dsimp only at found
  split at found
  · cases found
  rename_i notLow
  simp only [isLowSurrogate, Bool.and_eq_true, decide_eq_true_eq] at notLow
  have high : 0xD800 ≤ code ∧ code < 0xDC00 := by omega
  rw [if_pos (by simpa [isHighSurrogate] using high)] at found
  split at found
  · split at found
    · rename_i low more isLow
      simp only [isLowSurrogate, Bool.and_eq_true, decide_eq_true_eq] at isLow
      exact ⟨_, _, more, .pair high isLow, List.cons_ne_nil _ _, rfl⟩
    · cases found
  · cases found

theorem bytesAfter_encode (c : Char) (before : Bytes) (rest : List Piece) :
    bytesAfter ((String.utf8EncodeChar c).reverse ++ before) rest =
      (bytesAfter [] rest).map fun tail =>
        before.reverse ++ (String.utf8EncodeChar c ++ tail) := by
  have shift := bytesAfter_append [] ((String.utf8EncodeChar c).reverse ++ before) rest
  rw [List.nil_append] at shift
  rw [shift]
  congr 1
  funext tail
  simp

theorem Denotes.bytesAfter_eq {pieces : List Piece} {chars : List Char}
    (denotes : Denotes pieces chars) : bytesAfter [] pieces = some (ofChars chars) := by
  induction denotes with
  | nil => rfl
  | cons spells _ ih =>
      rw [bytesAfter_spelled spells, bytesAfter_encode, ih]
      rfl

theorem Denotes.behind {pieces : List Piece} {chars : List Char} (denotes : Denotes pieces chars)
    (before : List Char) : Denotes ((ofChars before).map .byte ++ pieces) (before ++ chars) := by
  induction before with
  | nil => exact denotes
  | cons c before ih =>
      rw [ofChars_cons, List.map_append, List.append_assoc]
      exact .cons (.bytes c) ih

theorem denotes_of_bytesAfter (raws : Bytes) (chars : List Char) (pieces : List Piece)
    (found : bytesAfter raws.reverse pieces = some (ofChars chars)) :
    Denotes (raws.map .byte ++ pieces) chars := by
  match pieces with
  | [] =>
      rw [bytesAfter, List.reverse_reverse] at found
      cases Option.some.inj found
      simpa using Denotes.nil.behind chars
  | .byte raw :: rest =>
      have more : bytesAfter (raws ++ [raw]).reverse rest = some (ofChars chars) := by
        simpa [bytesAfter] using found
      simpa using denotes_of_bytesAfter (raws ++ [raw]) chars rest more
  | .unit code :: rest =>
      obtain ⟨front, c, more, spells, nonempty, split⟩ := exists_spells found
      have shorter : more.length < rest.length + 1 := by
        have size := congrArg List.length split
        have positive := List.length_pos_iff.mpr nonempty
        simp only [List.length_cons, List.length_append] at size
        omega
      rw [split, bytesAfter_spelled spells, bytesAfter_encode, List.reverse_reverse] at found
      obtain ⟨tail, others, whole⟩ := Option.map_eq_some_iff.mp found
      -- The character is not inside another one, so the bytes in front of it are a text.
      obtain ⟨before, after, rfl, rfl, rfl⟩ := Bytes.exists_of_ofChars_eq whole.symm
      rw [split]
      exact (Denotes.cons spells (denotes_of_bytesAfter [] after more others)).behind before
termination_by pieces.length

/-- A string has a text exactly if it denotes the characters of that text. -/
theorem text?_eq_some_iff {pieces : List Piece} {text : String} :
    text? pieces = some text ↔ Denotes pieces text.toList := by
  simp only [text?, Option.bind_eq_bind, Option.bind_eq_some_iff, ofUtf8?_eq_some_iff]
  constructor
  · rintro ⟨bytes, found, rfl⟩
    exact denotes_of_bytesAfter [] text.toList pieces found
  · intro denotes
    exact ⟨_, denotes.bytesAfter_eq, rfl⟩

theorem isSome_text?_iff {pieces : List Piece} :
    (text? pieces).isSome = true ↔ ∃ chars, Denotes pieces chars := by
  rw [Option.isSome_iff_exists]
  constructor
  · rintro ⟨text, found⟩
    exact ⟨text.toList, text?_eq_some_iff.mp found⟩
  · rintro ⟨chars, denotes⟩
    refine ⟨String.ofList chars, text?_eq_some_iff.mpr ?_⟩
    rwa [String.toList_ofList]

end Json

end StationRelay
