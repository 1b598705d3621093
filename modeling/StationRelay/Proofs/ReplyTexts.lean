import Mathlib.Data.List.Forall2
import StationRelay.Reply
import StationRelay.Proofs.JsonBlanks
import StationRelay.Proofs.NumberTexts
import StationRelay.Proofs.Requests

/-!
# What replies say

The text of a reply is the text of one value, which tells what the reply holds:
the name of a station may be any text, because `quote` escapes what may not
stand between quotes, and a finite number is a literal that is rounded to one
word only.  So a reply is known by its text but for numbers that are not finite
(`toText_tells_one_reply`).
-/

namespace StationRelay

open Bytes (ofChars ofChars_cons ofChars_append)

theorem Bytes.eq_of_mem_encode {c : Char} {b : UInt8} (ascii : b < 128)
    (member : b ∈ String.utf8EncodeChar c) : c = Char.ofNat b.toNat := by
  obtain ⟨front, back, split⟩ := List.append_of_mem member
  have cut : ofChars [c] = front ++ (String.utf8EncodeChar (Char.ofNat b.toNat) ++ back) := by
    rw [Bytes.encode_ascii ascii, ofChars_cons, split]
    simp [ofChars]
  obtain ⟨before, after, single, -, -⟩ := Bytes.exists_of_ofChars_eq cut
  have alone : Char.ofNat b.toNat ∈ [c] := by
    rw [single]
    exact List.mem_append_right _ List.mem_cons_self
  exact (List.mem_singleton.mp alone).symm

/-- One word, or two of which neither is finite. -/
def Binary32.Alike (word other : Binary32) : Prop :=
  word = other ∨ (¬ word.Finite ∧ ¬ other.Finite)

namespace Json

open Grammar

/-! ## Quoted texts -/

def spelling (c : Char) : List Piece :=
  if c.toNat < 32 ∧ c.toNat ∉ [8, 9, 10, 12, 13] then [.unit c.toNat]
  else (String.utf8EncodeChar c).map .byte

theorem spells_spelling (c : Char) : Spells (spelling c) c := by
  unfold spelling
  split
  · rename_i control
    have single : c.toNat < 0xD800 ∨ 0xE000 ≤ c.toNat := by omega
    have spells := Spells.unit single
    rwa [Char.ofNat_toNat] at spells
  · exact .bytes c

theorem Grammar.Chars.append {front back : List Piece} {first second : Bytes}
    (chars : Chars front first) (more : Chars back second) :
    Chars (front ++ back) (first ++ second) := by
  induction chars with
  | nil => exact more
  | plain printable notQuote notBackslash _ ih => exact .plain printable notQuote notBackslash ih
  | escape escape _ ih => exact .escape escape ih
  | unit first second third fourth _ ih => exact .unit first second third fourth ih

theorem chars_plain {bytes : Bytes}
    (plain : ∀ b ∈ bytes, 0x20 ≤ b ∧ b ≠ 0x22 ∧ b ≠ 0x5C) : Chars (bytes.map .byte) bytes := by
  induction bytes with
  | nil => exact .nil
  | cons b bytes ih =>
      obtain ⟨⟨printable, notQuote, notBackslash⟩, others⟩ := List.forall_mem_cons.mp plain
      exact .plain printable notQuote notBackslash (ih others)

theorem hexDigit_written {value : Nat} (below : value < 16) :
    ∃ b, String.utf8EncodeChar (Hex.digit value) = [b] ∧ HexDigit value b := by
  have decimals : ∀ value < 10, String.utf8EncodeChar (Hex.digit value) = [digitByte value] := by
    decide
  have letters : ∀ value < 16, 10 ≤ value →
      String.utf8EncodeChar (Hex.digit value) = [UInt8.ofNat (0x57 + value)] := by
    decide
  by_cases decimal : value < 10
  · exact ⟨_, decimals value decimal, .decimal decimal⟩
  · exact ⟨_, letters value below (by omega), .lower (by omega) below⟩

theorem escape_written {c mark : Char} {letter raw : UInt8} (escape : Escape letter raw)
    (spelled : spelling c = [.byte raw]) (marked : String.utf8EncodeChar mark = [letter]) :
    Chars (spelling c) (ofChars ['\\', mark]) := by
  have backslash : String.utf8EncodeChar '\\' = [0x5C] := by decide
  rw [spelled, ofChars_cons, ofChars_cons, backslash, marked]
  exact .escape escape .nil

theorem control_written {c : Char} (control : c.toNat < 32)
    (unnamed : c.toNat ∉ [8, 9, 10, 12, 13]) :
    Chars (spelling c)
      (ofChars ['\\', 'u', '0', '0', Hex.digit (c.toNat / 16), Hex.digit (c.toNat % 16)]) := by
  obtain ⟨high, writtenHigh, digitHigh⟩ := hexDigit_written (by omega : c.toNat / 16 < 16)
  obtain ⟨low, writtenLow, digitLow⟩ := hexDigit_written (by omega : c.toNat % 16 < 16)
  have zero : HexDigit 0 (digitByte 0) := .decimal (by decide)
  have chars := Chars.unit zero zero digitHigh digitLow .nil
  have code : 4096 * 0 + 256 * 0 + 16 * (c.toNat / 16) + c.toNat % 16 = c.toNat := by omega
  have front : ofChars ['\\', 'u', '0', '0'] = [0x5C, 0x75, digitByte 0, digitByte 0] := by decide
  have escaped := ofChars_append ['\\', 'u', '0', '0']
    [Hex.digit (c.toNat / 16), Hex.digit (c.toNat % 16)]
  rw [front, ofChars_cons, ofChars_cons, writtenHigh, writtenLow] at escaped
  rw [code] at chars
  rw [spelling, if_pos ⟨control, unnamed⟩]
  exact escaped ▸ chars

theorem printable_written {c : Char} (printable : 32 ≤ c.toNat) (notQuote : c ≠ '"')
    (notBackslash : c ≠ '\\') : Chars (spelling c) (ofChars [c]) := by
  rw [spelling, if_neg (by omega), ofChars_cons, ofChars, List.flatMap_nil, List.append_nil]
  refine chars_plain fun b member => ?_
  have whole (ascii : b < 128) : c = Char.ofNat b.toNat := Bytes.eq_of_mem_encode ascii member
  refine ⟨UInt8.not_lt.mp fun control => ?_, ?_, ?_⟩
  · have small : b.toNat < 32 := UInt8.lt_iff_toNat_lt.mp control
    rw [whole (by rw [UInt8.lt_iff_toNat_lt]; exact Nat.lt_trans small (by decide)),
      toNat_ofNat_byte] at printable
    omega
  · rintro rfl
    exact notQuote (whole (by decide))
  · rintro rfl
    exact notBackslash (whole (by decide))

theorem escapeChar_written (c : Char) : Chars (spelling c) (ofChars (escapeChar c)) := by
  have known {n : Nat} (code : c.toNat = n) : c = Char.ofNat n := by rw [← code, Char.ofNat_toNat]
  unfold escapeChar
  split
  case isTrue quote => exact escape_written .quote (by rw [quote]; decide) (by decide)
  case isFalse notQuote =>
  split
  case isTrue backslash => exact escape_written .backslash (by rw [backslash]; decide) (by decide)
  case isFalse notBackslash =>
  split
  case isTrue code => exact escape_written .backspace (by rw [known code]; decide) (by decide)
  case isFalse notBackspace =>
  split
  case isTrue code => exact escape_written .tab (by rw [known code]; decide) (by decide)
  case isFalse notTab =>
  split
  case isTrue code => exact escape_written .lineFeed (by rw [known code]; decide) (by decide)
  case isFalse notLineFeed =>
  split
  case isTrue code => exact escape_written .formFeed (by rw [known code]; decide) (by decide)
  case isFalse notFormFeed =>
  split
  case isTrue code => exact escape_written .carriageReturn (by rw [known code]; decide) (by decide)
  case isFalse notReturn =>
  split
  case isTrue control => exact control_written control (by simp; omega)
  case isFalse printable => exact printable_written (by omega) notQuote notBackslash

def spellings (text : String) : List Piece :=
  text.toList.flatMap spelling

theorem denotes_spellings (text : String) : Denotes (spellings text) text.toList := by
  unfold spellings
  induction text.toList with
  | nil => exact .nil
  | cons c chars ih => exact .cons (spells_spelling c) ih

theorem quote_written (text : String) : Quoted (spellings text) (ofChars (quote text)) := by
  have chars : Chars (spellings text) (ofChars (text.toList.flatMap escapeChar)) := by
    unfold spellings
    induction text.toList with
    | nil => exact .nil
    | cons c chars ih =>
        rw [List.flatMap_cons, List.flatMap_cons, ofChars_append]
        exact (escapeChar_written c).append ih
  have quoted := Quoted.mk chars
  rw [quote, List.cons_append, ofChars_cons, ofChars_append]
  exact quoted

/-! ## Arrays and objects -/

def Written (value : Json) (chars : List Char) : Prop :=
  Value value (ofChars chars)

structure WrittenMember (member : List Piece × Json) (named : String × List Char) : Prop where
  key : member.1 = spellings named.1
  value : Written member.2 named.2

theorem member_plain {name : String} {value : Json} {chars : List Char}
    (plain : Request.plainName name = spellings name) (written : Written value chars) :
    WrittenMember (Request.plainName name, value) (name, chars) :=
  ⟨plain, written⟩

theorem commaSeparated_written {α : Type} {WrittenItem : α → List Char → Prop}
    {WrittenItems : List α → Bytes → Prop}
    (one : ∀ {item chars}, WrittenItem item chars → WrittenItems [item] (ofChars chars))
    (more : ∀ {item chars rest others}, WrittenItem item chars → WrittenItems rest others →
      WrittenItems (item :: rest) (ofChars chars ++ 0x2C :: others))
    {items : List α} {texts : List (List Char)} (nonempty : items ≠ [])
    (written : List.Forall₂ WrittenItem items texts) :
    WrittenItems items (ofChars (commaSeparated texts)) := by
  induction written with
  | nil => exact absurd rfl nonempty
  | cons first rest ih =>
      cases rest with
      | nil => exact one first
      | cons second others =>
          rw [commaSeparated, ofChars_append_cons (b := 0x2C) (by decide)]
          · exact more first (ih (List.cons_ne_nil _ _))
          · exact List.cons_ne_nil _ _

theorem items_written {items : List Json} {texts : List (List Char)} (nonempty : items ≠ [])
    (written : List.Forall₂ Written items texts) :
    Items items (ofChars (commaSeparated texts)) :=
  commaSeparated_written (fun item => .one item.text)
    (fun first rest => .more first.text rest) nonempty written

theorem ofChars_bracketed {left right : Char} (first last : UInt8)
    (opens : String.utf8EncodeChar left = [first]) (closes : String.utf8EncodeChar right = [last])
    (chars : List Char) :
    ofChars (left :: chars ++ [right]) = first :: (ofChars chars ++ [last]) := by
  rw [List.cons_append, ofChars_cons, ofChars_append, ofChars_cons, opens, closes]
  rfl

theorem array_written {items : List Json} {texts : List (List Char)}
    (written : List.Forall₂ Written items texts) : Written (.array items) (arrayChars texts) := by
  rw [Written, arrayChars, ofChars_bracketed 0x5B 0x5D (by decide) (by decide)]
  by_cases empty : items = []
  · subst empty
    cases written
    exact .emptyArray noBlanks
  · exact .array (items_written empty written)

theorem member_written {member : List Piece × Json} {named : String × List Char}
    (written : WrittenMember member named) :
    Member member.1 member.2 (ofChars (quote named.1 ++ ':' :: named.2)) := by
  obtain ⟨key, value⟩ := member
  obtain ⟨rfl, value⟩ := written
  rw [ofChars_append_cons (b := 0x3A) (by decide)]
  exact .mk noBlanks (quote_written named.1) noBlanks value.text

theorem members_written {members : List (List Piece × Json)} {named : List (String × List Char)}
    (nonempty : members ≠ []) (written : List.Forall₂ WrittenMember members named) :
    Members members
      (ofChars (commaSeparated (named.map fun (name, value) => quote name ++ ':' :: value))) :=
  commaSeparated_written .one .more nonempty
    (List.forall₂_map_right_iff.mpr (written.imp fun _ _ => member_written))

theorem object_written {members : List (List Piece × Json)} {named : List (String × List Char)}
    (nonempty : members ≠ []) (written : List.Forall₂ WrittenMember members named) :
    Written (.object members) (objectChars named) := by
  rw [Written, objectChars, ofChars_bracketed 0x7B 0x7D (by decide) (by decide)]
  exact .object (members_written nonempty written)

/-! ## Values that stand for numbers and texts -/

inductive Counts : Nat → Json → Prop where
  | mk (digits : List Nat) : Counts (Number.ofDigits digits) (.number ⟨false, digits, [], none⟩)

/-- A literal from which a word is read back, or `null` where there is no number. -/
inductive Measures : Binary32 → Json → Prop where
  | finite {word : Binary32} {literal : Number} (finite : word.Finite)
      (back : ∀ other, literal.RoundsTo other ↔ other = word) : Measures word (.number literal)
  | null {word : Binary32} (notFinite : ¬ word.Finite) : Measures word .null

inductive Names : String → Json → Prop where
  | mk {text : String} {pieces : List Piece} (denotes : Denotes pieces text.toList) :
      Names text (.string pieces)

theorem counts_natural (n : Nat) : ∃ value, Counts n value ∧ Written value (natChars n) := by
  obtain ⟨digits, rfl, literal⟩ := exists_natural n
  exact ⟨_, .mk digits, .number literal⟩

theorem measures_word (word : Binary32) :
    ∃ value, Measures word value ∧ Written value (wordChars word) := by
  by_cases finite : word.Finite
  · obtain ⟨literal, rounded, written⟩ := exists_roundsTo finite
    refine ⟨_, .finite finite fun other => ⟨fun back => back.eq rounded, ?_⟩, .number written⟩
    rintro rfl
    exact rounded
  · refine ⟨_, .null finite, ?_⟩
    rw [wordChars, if_neg finite]
    exact .null

theorem names_quote (text : String) : ∃ value, Names text value ∧ Written value (quote text) :=
  ⟨_, .mk (denotes_spellings text), .string (quote_written text)⟩

theorem Counts.unique {n m : Nat} {value : Json} (first : Counts n value)
    (second : Counts m value) : n = m := by
  cases first
  cases second
  rfl

theorem Measures.alike {word other : Binary32} {value : Json} (first : Measures word value)
    (second : Measures other value) : word.Alike other := by
  cases first with
  | finite _ back =>
      cases second with
      | finite _ backToo => exact .inl ((backToo word).mp ((back word).mpr rfl))
  | null notFinite =>
      cases second with
      | null notFiniteToo => exact .inr ⟨notFinite, notFiniteToo⟩

theorem Names.unique {text other : String} {value : Json} (first : Names text value)
    (second : Names other value) : text = other := by
  cases first with
  | mk denotes =>
      cases second with
      | mk denotesToo =>
          have found := text?_eq_some_iff.mpr denotes
          rw [text?_eq_some_iff.mpr denotesToo] at found
          exact (Option.some.inj found).symm

theorem wordChars_eq_of_alike {word other : Binary32} (alike : word.Alike other) :
    wordChars word = wordChars other := by
  rcases alike with rfl | ⟨notFinite, notFiniteToo⟩
  · rfl
  · rw [wordChars, wordChars, if_neg notFinite, if_neg notFiniteToo]

end Json

/-! ## Replies -/

open Json
open Json.Grammar (Text Value)
open Request (plainName)

inductive StationEntry.Told : StationEntry → Json → Prop where
  | mk {entry : StationEntry} {id name : Json} (numbered : Counts entry.stationId.toNat id)
      (named : Names entry.name name) :
      Told entry (.object [(plainName "stationId", id), (plainName "stationName", name)])

theorem StationEntry.leftUnique_told : Relator.LeftUnique StationEntry.Told := by
  intro entry other value first second
  obtain ⟨numbered, named⟩ := first
  cases second with
  | mk numberedToo namedToo =>
      have id := UInt8.toNat_inj.mp (numbered.unique numberedToo)
      have name := named.unique namedToo
      obtain ⟨stationId, text⟩ := entry
      obtain ⟨otherId, otherText⟩ := other
      dsimp only at id name
      rw [id, name]

namespace Reply

theorem exists_listed (entries : List StationEntry) :
    ∃ items, List.Forall₂ StationEntry.Told entries items ∧
      List.Forall₂ Written items (entries.map StationEntry.toChars) := by
  induction entries with
  | nil => exact ⟨[], .nil, .nil⟩
  | cons entry entries ih =>
      obtain ⟨items, listed, written⟩ := ih
      obtain ⟨id, numbered, writtenId⟩ := counts_natural entry.stationId.toNat
      obtain ⟨name, named, writtenName⟩ := names_quote entry.name
      exact ⟨_, .cons (.mk numbered named) listed, .cons
        (object_written (List.cons_ne_nil _ _) <| .cons (member_plain (by decide) writtenId) <|
          .cons (member_plain (by decide) writtenName) .nil) written⟩

/-- What a value must hold to tell a reply: these members and no others. -/
inductive Told : Reply → Json → Prop where
  | stations {entries : List StationEntry} {id : Json} {items : List Json} (kind : Counts 1 id)
      (listed : List.Forall₂ StationEntry.Told entries items) :
      Told (.stations entries)
        (.object [(plainName "id", id), (plainName "stations", .array items)])
  | reading {told : Reading} {id number degrees moisture seconds : Json} (kind : Counts 0 id)
      (station : Counts told.station.toByte.toNat number)
      (temperature : Measures told.temperature degrees)
      (humidity : Measures told.humidity moisture) (time : Counts told.time.toNat seconds) :
      Told (.reading told)
        (.object [(plainName "id", id), (plainName "stationId", number),
          (plainName "temperature", degrees), (plainName "humidity", moisture),
          (plainName "time", seconds)])

/-- Replies that differ at most in which numbers are not finite. -/
inductive Alike : Reply → Reply → Prop where
  | stations (entries : List StationEntry) : Alike (.stations entries) (.stations entries)
  | reading {told other : Reading} (station : told.station = other.station)
      (temperature : told.temperature.Alike other.temperature)
      (humidity : told.humidity.Alike other.humidity) (time : told.time = other.time) :
      Alike (.reading told) (.reading other)

theorem exists_told (reply : Reply) :
    ∃ value, Told reply value ∧ Written value reply.toChars := by
  cases reply with
  | stations entries =>
      obtain ⟨id, kind, writtenId⟩ := counts_natural 1
      obtain ⟨items, listed, writtenItems⟩ := exists_listed entries
      exact ⟨_, .stations kind listed, object_written (List.cons_ne_nil _ _) <|
        .cons (member_plain (by decide) writtenId) <|
        .cons (member_plain (by decide) (array_written writtenItems)) .nil⟩
  | reading told =>
      obtain ⟨id, kind, writtenId⟩ := counts_natural 0
      obtain ⟨number, station, writtenNumber⟩ := counts_natural told.station.toByte.toNat
      obtain ⟨degrees, temperature, writtenDegrees⟩ := measures_word told.temperature
      obtain ⟨moisture, humidity, writtenMoisture⟩ := measures_word told.humidity
      obtain ⟨seconds, time, writtenSeconds⟩ := counts_natural told.time.toNat
      exact ⟨_, .reading kind station temperature humidity time,
        object_written (List.cons_ne_nil _ _) <|
        .cons (member_plain (by decide) writtenId) <|
        .cons (member_plain (by decide) writtenNumber) <|
        .cons (member_plain (by decide) writtenDegrees) <|
        .cons (member_plain (by decide) writtenMoisture) <|
        .cons (member_plain (by decide) writtenSeconds) .nil⟩

theorem Told.alike {reply other : Reply} {value : Json} (first : Told reply value)
    (second : Told other value) : Alike reply other := by
  cases first with
  | stations _ listed =>
      cases second with
      | stations _ listedToo =>
          have same := List.left_unique_forall₂' StationEntry.leftUnique_told listed listedToo
          rw [same]
          exact .stations _
  | reading _ station temperature humidity time =>
      cases second with
      | reading _ stationToo temperatureToo humidityToo timeToo =>
          have same := UInt8.toNat_inj.mp (station.unique stationToo)
          refine .reading (Option.some.inj ?_) (temperature.alike temperatureToo)
            (humidity.alike humidityToo) (UInt32.toNat_inj.mp (time.unique timeToo))
          rw [← Station.ofByte?_toByte, same, Station.ofByte?_toByte]

theorem Alike.toText_eq {reply other : Reply} (alike : Alike reply other) :
    reply.toText = other.toText := by
  cases alike with
  | stations => rfl
  | reading station temperature humidity time =>
      rw [toText, toText, toChars, toChars, station, time, wordChars_eq_of_alike temperature,
        wordChars_eq_of_alike humidity]

/-- The text of a reply has one value, which tells the reply, and no reply that is not alike has
this text. -/
theorem toText_tells_one_reply (reply : Reply) :
    (∃ value, Text value (ofChars reply.toText.toList) ∧ Told reply value ∧
      ∀ other, Text other (ofChars reply.toText.toList) → other = value) ∧
    ∀ other : Reply, other.toText = reply.toText ↔ Alike other reply := by
  have text (reply : Reply) : ∃ value,
      Told reply value ∧ Text value (ofChars reply.toText.toList) := by
    obtain ⟨value, told, written⟩ := exists_told reply
    rw [toText, String.toList_ofList]
    exact ⟨value, told, Value.text written⟩
  obtain ⟨value, told, written⟩ := text reply
  refine ⟨⟨value, written, told, fun other writtenToo => writtenToo.unique written⟩, ?_⟩
  refine fun other => ⟨fun same => ?_, Alike.toText_eq⟩
  obtain ⟨valueToo, toldToo, writtenToo⟩ := text other
  rw [same] at writtenToo
  cases writtenToo.unique written
  exact toldToo.alike told

example : toText (.reading ⟨.wf, ⟨0x41AC0000⟩, ⟨0x7FC00000⟩, 1600000000⟩) =
    "\x7b\"id\":0,\"stationId\":1,\"temperature\":21.5,\"humidity\":null,\"time\":1600000000\x7d" := by
  decide

end Reply

end StationRelay
