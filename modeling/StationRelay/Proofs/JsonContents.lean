import StationRelay.Json.Reader
import StationRelay.Proofs.JsonGrammar
import StationRelay.Proofs.JsonStrings

/-!
# What is inside a value

`scalars` lists the names, strings, numbers and other scalars of a value, and
`nesting` counts the levels around them.  A value can be held if it is not too
deep and each of its scalars means something (`holds_iff`), and its text is
UTF-8 if each of its strings is (`Text.isUtf8_iff`).
-/

namespace StationRelay

namespace Json

/-! ## Scalars and nesting -/

mutual

/-- What stands inside a value at any depth and is no array or object, a name as a string. -/
def scalars : Json → List Json
  | .null => [.null]
  | .bool value => [.bool value]
  | .number literal => [.number literal]
  | .string pieces => [.string pieces]
  | .array items => itemScalars items
  | .object members => memberScalars members

def itemScalars : List Json → List Json
  | [] => []
  | item :: rest => scalars item ++ itemScalars rest

def memberScalars : List (List Piece × Json) → List Json
  | [] => []
  | (key, value) :: rest => .string key :: (scalars value ++ memberScalars rest)

end

theorem mem_itemScalars {items : List Json} {scalar : Json} :
    scalar ∈ itemScalars items ↔ ∃ item ∈ items, scalar ∈ item.scalars := by
  induction items with
  | nil => simp [itemScalars]
  | cons item rest ih => simp [itemScalars, ih]

theorem mem_memberScalars {members : List (List Piece × Json)} {scalar : Json} :
    scalar ∈ memberScalars members ↔
      ∃ member ∈ members, scalar = .string member.1 ∨ scalar ∈ member.2.scalars := by
  induction members with
  | nil => simp [memberScalars]
  | cons member rest ih =>
      obtain ⟨key, value⟩ := member
      simp only [memberScalars, List.mem_cons, List.mem_append, ih, exists_eq_or_imp, or_assoc]

mutual

/-- The levels of arrays and objects around the deepest value. -/
def nesting : Json → Nat
  | .null => 0
  | .bool _ => 0
  | .number _ => 0
  | .string _ => 0
  | .array items => itemNesting items + 1
  | .object members => memberNesting members + 1

def itemNesting : List Json → Nat
  | [] => 0
  | item :: rest => max (nesting item) (itemNesting rest)

def memberNesting : List (List Piece × Json) → Nat
  | [] => 0
  | (_, value) :: rest => max (nesting value) (memberNesting rest)

end

/-- A number that a double can hold, a string with a text, or a name of the language. -/
def Meant : Json → Prop
  | .number literal => literal.InRange
  | .string pieces => ∃ chars, Denotes pieces chars
  | _ => True

def Held (depth : Nat) (value : Json) : Prop :=
  value.nesting ≤ depth ∧ ∀ scalar ∈ value.scalars, Meant scalar

theorem held_single {depth : Nat} {value : Json} (flat : value.nesting = 0)
    (alone : value.scalars = [value]) : Held depth value ↔ Meant value := by
  simp [Held, flat, alone]

mutual

theorem holds_iff (depth : Nat) : (value : Json) →
    (holds depth value = true ↔ Held depth value)
  | .null => by
      rw [held_single rfl rfl]
      simp [holds, Meant]
  | .bool _ => by
      rw [held_single rfl rfl]
      simp [holds, Meant]
  | .number _ => by
      rw [held_single rfl rfl]
      simp [holds, Meant]
  | .string _ => by
      rw [held_single rfl rfl, holds, isSome_text?_iff, Meant]
  | .array items => by
      cases depth with
      | zero => simp [holds, Held, nesting]
      | succ depth =>
          rw [holds, holdsItems_iff depth items, Held, nesting, scalars, Nat.add_le_add_iff_right]
  | .object members => by
      cases depth with
      | zero => simp [holds, Held, nesting]
      | succ depth =>
          rw [holds, holdsMembers_iff depth members, Held, nesting, scalars,
            Nat.add_le_add_iff_right]

theorem holdsItems_iff (depth : Nat) : (items : List Json) →
    (holdsItems depth items = true ↔
      itemNesting items ≤ depth ∧ ∀ scalar ∈ itemScalars items, Meant scalar)
  | [] => by simp [holdsItems, itemNesting, itemScalars]
  | item :: rest => by
      rw [holdsItems, Bool.and_eq_true, holds_iff depth item, holdsItems_iff depth rest, Held,
        itemNesting, itemScalars, Nat.max_le, List.forall_mem_append]
      exact and_and_and_comm

theorem holdsMembers_iff (depth : Nat) : (members : List (List Piece × Json)) →
    (holdsMembers depth members = true ↔
      memberNesting members ≤ depth ∧ ∀ scalar ∈ memberScalars members, Meant scalar)
  | [] => by simp [holdsMembers, memberNesting, memberScalars]
  | (key, value) :: rest => by
      rw [holdsMembers, Bool.and_eq_true, Bool.and_eq_true, holds_iff depth value,
        holdsMembers_iff depth rest, Held, memberNesting, memberScalars, Nat.max_le,
        List.forall_mem_cons, List.forall_mem_append, isSome_text?_iff]
      constructor
      · rintro ⟨⟨named, low, meant⟩, lowRest, meantRest⟩
        exact ⟨⟨low, lowRest⟩, named, meant, meantRest⟩
      · rintro ⟨⟨low, lowRest⟩, named, meant, meantRest⟩
        exact ⟨⟨named, low, meant⟩, lowRest, meantRest⟩

end

theorem holdsItems_eq_true_iff {depth : Nat} {items : List Json} :
    holdsItems depth items = true ↔ ∀ item ∈ items, Held depth item := by
  induction items with
  | nil => simp [holdsItems]
  | cons item rest ih =>
      rw [holdsItems, Bool.and_eq_true, holds_iff, ih, List.forall_mem_cons]

namespace Grammar

/-! ## Parts of a text -/

theorem Items.exists_text {items : List Json} {bytes : Bytes} (written : Items items bytes) :
    ∀ item ∈ items, ∃ own, Text item own ∧ own.length ≤ bytes.length := by
  cases written with
  | one alone => exact List.forall_mem_singleton.mpr ⟨_, alone, Nat.le_refl _⟩
  | more first follow =>
      refine List.forall_mem_cons.mpr ⟨⟨_, first, ?_⟩, fun item listed => ?_⟩
      · rw [List.length_append]
        exact Nat.le_add_right _ _
      · obtain ⟨own, text, short⟩ := follow.exists_text item listed
        refine ⟨own, text, ?_⟩
        rw [List.length_append, List.length_cons]
        omega

theorem Members.exists_text {members : List (List Piece × Json)} {bytes : Bytes}
    (written : Members members bytes) :
    ∀ member ∈ members, ∃ own, Text member.2 own ∧ own.length ≤ bytes.length := by
  cases written with
  | one member =>
      obtain ⟨-, -, -, alone⟩ := member
      refine List.forall_mem_singleton.mpr ⟨_, alone, ?_⟩
      simp only [List.length_append, List.length_cons]
      omega
  | more member follow =>
      obtain ⟨-, -, -, first⟩ := member
      refine List.forall_mem_cons.mpr ⟨⟨_, first, ?_⟩, fun member listed => ?_⟩
      · simp only [List.length_append, List.length_cons]
        omega
      · obtain ⟨own, text, short⟩ := follow.exists_text member listed
        refine ⟨own, text, ?_⟩
        rw [List.length_append, List.length_cons]
        omega

theorem Text.exists_item {items : List Json} {bytes : Bytes} (written : Text (.array items) bytes) :
    ∀ item ∈ items, ∃ own, Text item own ∧ own.length ≤ bytes.length := by
  obtain ⟨-, value, -⟩ := written
  cases value with
  | emptyArray => exact nofun
  | array inside =>
      intro item listed
      obtain ⟨own, text, short⟩ := inside.exists_text item listed
      refine ⟨own, text, ?_⟩
      simp only [List.length_append, List.length_cons]
      omega

theorem Text.exists_member {members : List (List Piece × Json)} {bytes : Bytes}
    (written : Text (.object members) bytes) :
    ∀ member ∈ members, ∃ own, Text member.2 own ∧ own.length ≤ bytes.length := by
  obtain ⟨-, value, -⟩ := written
  cases value with
  | emptyObject => exact nofun
  | object inside =>
      intro member listed
      obtain ⟨own, text, short⟩ := inside.exists_text member listed
      refine ⟨own, text, ?_⟩
      simp only [List.length_append, List.length_cons]
      omega

/-- Between items stand commas. -/
theorem Items.length_le {items : List Json} {bytes : Bytes} (written : Items items bytes) :
    items.length ≤ bytes.length + 1 := by
  cases written with
  | one alone => exact Nat.le_add_left 1 _
  | more first follow =>
      have fewer := follow.length_le
      simp only [List.length_append, List.length_cons]
      omega

/-- An array has no more items than its text has bytes. -/
theorem Text.length_items_le {items : List Json} {bytes : Bytes}
    (written : Text (.array items) bytes) : items.length ≤ bytes.length := by
  obtain ⟨-, value, -⟩ := written
  cases value with
  | emptyArray => exact Nat.zero_le _
  | array inside =>
      have fewer := inside.length_le
      simp only [List.length_append, List.length_cons]
      omega

theorem Text.exists_whole {literal : Number} {bytes : Bytes}
    (written : Text (.number literal) bytes) : ∃ own, Whole literal.whole own := by
  obtain ⟨-, value, -⟩ := written
  cases value with
  | number written =>
      obtain ⟨-, whole, -, -⟩ := written
      exact ⟨_, whole⟩

theorem le_foldl_digits (rest : List Nat) (n : Nat) :
    n ≤ rest.foldl (fun n d => 10 * n + d) n := by
  induction rest generalizing n with
  | nil => exact Nat.le_refl n
  | cons d rest ih => exact Nat.le_trans (by omega) (ih (10 * n + d))

theorem Whole.eq_singleton {digits : List Nat} {bytes : Bytes} (whole : Whole digits bytes)
    (small : Number.ofDigits digits < 10) : digits = [Number.ofDigits digits] := by
  cases whole with
  | zero => rfl
  | @digits first rest bytes nonzero _ =>
      cases rest with
      | nil => simp [Number.ofDigits]
      | cons second rest =>
          have least := le_foldl_digits rest (10 * (10 * 0 + first) + second)
          have positive := Nat.pos_of_ne_zero nonzero
          change rest.foldl _ (10 * (10 * 0 + first) + second) < 10 at small
          omega

end Grammar

/-! ## UTF-8 -/

/-- The byte a piece counts as where only UTF-8 matters: an escape is ASCII whatever it says. -/
def Piece.standIn : Piece → UInt8
  | .byte raw => raw
  | .unit _ => 0x5C

/-- A string whose bytes between the escapes are UTF-8, or no string. -/
def Encoded : Json → Prop
  | .string pieces => Bytes.IsUtf8 (pieces.map Piece.standIn)
  | _ => True

theorem Spells.isUtf8_append {front : List Piece} {c : Char} (spells : Spells front c)
    {rest : Bytes} (text : Bytes.IsUtf8 rest) :
    Bytes.IsUtf8 (front.map Piece.standIn ++ rest) := by
  obtain ⟨chars, rfl⟩ := text
  cases spells with
  | bytes =>
      refine ⟨c :: chars, ?_⟩
      rw [Bytes.ofChars_cons, List.map_map]
      congr 1
      exact List.map_id _
  | unit => exact (Bytes.isUtf8_ascii_append (by simp [Piece.standIn]) _).mpr ⟨chars, rfl⟩
  | pair => exact (Bytes.isUtf8_ascii_append (by simp [Piece.standIn]) _).mpr ⟨chars, rfl⟩

/-- What has a meaning is UTF-8. -/
theorem Denotes.isUtf8 {pieces : List Piece} {chars : List Char} (denotes : Denotes pieces chars) :
    Bytes.IsUtf8 (pieces.map Piece.standIn) := by
  induction denotes with
  | nil => exact Bytes.isUtf8_nil
  | cons spells _ ih =>
      rw [List.map_append]
      exact spells.isUtf8_append ih

theorem Meant.encoded {value : Json} (meant : Meant value) : Encoded value := by
  cases value with
  | string pieces =>
      obtain ⟨chars, denotes⟩ := meant
      exact denotes.isUtf8
  | _ => trivial

namespace Grammar

open Bytes

theorem Blanks.ascii {bytes : Bytes} (blank : Blanks bytes) : ∀ b ∈ bytes, b < 128 := by
  intro b member
  rcases blank b member with rfl | rfl | rfl | rfl <;> decide

theorem ofNat_ascii {n : Nat} (small : n < 128) : UInt8.ofNat n < 128 := by
  rw [UInt8.lt_iff_toNat_lt, UInt8.toNat_ofNat']
  change _ < 128
  omega

theorem digitByte_ascii {value : Nat} (below : value < 10) : digitByte value < 128 :=
  ofNat_ascii (by omega)

theorem Digits.ascii {values : List Nat} {bytes : Bytes} (digits : Digits values bytes) :
    ∀ b ∈ bytes, b < 128 := by
  obtain ⟨below, rfl⟩ := digits
  intro b member
  obtain ⟨value, listed, rfl⟩ := List.mem_map.mp member
  exact digitByte_ascii (below value listed)

theorem Literal.ascii {literal : Number} {bytes : Bytes} (written : Literal literal bytes) :
    ∀ b ∈ bytes, b < 128 := by
  obtain ⟨minus, inFront, behind, scaled⟩ := written
  simp only [List.forall_mem_append]
  refine ⟨?_, ?_, ?_, ?_⟩
  · cases minus <;> simp
  · cases inFront with
    | zero => simp
    | digits _ digits => exact digits.ascii
  · cases behind with
    | absent => simp
    | present _ digits => exact List.forall_mem_cons.mpr ⟨by decide, digits.ascii⟩
  · cases scaled with
    | absent => simp
    | present marked signed _ digits =>
        rw [List.forall_mem_cons, List.forall_mem_append]
        refine ⟨?_, ?_, digits.ascii⟩
        · rcases marked with rfl | rfl <;> decide
        · cases signed <;> simp

theorem HexDigit.ascii {value : Nat} {b : UInt8} (digit : HexDigit value b) : b < 128 := by
  cases digit with
  | decimal below => exact digitByte_ascii below
  | lower _ below => exact ofNat_ascii (by omega)
  | upper _ below => exact ofNat_ascii (by omega)

theorem Escape.ascii {letter raw : UInt8} (escape : Escape letter raw) :
    letter < 128 ∧ raw < 128 := by
  cases escape <;> decide

/-- Whatever stands in front, escapes may be replaced by what they stand for. -/
theorem Chars.isUtf8_iff {pieces : List Piece} {bytes : Bytes} (chars : Chars pieces bytes)
    (front : Bytes) :
    IsUtf8 (front ++ bytes) ↔ IsUtf8 (front ++ pieces.map Piece.standIn) := by
  induction chars generalizing front with
  | nil => rfl
  | @plain b pieces bytes _ _ _ _ ih =>
      have longer := ih (front ++ [b])
      simpa [Piece.standIn] using longer
  | @escape letter raw pieces bytes escape _ ih =>
      obtain ⟨letterAscii, rawAscii⟩ := escape.ascii
      rw [List.map_cons, Piece.standIn, isUtf8_append_cons (by decide), isUtf8_cons letterAscii,
        isUtf8_append_cons rawAscii]
      exact and_congr_right fun _ => ih []
  | @unit a b c d w x y z pieces bytes first second third fourth _ ih =>
      rw [List.map_cons, Piece.standIn, isUtf8_append_cons (by decide),
        isUtf8_append_cons (by decide), isUtf8_cons (by decide), isUtf8_cons first.ascii,
        isUtf8_cons second.ascii, isUtf8_cons third.ascii, isUtf8_cons fourth.ascii]
      exact and_congr_right fun _ => ih []

theorem Quoted.isUtf8_append_iff {pieces : List Piece} {bytes : Bytes}
    (quoted : Quoted pieces bytes) (rest : Bytes) :
    IsUtf8 (bytes ++ rest) ↔ Encoded (.string pieces) ∧ IsUtf8 rest := by
  obtain ⟨chars⟩ := quoted
  rw [List.cons_append, List.append_assoc, List.singleton_append, isUtf8_cons (by decide),
    isUtf8_append_cons (by decide)]
  exact and_congr_left fun _ => chars.isUtf8_iff []

theorem isUtf8_bracketed {left right : UInt8} (first : left < 128) (last : right < 128)
    {bytes : Bytes} : IsUtf8 (left :: (bytes ++ [right])) ↔ IsUtf8 bytes := by
  rw [isUtf8_cons first, isUtf8_append_ascii (by simpa using last)]

theorem isUtf8_iff_of_ascii {value : Json} {bytes : Bytes} (alone : value.scalars = [value])
    (encoded : Encoded value) (ascii : ∀ b ∈ bytes, b < 128) :
    IsUtf8 bytes ↔ ∀ scalar ∈ value.scalars, Encoded scalar := by
  rw [alone, List.forall_mem_singleton]
  exact iff_of_true (isUtf8_of_ascii ascii) encoded

mutual

theorem Value.isUtf8_iff {value : Json} {bytes : Bytes} :
    Value value bytes → (IsUtf8 bytes ↔ ∀ scalar ∈ value.scalars, Encoded scalar)
  | .null => isUtf8_iff_of_ascii rfl trivial (by simp)
  | .trueName => isUtf8_iff_of_ascii rfl trivial (by simp)
  | .falseName => isUtf8_iff_of_ascii rfl trivial (by simp)
  | .number written => isUtf8_iff_of_ascii rfl trivial written.ascii
  | .string written => by
      have quoted := written.isUtf8_append_iff []
      rw [List.append_nil] at quoted
      rw [quoted, scalars, List.forall_mem_singleton]
      exact and_iff_left isUtf8_nil
  | .emptyArray blank => by
      rw [isUtf8_bracketed (by decide) (by decide), scalars, itemScalars]
      exact iff_of_true (isUtf8_of_ascii blank.ascii) nofun
  | .array written => by
      rw [isUtf8_bracketed (by decide) (by decide), scalars]
      exact written.isUtf8_iff
  | .emptyObject blank => by
      rw [isUtf8_bracketed (by decide) (by decide), scalars, memberScalars]
      exact iff_of_true (isUtf8_of_ascii blank.ascii) nofun
  | .object written => by
      rw [isUtf8_bracketed (by decide) (by decide), scalars]
      exact written.isUtf8_iff

theorem Text.isUtf8_iff {value : Json} {bytes : Bytes} :
    Text value bytes → (IsUtf8 bytes ↔ ∀ scalar ∈ value.scalars, Encoded scalar)
  | .mk blank written blankAfter => by
      rw [isUtf8_ascii_append blank.ascii, isUtf8_append_ascii blankAfter.ascii]
      exact written.isUtf8_iff

theorem Items.isUtf8_iff {items : List Json} {bytes : Bytes} :
    Items items bytes → (IsUtf8 bytes ↔ ∀ scalar ∈ itemScalars items, Encoded scalar)
  | .one written => by
      rw [itemScalars, itemScalars, List.append_nil]
      exact written.isUtf8_iff
  | .more written follow => by
      rw [isUtf8_append_cons (by decide), written.isUtf8_iff, follow.isUtf8_iff, itemScalars,
        List.forall_mem_append]

theorem Member.isUtf8_iff {key : List Piece} {value : Json} {bytes : Bytes} :
    Member key value bytes → (IsUtf8 bytes ↔
      Encoded (.string key) ∧ ∀ scalar ∈ value.scalars, Encoded scalar)
  | .mk blank named blankAfter written => by
      rw [isUtf8_ascii_append blank.ascii, named.isUtf8_append_iff,
        isUtf8_ascii_append blankAfter.ascii, isUtf8_cons (by decide), written.isUtf8_iff]

theorem Members.isUtf8_iff {members : List (List Piece × Json)} {bytes : Bytes} :
    Members members bytes → (IsUtf8 bytes ↔ ∀ scalar ∈ memberScalars members, Encoded scalar)
  | .one written => by
      rw [memberScalars, memberScalars, List.append_nil, List.forall_mem_cons]
      exact written.isUtf8_iff
  | .more written follow => by
      rw [isUtf8_append_cons (by decide), written.isUtf8_iff, follow.isUtf8_iff, memberScalars,
        List.forall_mem_cons, List.forall_mem_append, and_assoc]

end

end Grammar

end Json

end StationRelay
