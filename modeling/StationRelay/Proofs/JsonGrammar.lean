import StationRelay.Json

/-!
# The grammar of JSON

Which bytes are a text of a value.  A text is one value with blanks around it;
arrays and objects hold texts between their commas and colons.  A number is
written by its literal, and a string by pieces between quotes, so that a value
says all about its text but the blanks, the escapes of single characters, the
case of hexadecimal digits and of the mark of an exponent, and a plus there.
The grammar takes bytes as they are: between quotes any byte from 32 on may
stand.
-/

namespace StationRelay

namespace Json

namespace Grammar

/-! ## Blanks -/

/-- Bytes that may stand between tokens: space, tab, line feed and carriage return. -/
def Blanks (bytes : Bytes) : Prop :=
  ∀ b ∈ bytes, b = 0x20 ∨ b = 0x09 ∨ b = 0x0A ∨ b = 0x0D

/-! ## Numbers -/

def digitByte (value : Nat) : UInt8 :=
  UInt8.ofNat (0x30 + value)

structure Digits (values : List Nat) (bytes : Bytes) : Prop where
  below : ∀ value ∈ values, value < 10
  written : bytes = values.map digitByte

inductive Minus : Bool → Bytes → Prop where
  | absent : Minus false []
  | present : Minus true [0x2D]

/-- A zero alone, or digits of which the first is no zero. -/
inductive Whole : List Nat → Bytes → Prop where
  | zero : Whole [0] [0x30]
  | digits {first : Nat} {rest : List Nat} {bytes : Bytes} (nonzero : first ≠ 0)
      (digits : Digits (first :: rest) bytes) : Whole (first :: rest) bytes

inductive Fraction : List Nat → Bytes → Prop where
  | absent : Fraction [] []
  | present {values : List Nat} {bytes : Bytes} (nonempty : values ≠ [])
      (digits : Digits values bytes) : Fraction values (0x2E :: bytes)

inductive Sign : Bool → Bytes → Prop where
  | absent : Sign false []
  | plus : Sign false [0x2B]
  | minus : Sign true [0x2D]

inductive Exponent : Option (Bool × List Nat) → Bytes → Prop where
  | absent : Exponent none []
  | present {mark : UInt8} {negative : Bool} {values : List Nat} {sign bytes : Bytes}
      (marked : mark = 0x65 ∨ mark = 0x45) (signed : Sign negative sign)
      (nonempty : values ≠ []) (digits : Digits values bytes) :
      Exponent (some (negative, values)) (mark :: (sign ++ bytes))

inductive Literal : Number → Bytes → Prop where
  | mk {negative : Bool} {whole fraction : List Nat} {exponent : Option (Bool × List Nat)}
      {first second third fourth : Bytes} (minus : Minus negative first)
      (inFront : Whole whole second) (behind : Fraction fraction third)
      (scaled : Exponent exponent fourth) :
      Literal ⟨negative, whole, fraction, exponent⟩ (first ++ (second ++ (third ++ fourth)))

/-! ## Strings -/

/-- What may follow a backslash, and the character it stands for. -/
inductive Escape : UInt8 → UInt8 → Prop where
  | quote : Escape 0x22 0x22
  | backslash : Escape 0x5C 0x5C
  | slash : Escape 0x2F 0x2F
  | backspace : Escape 0x62 0x08
  | formFeed : Escape 0x66 0x0C
  | lineFeed : Escape 0x6E 0x0A
  | carriageReturn : Escape 0x72 0x0D
  | tab : Escape 0x74 0x09

inductive HexDigit : Nat → UInt8 → Prop where
  | decimal {value : Nat} (below : value < 10) : HexDigit value (digitByte value)
  | lower {value : Nat} (letter : 10 ≤ value) (below : value < 16) :
      HexDigit value (UInt8.ofNat (0x57 + value))
  | upper {value : Nat} (letter : 10 ≤ value) (below : value < 16) :
      HexDigit value (UInt8.ofNat (0x37 + value))

inductive Chars : List Piece → Bytes → Prop where
  | nil : Chars [] []
  | plain {b : UInt8} {pieces : List Piece} {bytes : Bytes} (printable : 0x20 ≤ b)
      (notQuote : b ≠ 0x22) (notBackslash : b ≠ 0x5C) (rest : Chars pieces bytes) :
      Chars (.byte b :: pieces) (b :: bytes)
  | escape {letter raw : UInt8} {pieces : List Piece} {bytes : Bytes}
      (escape : Escape letter raw) (rest : Chars pieces bytes) :
      Chars (.byte raw :: pieces) (0x5C :: letter :: bytes)
  | unit {a b c d : UInt8} {w x y z : Nat} {pieces : List Piece} {bytes : Bytes}
      (first : HexDigit w a) (second : HexDigit x b) (third : HexDigit y c)
      (fourth : HexDigit z d) (rest : Chars pieces bytes) :
      Chars (.unit (4096 * w + 256 * x + 16 * y + z) :: pieces)
        (0x5C :: 0x75 :: a :: b :: c :: d :: bytes)

inductive Quoted : List Piece → Bytes → Prop where
  | mk {pieces : List Piece} {bytes : Bytes} (chars : Chars pieces bytes) :
      Quoted pieces (0x22 :: (bytes ++ [0x22]))

/-! ## Values -/

mutual

inductive Value : Json → Bytes → Prop where
  | null : Value .null [0x6E, 0x75, 0x6C, 0x6C]
  | trueName : Value (.bool true) [0x74, 0x72, 0x75, 0x65]
  | falseName : Value (.bool false) [0x66, 0x61, 0x6C, 0x73, 0x65]
  | number {literal : Number} {bytes : Bytes} (written : Literal literal bytes) :
      Value (.number literal) bytes
  | string {pieces : List Piece} {bytes : Bytes} (written : Quoted pieces bytes) :
      Value (.string pieces) bytes
  | emptyArray {blanks : Bytes} (blank : Blanks blanks) :
      Value (.array []) (0x5B :: (blanks ++ [0x5D]))
  | array {items : List Json} {bytes : Bytes} (written : Items items bytes) :
      Value (.array items) (0x5B :: (bytes ++ [0x5D]))
  | emptyObject {blanks : Bytes} (blank : Blanks blanks) :
      Value (.object []) (0x7B :: (blanks ++ [0x7D]))
  | object {members : List (List Piece × Json)} {bytes : Bytes}
      (written : Members members bytes) :
      Value (.object members) (0x7B :: (bytes ++ [0x7D]))

/-- One value with blanks around it. -/
inductive Text : Json → Bytes → Prop where
  | mk {value : Json} {before bytes after : Bytes} (blank : Blanks before)
      (written : Value value bytes) (blankAfter : Blanks after) :
      Text value (before ++ (bytes ++ after))

inductive Items : List Json → Bytes → Prop where
  | one {item : Json} {bytes : Bytes} (written : Text item bytes) : Items [item] bytes
  | more {item : Json} {rest : List Json} {bytes others : Bytes} (written : Text item bytes)
      (follow : Items rest others) : Items (item :: rest) (bytes ++ 0x2C :: others)

inductive Member : List Piece → Json → Bytes → Prop where
  | mk {key : List Piece} {value : Json} {before name after bytes : Bytes}
      (blank : Blanks before) (named : Quoted key name) (blankAfter : Blanks after)
      (written : Text value bytes) : Member key value (before ++ (name ++ (after ++ 0x3A :: bytes)))

inductive Members : List (List Piece × Json) → Bytes → Prop where
  | one {key : List Piece} {value : Json} {bytes : Bytes} (written : Member key value bytes) :
      Members [(key, value)] bytes
  | more {key : List Piece} {value : Json} {rest : List (List Piece × Json)}
      {bytes others : Bytes} (written : Member key value bytes) (follow : Members rest others) :
      Members ((key, value) :: rest) (bytes ++ 0x2C :: others)

end

end Grammar

end Json

end StationRelay
