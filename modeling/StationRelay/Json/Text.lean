import StationRelay.Bytes.Hex
import StationRelay.Json

/-!
# Strings between quotes

`scan` finds the end of a string and cuts it into pieces; it refuses control
characters and unknown escapes and looks no further.  `text?` is stricter: the
pieces must be UTF-8, and escaped surrogates must come in pairs.  `quote` is
the written form of a text, which escapes a character only where it must.
-/

namespace StationRelay

namespace Json

def unit? (a b c d : UInt8) : Option Nat := do
  let w ← Hex.value? (Char.ofNat a.toNat)
  let x ← Hex.value? (Char.ofNat b.toNat)
  let y ← Hex.value? (Char.ofNat c.toNat)
  let z ← Hex.value? (Char.ofNat d.toNat)
  return 4096 * w + 256 * x + 16 * y + z

def escaped? (b : UInt8) : Option UInt8 :=
  if b = 34 ∨ b = 92 ∨ b = 47 then some b
  else if b = 98 then some 8
  else if b = 102 then some 12
  else if b = 110 then some 10
  else if b = 114 then some 13
  else if b = 116 then some 9
  else none

/-- The bytes that end or interrupt the plain part of a string. -/
def isPlainByte (b : UInt8) : Bool :=
  32 ≤ b && b != 34 && b != 92

/-- Scans behind an opening quote: the pieces, after those found before, and what follows. -/
def scanAfter (before : List Piece) : Bytes → Option (List Piece × Bytes)
  | [] => none
  | 34 :: rest => some (before.reverse, rest)
  | 92 :: 117 :: a :: b :: c :: d :: rest =>
    match unit? a b c d with
    | some code => scanAfter (.unit code :: before) rest
    | none => none
  | 92 :: escape :: rest =>
    match escaped? escape with
    | some raw => scanAfter (.byte raw :: before) rest
    | none => none
  | b :: rest => if isPlainByte b then scanAfter (.byte b :: before) rest else none

def scan (bytes : Bytes) : Option (List Piece × Bytes) :=
  scanAfter [] bytes

theorem scanAfter_lt {before pieces : List Piece} {bytes rest : Bytes}
    (h : scanAfter before bytes = some (pieces, rest)) : rest.length < bytes.length := by
  fun_induction scanAfter before bytes with
  | case1 => cases h
  | case2 before tail =>
    cases h
    simp
  | case3 before a b c d tail code found ih =>
    have := ih h
    simp only [List.length_cons]
    omega
  | case4 => cases h
  | case5 before escape tail raw found notUnit ih =>
    have := ih h
    simp only [List.length_cons]
    omega
  | case6 => cases h
  | case7 before b tail _ _ _ plain ih =>
    have := ih h
    simp only [List.length_cons]
    omega
  | case8 => cases h

def isHighSurrogate (code : Nat) : Bool :=
  0xD800 ≤ code && code < 0xDC00

def isLowSurrogate (code : Nat) : Bool :=
  0xDC00 ≤ code && code < 0xE000

/-- The UTF-8 bytes of pieces, behind those found before; a lone surrogate is refused. -/
def bytesAfter (before : Bytes) : List Piece → Option Bytes
  | [] => some before.reverse
  | .byte raw :: rest => bytesAfter (raw :: before) rest
  | .unit code :: rest =>
    if isLowSurrogate code then none
    else if isHighSurrogate code then
      match rest with
      | .unit low :: rest' =>
        if isLowSurrogate low then
          let point := 0x10000 + 0x400 * (code - 0xD800) + (low - 0xDC00)
          bytesAfter ((String.utf8EncodeChar (Char.ofNat point)).reverse ++ before) rest'
        else none
      | _ => none
    else bytesAfter ((String.utf8EncodeChar (Char.ofNat code)).reverse ++ before) rest

def ofUtf8? (bytes : Bytes) : Option String :=
  String.fromUTF8? ⟨bytes.toArray⟩

def text? (pieces : List Piece) : Option String :=
  bytesAfter [] pieces >>= ofUtf8?

/-- A character as it stands between quotes. -/
def escapeChar (c : Char) : List Char :=
  if c = '"' then ['\\', '"']
  else if c = '\\' then ['\\', '\\']
  else if c.toNat = 8 then ['\\', 'b']
  else if c.toNat = 9 then ['\\', 't']
  else if c.toNat = 10 then ['\\', 'n']
  else if c.toNat = 12 then ['\\', 'f']
  else if c.toNat = 13 then ['\\', 'r']
  else if c.toNat < 32 then
    ['\\', 'u', '0', '0', Hex.digit (c.toNat / 16), Hex.digit (c.toNat % 16)]
  else [c]

def quote (text : String) : List Char :=
  '"' :: text.toList.flatMap escapeChar ++ ['"']

end Json

end StationRelay
