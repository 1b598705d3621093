import StationRelay.Bytes.Hex

/-!
# Universally unique identifiers

A station device and a browser session are each named by sixteen bytes.  The
written form is hyphenated and in lower case; four spellings are read: bare
digits, hyphenated, hyphenated in braces, and hyphenated after `urn:uuid:`.
-/

namespace StationRelay

structure Uuid where
  bytes : Bytes
  length_eq : bytes.length = 16
  deriving DecidableEq

namespace Uuid

/-- The identifier whose bytes start at `offset`. -/
def ofSlice (bytes : Bytes) (offset : Nat) (h : offset + 16 ≤ bytes.length) : Uuid :=
  ⟨bytes.slice offset 16, Bytes.length_slice h⟩

def ofBytes? (bytes : Bytes) : Option Uuid :=
  if h : bytes.length = 16 then some ⟨bytes, h⟩ else none

def version (uuid : Uuid) : Nat :=
  have inside : 6 < uuid.bytes.length := by rw [uuid.length_eq]; decide
  uuid.bytes[6].toNat / 16

/-- A version from 1 to 8 is a defined one. -/
def WellFormed (uuid : Uuid) : Prop :=
  1 ≤ uuid.version ∧ uuid.version ≤ 8

instance (uuid : Uuid) : Decidable uuid.WellFormed :=
  inferInstanceAs (Decidable (_ ∧ _))

/-- The lengths of the five groups of digits, in bytes. -/
def groups : List Nat := [4, 2, 2, 2, 6]

def cut {α : Type} : List Nat → List α → List (List α)
  | [], _ => []
  | n :: ns, xs => xs.take n :: cut ns (xs.drop n)

/-- The hyphenated lower-case form. -/
def toText (uuid : Uuid) : String :=
  String.intercalate "-" ((cut groups uuid.bytes).map fun group => String.ofList (Hex.encode group))

def ofDigits? (text : List Char) : Option Uuid := do
  let bytes ← Hex.decode? text
  ofBytes? bytes

/-- Five groups of digits with single hyphens between them. -/
def ofHyphenated? (text : List Char) : Option Uuid :=
  if text.length = 36 ∧ [8, 13, 18, 23].all (fun i => text[i]? = some '-') then
    ofDigits? (text.take 8 ++ (text.drop 9).take 4 ++ (text.drop 14).take 4
      ++ (text.drop 19).take 4 ++ text.drop 24)
  else none

/-- The text without `urn:uuid:`, in either case, in front of it. -/
def stripUrn? (text : List Char) : Option (List Char) :=
  if (text.take 9).map Char.toLower = "urn:uuid:".toList then some (text.drop 9) else none

def stripBraces? : List Char → Option (List Char)
  | '\x7b' :: rest =>
    if rest.getLast? = some '\x7d' then some rest.dropLast else none
  | _ => none

/-- Reads any of the four spellings; the length of the text tells which one it must be. -/
def ofText? (text : String) : Option Uuid :=
  let chars := text.toList
  match chars.length with
  | 32 => ofDigits? chars
  | 36 => ofHyphenated? chars
  | 38 => stripBraces? chars >>= ofHyphenated?
  | 45 => stripUrn? chars >>= ofHyphenated?
  | _ => none

end Uuid

end StationRelay
