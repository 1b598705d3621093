import StationRelay.Bytes.Hex

/-!
# Network addresses

An address has four bytes or eight groups of sixteen bits.  In writing, the
longest run of at least two zero groups is left out, the first of several; an
address of eight groups that stands for one of four bytes shows those.
-/

namespace StationRelay

structure Address4 where
  a : UInt8
  b : UInt8
  c : UInt8
  d : UInt8
  deriving DecidableEq

structure Address6 where
  groups : List UInt16
  length_eq : groups.length = 8
  deriving DecidableEq

inductive Address where
  | v4 (address : Address4)
  | v6 (address : Address6)
  deriving DecidableEq

structure Endpoint where
  address : Address
  port : Nat
  deriving DecidableEq

namespace Address4

def toText (address : Address4) : String :=
  s!"{address.a.toNat}.{address.b.toNat}.{address.c.toNat}.{address.d.toNat}"

def groups (address : Address4) : List UInt16 :=
  [UInt16.ofNat (256 * address.a.toNat + address.b.toNat),
    UInt16.ofNat (256 * address.c.toNat + address.d.toNat)]

def ofGroups (high low : UInt16) : Address4 :=
  ⟨UInt8.ofNat (high.toNat / 256), UInt8.ofNat high.toNat,
    UInt8.ofNat (low.toNat / 256), UInt8.ofNat low.toNat⟩

end Address4

namespace Address6

/-- A group in hexadecimal, without zeros in front. -/
def groupText (group : UInt16) : String :=
  String.ofList (Nat.toDigits 16 group.toNat)

def joined (groups : List UInt16) : String :=
  String.intercalate ":" (groups.map groupText)

def zeros (groups : List UInt16) : Nat :=
  (groups.takeWhile (· = 0)).length

/-- Where the longest run of zero groups starts, and how long it is; of several the first. -/
def longestRun : List UInt16 → Nat × Nat
  | [] => (0, 0)
  | group :: rest =>
    let here := zeros (group :: rest)
    let (start, length) := longestRun rest
    if length ≤ here then (0, here) else (start + 1, length)

/-- The address of four bytes that this one stands for, if it does. -/
def mapped? (address : Address6) : Option Address4 :=
  match address.groups with
  | [0, 0, 0, 0, 0, 0xffff, high, low] => some (Address4.ofGroups high low)
  | _ => none

def toText (address : Address6) : String :=
  match address.mapped? with
  | some short => "::ffff:" ++ short.toText
  | none =>
    let (start, length) := longestRun address.groups
    if length ≤ 1 then joined address.groups
    else joined (address.groups.take start) ++ "::" ++ joined (address.groups.drop (start + length))

end Address6

namespace Address

def toText : Address → String
  | .v4 address => address.toText
  | .v6 address => address.toText

end Address

namespace Endpoint

/-- The address before a port; the colons of a long address stand between brackets. -/
def hostText : Address → String
  | .v4 address => address.toText
  | .v6 address => "[" ++ address.toText ++ "]"

def toText (endpoint : Endpoint) : String :=
  s!"{hostText endpoint.address}:{endpoint.port}"

end Endpoint

end StationRelay
