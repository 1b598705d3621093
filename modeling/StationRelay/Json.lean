import StationRelay.Bytes

/-!
# JSON values as they are written

A value keeps what its text says and no more: a number is its literal, a string
the pieces between its quotes.  What a string or a number means is asked of it
later, because text that is only skipped need not mean anything.
-/

namespace StationRelay

namespace Json

/-- A number literal: its digits as values from 0 to 9, and an exponent with its sign. -/
structure Number where
  negative : Bool
  whole : List Nat
  fraction : List Nat
  exponent : Option (Bool × List Nat)
  deriving DecidableEq

/-- A piece of a string: a byte, or a 16-bit unit given by an escape of four digits. -/
inductive Piece where
  | byte (raw : UInt8)
  | unit (code : Nat)
  deriving DecidableEq

end Json

inductive Json where
  | null
  | bool (value : Bool)
  | number (literal : Json.Number)
  | string (pieces : List Json.Piece)
  | array (items : List Json)
  | object (members : List (List Json.Piece × Json))

end StationRelay
