import StationRelay.Json.Token

/-!
# Reading values

The reader goes through the tokens once and keeps the values that are still
open on a stack, so it reads any depth of nesting.  It accepts the tokens of
one value and nothing else.
-/

namespace StationRelay

namespace Json

/-- A value that is still open: what it holds so far, last first. -/
inductive Open where
  | array (before : List Json)
  | object (before : List (List Piece × Json)) (key : List Piece)

mutual

/-- Reads on where a value must start. -/
def readValue (stack : List Open) : List Token → Option Json
  | .null :: rest => readAfter .null stack rest
  | .bool value :: rest => readAfter (.bool value) stack rest
  | .number literal :: rest => readAfter (.number literal) stack rest
  | .string pieces :: rest => readAfter (.string pieces) stack rest
  | .openArray :: .closeArray :: rest => readAfter (.array []) stack rest
  | .openArray :: rest => readValue (.array [] :: stack) rest
  | .openObject :: .closeObject :: rest => readAfter (.object []) stack rest
  | .openObject :: .string key :: .colon :: rest => readValue (.object [] key :: stack) rest
  | _ => none

/-- Reads on behind a finished value. -/
def readAfter (value : Json) : List Open → List Token → Option Json
  | [], [] => some value
  | .array before :: stack, .comma :: rest => readValue (.array (value :: before) :: stack) rest
  | .array before :: stack, .closeArray :: rest =>
    readAfter (.array (value :: before).reverse) stack rest
  | .object before key :: stack, .comma :: .string next :: .colon :: rest =>
    readValue (.object ((key, value) :: before) next :: stack) rest
  | .object before key :: stack, .closeObject :: rest =>
    readAfter (.object ((key, value) :: before).reverse) stack rest
  | _, _ => none

end

def read? (bytes : Bytes) : Option Json :=
  tokens? bytes >>= readValue []

/-! ## What a value means -/

mutual

/--
The value can be held with at most `depth` levels of nesting: every string has
a text and every number is in range.
-/
def holds (depth : Nat) : Json → Bool
  | .null => true
  | .bool _ => true
  | .number literal => decide literal.InRange
  | .string pieces => (text? pieces).isSome
  | .array items =>
    match depth with
    | 0 => false
    | depth + 1 => holdsItems depth items
  | .object members =>
    match depth with
    | 0 => false
    | depth + 1 => holdsMembers depth members

def holdsItems (depth : Nat) : List Json → Bool
  | [] => true
  | item :: rest => holds depth item && holdsItems depth rest

def holdsMembers (depth : Nat) : List (List Piece × Json) → Bool
  | [] => true
  | (key, value) :: rest =>
    (text? key).isSome && holds depth value && holdsMembers depth rest

end

end Json

end StationRelay
