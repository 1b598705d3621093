import StationRelay.Bytes.Hex

/-!
# Verdicts on bytes

A reader of packets or frames has to give a cause where it gives no answer.
`incomplete` is no failure: the bytes at hand may still grow into what was
expected.  Every other cause stands whatever bytes follow.  A `Verdict` is what
an engine makes of the bytes at the front of its buffer.
-/

namespace StationRelay

/-- A field of a complete packet that holds a byte without a meaning. -/
inductive BadField where
  | flag (raw : UInt8)
  | refusal (raw : UInt8)
  deriving DecidableEq

/-- What a reader of packets or frames has to say instead of an answer. -/
inductive WireError where
  /-- The bytes end before the item does. -/
  | incomplete (needed available : Nat)
  | unknownTag (tag : UInt8)
  | malformed (field : BadField)
  /-- The announced or given length passes the limit. -/
  | oversize (declared limit : Nat)
  deriving DecidableEq

namespace BadField

def message : BadField → String
  | .flag raw => "unknown transport flag " ++ Hex.byteText raw
  | .refusal raw => "unknown handshake reason " ++ Hex.byteText raw

end BadField

namespace WireError

def message : WireError → String
  | .incomplete needed available =>
    s!"insufficient data: need at least {needed} bytes, got {available}"
  | .unknownTag tag => "unknown packet type: " ++ Hex.byteText tag
  | .malformed field => "malformed payload: " ++ field.message
  | .oversize declared limit =>
    s!"payload too big: declared {declared} bytes, maximum is {limit}"

end WireError

inductive Verdict where
  /-- An item was handled. -/
  | good
  /-- The item at the front is not complete. -/
  | indeterminate
  /-- The item at the front breaks the protocol. -/
  | bad
  /-- The item at the front announces more bytes than allowed. -/
  | oversize
  deriving DecidableEq

end StationRelay
