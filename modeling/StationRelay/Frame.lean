import StationRelay.WireError

/-!
# Frames of the browser stream

A frame is a payload behind its length, which is written as two little-endian
bytes.  The reader refuses a declared length above its limit as soon as it has
seen the two bytes, whether or not the payload is there.
-/

namespace StationRelay

namespace Frame

def headerSize : Nat := 2

/-- The longest payload whose length fits the two bytes. -/
def maxPayload : Nat := 65535

def encode (payload : Bytes) : Except WireError Bytes :=
  if payload.length ≤ maxPayload then
    .ok (Bytes.littleEndian headerSize payload.length ++ payload)
  else .error (.oversize payload.length maxPayload)

/-- Reads the frame at the front: its payload, and the number of bytes it took. -/
def decode (limit : Nat) (bytes : Bytes) : Except WireError (Bytes × Nat) :=
  match bytes with
  | low :: high :: rest =>
    let declared := Bytes.ofLittleEndian [low, high]
    if limit < declared then .error (.oversize declared limit)
    else if rest.length < declared then
      .error (.incomplete (headerSize + declared) bytes.length)
    else .ok (rest.take declared, headerSize + declared)
  | short => .error (.incomplete headerSize short.length)

/-- A frame that was read took its header and its payload, and those were there. -/
theorem consumed_of_decode {limit : Nat} {bytes payload : Bytes} {consumed : Nat}
    (h : decode limit bytes = .ok (payload, consumed)) :
    consumed = headerSize + payload.length ∧ consumed ≤ bytes.length := by
  unfold decode at h
  split at h
  · rename_i low high rest
    simp only at h
    split at h
    · cases h
    split at h
    · cases h
    cases h
    simp only [List.length_take, List.length_cons, headerSize]
    omega
  · cases h

end Frame

end StationRelay
