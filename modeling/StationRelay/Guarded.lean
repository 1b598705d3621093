import StationRelay.Frame
import StationRelay.Packet.Codec

/-!
# Reading with a check at every access

The readers of packets and frames look only at bytes that are known to be there.
Here they are once more with nothing taken for granted: every field of a packet
is asked for and may be cut off, and an access outside the bytes is an answer of
its own.
-/

namespace StationRelay

/-- What can stop a reader that checks every access. -/
inductive Fault where
  | wire (error : WireError)
  /-- The body of a packet ends inside an identifier. -/
  | uuidCut (offset : Nat)
  /-- The body of a packet ends inside a word. -/
  | wordCut (offset : Nat)
  /-- The body of a packet ends before a flag. -/
  | flagCut (offset : Nat)
  /-- There is no byte with this index. -/
  | outside (index : Nat)
  deriving DecidableEq

namespace Fault

/-- What is said of a fault; after an access outside the bytes nothing is said any more. -/
def message? : Fault → Option String
  | .wire error => some error.message
  | .uuidCut offset => some s!"malformed payload: need 16 bytes for UUID at offset {offset}"
  | .wordCut offset => some s!"malformed payload: need 4 bytes for u32 at offset {offset}"
  | .flagCut offset => some s!"malformed payload: missing transport flag at offset {offset}"
  | .outside _ => none

end Fault

namespace Guarded

/-! ## Accesses -/

def byteAt (bytes : Bytes) (index : Nat) : Except Fault UInt8 :=
  match bytes[index]? with
  | some raw => .ok raw
  | none => .error (.outside index)

def between (bytes : Bytes) (start stop : Nat) : Except Fault Bytes :=
  if start ≤ stop ∧ stop ≤ bytes.length then .ok (bytes.slice start (stop - start))
  else .error (.outside stop)

def uuidAt (body : Bytes) (offset : Nat) : Except Fault Uuid :=
  if h : offset + 16 ≤ body.length then .ok (Uuid.ofSlice body offset h)
  else .error (.uuidCut offset)

def wordAt (body : Bytes) (offset : Nat) : Except Fault UInt32 :=
  if offset + 4 ≤ body.length then .ok (body.word32 offset) else .error (.wordCut offset)

def flagOf (raw : UInt8) : Except Fault TransportFlag :=
  match TransportFlag.ofByte? raw with
  | none => .error (.wire (.malformed (.flag raw)))
  | some flag => .ok flag

def flagAt (body : Bytes) (offset : Nat) : Except Fault TransportFlag :=
  match body[offset]? with
  | none => .error (.flagCut offset)
  | some raw => flagOf raw

def refusalOf (raw : UInt8) : Except Fault Refusal :=
  match Refusal.ofByte? raw with
  | none => .error (.wire (.malformed (.refusal raw)))
  | some reason => .ok reason

def refusalAt (body : Bytes) (offset : Nat) : Except Fault Refusal :=
  byteAt body offset >>= refusalOf

/-! ## Readers -/

def decode {κ π : Type} (ofTag? : UInt8 → Option κ) (size : κ → Nat)
    (ofBody : κ → Bytes → Except Fault π) (bytes : Bytes) : Except Fault (π × Nat) :=
  match bytes.head? with
  | none => .error (.wire (.incomplete 1 0))
  | some tag =>
    match ofTag? tag with
    | none => .error (.wire (.unknownTag tag))
    | some kind =>
      if bytes.length < size kind then .error (.wire (.incomplete (size kind) bytes.length))
      else do
        let body ← between bytes 1 (size kind)
        let packet ← ofBody kind body
        return (packet, size kind)

def uplinkOfBody (kind : Uplink.Kind) (body : Bytes) : Except Fault Uplink :=
  match kind with
  | .hello => do
    let device ← uuidAt body 0
    let station ← byteAt body 16
    return .hello device station
  | .pong => .ok .pong
  | .report => do
    let session ← uuidAt body 0
    let temperature ← wordAt body 16
    let humidity ← wordAt body 20
    let time ← wordAt body 24
    let flag ← flagAt body 28
    return .report ⟨session, ⟨temperature⟩, ⟨humidity⟩, time, flag⟩

def downlinkOfBody (kind : Downlink.Kind) (body : Bytes) : Except Fault Downlink :=
  match kind with
  | .greeting => .ok .greeting
  | .welcome => .ok .welcome
  | .refusal => do
    let reason ← refusalAt body 0
    return .refusal reason
  | .ping => .ok .ping
  | .request => do
    let session ← uuidAt body 0
    let flag ← flagAt body 16
    return .request session flag

def decodeUplink : Bytes → Except Fault (Uplink × Nat) :=
  decode Uplink.Kind.ofTag? Uplink.Kind.size uplinkOfBody

def decodeDownlink : Bytes → Except Fault (Downlink × Nat) :=
  decode Downlink.Kind.ofTag? Downlink.Kind.size downlinkOfBody

def decodeFrame (limit : Nat) (bytes : Bytes) : Except Fault (Bytes × Nat) :=
  if bytes.length < Frame.headerSize then
    .error (.wire (.incomplete Frame.headerSize bytes.length))
  else do
    let low ← byteAt bytes 0
    let high ← byteAt bytes 1
    let declared := Bytes.ofLittleEndian [low, high]
    let total := Frame.headerSize + declared
    if limit < declared then .error (.wire (.oversize declared limit))
    else if bytes.length < total then .error (.wire (.incomplete total bytes.length))
    else do
      let payload ← between bytes Frame.headerSize total
      return (payload, total)

end Guarded

end StationRelay
