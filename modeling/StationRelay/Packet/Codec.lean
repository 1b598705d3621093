import StationRelay.Packet
import StationRelay.WireError

/-!
# Packets as bytes

`encode` writes a packet as its tag and its fields.  `decode` reads the packet
at the front of a byte string and tells how many bytes it took; what comes
after those bytes is never looked at.  `Uplink.consumed_of_decode` says that
they are the bytes of a whole packet.
-/

namespace StationRelay

namespace Uplink

/-- The tag, then the fields in order; words are little-endian. -/
def encode : Uplink → Bytes
  | .hello device station => Kind.hello.tag :: (device.bytes ++ [station])
  | .pong => [Kind.pong.tag]
  | .report measured =>
    Kind.report.tag :: (measured.session.bytes
      ++ Bytes.littleEndian 4 measured.temperature.bits.toNat
      ++ Bytes.littleEndian 4 measured.humidity.bits.toNat
      ++ Bytes.littleEndian 4 measured.time.toNat
      ++ [measured.flag.toByte])

/-- The packet of a kind whose bytes, tag included, are all there. -/
def ofBytes (kind : Kind) (bytes : Bytes) (h : kind.size ≤ bytes.length) :
    Except WireError Uplink :=
  match kind, h with
  | .hello, (h : 18 ≤ bytes.length) =>
    .ok (.hello (Uuid.ofSlice bytes 1 (by omega)) bytes[17])
  | .pong, _ => .ok .pong
  | .report, (h : 30 ≤ bytes.length) =>
    match TransportFlag.ofByte? bytes[29] with
    | none => .error (.malformed (.flag bytes[29]))
    | some flag =>
      .ok (.report
        { session := Uuid.ofSlice bytes 1 (by omega)
          temperature := ⟨bytes.word32 17⟩
          humidity := ⟨bytes.word32 21⟩
          time := bytes.word32 25
          flag })

/-- Reads the packet at the front, with the number of bytes it took. -/
def decode (bytes : Bytes) : Except WireError (Uplink × Nat) :=
  match bytes.head? with
  | none => .error (.incomplete 1 0)
  | some tag =>
    match Kind.ofTag? tag with
    | none => .error (.unknownTag tag)
    | some kind =>
      if h : kind.size ≤ bytes.length then
        match ofBytes kind bytes h with
        | .ok packet => .ok (packet, kind.size)
        | .error error => .error error
      else .error (.incomplete kind.size bytes.length)

/-- A packet that was read took the bytes of its kind, and those were there. -/
theorem consumed_of_decode {bytes : Bytes} {packet : Uplink} {consumed : Nat}
    (h : decode bytes = .ok (packet, consumed)) :
    ∃ kind : Kind, consumed = kind.size ∧ kind.size ≤ bytes.length := by
  unfold decode at h
  split at h
  · cases h
  split at h
  · cases h
  rename_i kind _
  split at h
  · rename_i fits
    split at h
    · cases h
      exact ⟨kind, rfl, fits⟩
    · cases h
  · cases h

end Uplink

namespace Downlink

/-- The tag, then the fields in order. -/
def encode : Downlink → Bytes
  | .greeting => [Kind.greeting.tag]
  | .welcome => [Kind.welcome.tag]
  | .refusal reason => [Kind.refusal.tag, reason.toByte]
  | .ping => [Kind.ping.tag]
  | .request session flag => Kind.request.tag :: (session.bytes ++ [flag.toByte])

def ofBytes (kind : Kind) (bytes : Bytes) (h : kind.size ≤ bytes.length) :
    Except WireError Downlink :=
  match kind, h with
  | .greeting, _ => .ok .greeting
  | .welcome, _ => .ok .welcome
  | .refusal, (h : 2 ≤ bytes.length) =>
    match Refusal.ofByte? bytes[1] with
    | none => .error (.malformed (.refusal bytes[1]))
    | some reason => .ok (.refusal reason)
  | .ping, _ => .ok .ping
  | .request, (h : 18 ≤ bytes.length) =>
    match TransportFlag.ofByte? bytes[17] with
    | none => .error (.malformed (.flag bytes[17]))
    | some flag => .ok (.request (Uuid.ofSlice bytes 1 (by omega)) flag)

def decode (bytes : Bytes) : Except WireError (Downlink × Nat) :=
  match bytes.head? with
  | none => .error (.incomplete 1 0)
  | some tag =>
    match Kind.ofTag? tag with
    | none => .error (.unknownTag tag)
    | some kind =>
      if h : kind.size ≤ bytes.length then
        match ofBytes kind bytes h with
        | .ok packet => .ok (packet, kind.size)
        | .error error => .error error
      else .error (.incomplete kind.size bytes.length)

end Downlink

end StationRelay
