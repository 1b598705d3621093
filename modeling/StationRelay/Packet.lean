import StationRelay.Binary32
import StationRelay.Station
import StationRelay.Uuid

/-!
# Packets between a station device and the relay

A packet has no length field: its first byte, the tag, fixes its size.  An
`Uplink` travels from the device, a `Downlink` to it.
-/

namespace StationRelay

/-- How the browser that asks for a reading reached the relay. -/
inductive TransportFlag where
  | plain
  | secure
  deriving DecidableEq

namespace TransportFlag

def toByte : TransportFlag → UInt8
  | .plain => 1
  | .secure => 2

def ofByte? (raw : UInt8) : Option TransportFlag :=
  if raw = 1 then some .plain
  else if raw = 2 then some .secure
  else none

@[simp] theorem ofByte?_toByte (flag : TransportFlag) : ofByte? flag.toByte = some flag := by
  cases flag <;> rfl

theorem eq_toByte_of_ofByte? {raw : UInt8} {flag : TransportFlag} (h : ofByte? raw = some flag) :
    raw = flag.toByte := by
  unfold ofByte? at h
  split at h
  · cases h; assumption
  split at h
  · cases h; assumption
  · cases h

end TransportFlag

inductive Refusal where
  | stationTaken
  | stationUnknown
  | deviceUnregistered
  | uuidMalformed
  deriving DecidableEq

namespace Refusal

def toByte : Refusal → UInt8
  | .stationTaken => 1
  | .stationUnknown => 2
  | .deviceUnregistered => 4
  | .uuidMalformed => 8

def ofByte? (raw : UInt8) : Option Refusal :=
  if raw = 1 then some .stationTaken
  else if raw = 2 then some .stationUnknown
  else if raw = 4 then some .deviceUnregistered
  else if raw = 8 then some .uuidMalformed
  else none

@[simp] theorem ofByte?_toByte (refusal : Refusal) : ofByte? refusal.toByte = some refusal := by
  cases refusal <;> rfl

theorem eq_toByte_of_ofByte? {raw : UInt8} {refusal : Refusal} (h : ofByte? raw = some refusal) :
    raw = refusal.toByte := by
  unfold ofByte? at h
  split at h
  · cases h; assumption
  split at h
  · cases h; assumption
  split at h
  · cases h; assumption
  split at h
  · cases h; assumption
  · cases h

end Refusal

/-- What a device measured, addressed to the browser session that asked. -/
structure Report where
  session : Uuid
  temperature : Binary32
  humidity : Binary32
  time : UInt32
  flag : TransportFlag
  deriving DecidableEq

inductive Uplink where
  /-- The device names itself and the station it claims. -/
  | hello (device : Uuid) (station : UInt8)
  /-- The answer to a ping. -/
  | pong
  | report (measured : Report)
  deriving DecidableEq

inductive Downlink where
  /-- Sent as soon as the device has connected. -/
  | greeting
  /-- The handshake was accepted. -/
  | welcome
  | refusal (reason : Refusal)
  | ping
  /-- A browser session asks for a reading. -/
  | request (session : Uuid) (flag : TransportFlag)
  deriving DecidableEq

inductive Uplink.Kind where
  | hello
  | pong
  | report
  deriving DecidableEq

inductive Downlink.Kind where
  | greeting
  | welcome
  | refusal
  | ping
  | request
  deriving DecidableEq

namespace Uplink

namespace Kind

def tag : Kind → UInt8
  | .hello => 0
  | .pong => 1
  | .report => 2

/-- The size of the whole packet, tag included. -/
def size : Kind → Nat
  | .hello => 18
  | .pong => 1
  | .report => 30

def ofTag? (raw : UInt8) : Option Kind :=
  if raw = 0 then some .hello
  else if raw = 1 then some .pong
  else if raw = 2 then some .report
  else none

@[simp] theorem ofTag?_tag (kind : Kind) : ofTag? kind.tag = some kind := by
  cases kind <;> rfl

theorem eq_tag_of_ofTag? {raw : UInt8} {kind : Kind} (h : ofTag? raw = some kind) :
    raw = kind.tag := by
  unfold ofTag? at h
  split at h
  · cases h; assumption
  split at h
  · cases h; assumption
  split at h
  · cases h; assumption
  · cases h

theorem size_pos (kind : Kind) : 0 < kind.size := by
  cases kind <;> decide

theorem size_le (kind : Kind) : kind.size ≤ 30 := by
  cases kind <;> decide

end Kind

def kind : Uplink → Kind
  | .hello .. => .hello
  | .pong => .pong
  | .report _ => .report

end Uplink

namespace Downlink

namespace Kind

def tag : Kind → UInt8
  | .greeting => 0
  | .welcome => 1
  | .refusal => 2
  | .ping => 3
  | .request => 4

def size : Kind → Nat
  | .greeting => 1
  | .welcome => 1
  | .refusal => 2
  | .ping => 1
  | .request => 18

def ofTag? (raw : UInt8) : Option Kind :=
  if raw = 0 then some .greeting
  else if raw = 1 then some .welcome
  else if raw = 2 then some .refusal
  else if raw = 3 then some .ping
  else if raw = 4 then some .request
  else none

@[simp] theorem ofTag?_tag (kind : Kind) : ofTag? kind.tag = some kind := by
  cases kind <;> rfl

theorem eq_tag_of_ofTag? {raw : UInt8} {kind : Kind} (h : ofTag? raw = some kind) :
    raw = kind.tag := by
  unfold ofTag? at h
  split at h
  · cases h; assumption
  split at h
  · cases h; assumption
  split at h
  · cases h; assumption
  split at h
  · cases h; assumption
  split at h
  · cases h; assumption
  · cases h

theorem size_pos (kind : Kind) : 0 < kind.size := by
  cases kind <;> decide

end Kind

def kind : Downlink → Kind
  | .greeting => .greeting
  | .welcome => .welcome
  | .refusal _ => .refusal
  | .ping => .ping
  | .request .. => .request

end Downlink

end StationRelay
