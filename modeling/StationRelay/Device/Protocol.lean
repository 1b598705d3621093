import StationRelay.AllowList
import StationRelay.Hub
import StationRelay.Packet.Codec

/-!
# The protocol of a device

The engine is offered a buffer and handles the packet at its front.  It writes
nothing itself: what the session is to do next it records as actions.  A
handshake that is turned down is answered and may be tried again; any packet
out of turn is a breach.
-/

namespace StationRelay

namespace Device

inductive State where
  /-- Not yet accepted. -/
  | connected
  /-- Accepted, and holding a station. -/
  | authenticated (station : Station)
  /-- Every packet is refused. -/
  | closed
  deriving DecidableEq

inductive Action where
  | send (packet : Downlink)
  | startKeepalive
  | pongReceived
  deriving DecidableEq

structure Engine where
  /-- The link that the hub points to once the device holds a station. -/
  link : LinkId
  state : State
  actions : List Action
  deriving DecidableEq

namespace State

def station? : State → Option Station
  | .authenticated station => some station
  | _ => none

end State

namespace Engine

def ofLink (link : LinkId) : Engine :=
  ⟨link, .connected, []⟩

def station? (engine : Engine) : Option Station :=
  engine.state.station?

def IsAuthenticated (engine : Engine) : Prop :=
  engine.station?.isSome = true

instance (engine : Engine) : Decidable engine.IsAuthenticated :=
  inferInstanceAs (Decidable (_ = true))

def record (engine : Engine) (actions : List Action) : Engine :=
  { engine with actions := engine.actions ++ actions }

def takeActions (engine : Engine) : Engine :=
  { engine with actions := [] }

end Engine

structure Handled where
  hub : Hub
  engine : Engine
  verdict : Verdict
  consumed : Nat

def refuse (hub : Hub) (engine : Engine) (reason : Refusal) : Hub × Engine :=
  (hub, engine.record [.send (.refusal reason)])

/-- A device names itself and claims a station.  The checks are made in order; the first that
fails gives the reason. -/
def onHello (directory : Directory) (hub : Hub) (engine : Engine) (device : Uuid)
    (raw : UInt8) : Hub × Engine :=
  if engine.IsAuthenticated then refuse hub engine .stationTaken
  else
    match Station.ofByte? raw with
    | none => refuse hub engine .stationUnknown
    | some station =>
      if ¬device.WellFormed then refuse hub engine .uuidMalformed
      else if directory.isRegistered device = false then refuse hub engine .deviceUnregistered
      else
        match hub.joinDevice station engine.link with
        | (_, false) => refuse hub engine .stationTaken
        | (joined, true) =>
          (joined, { engine with state := .authenticated station }.record
            [.send .welcome, .startKeepalive])

/-- The reading a report amounts to; the station is the one the device holds. -/
def readingOf (station : Station) (report : Report) : Reading :=
  ⟨station, report.temperature, report.humidity, report.time⟩

/-- Passes a reading on to the browser session that is named, if it is still there. -/
def onReport (hub : Hub) (station : Station) (report : Report) : Hub :=
  match hub.findNotifier report.session with
  | some notifier => hub.notify notifier (readingOf station report)
  | none => hub

/-- Handles one packet; `none` for one that is out of turn. -/
def onPacket (directory : Directory) (hub : Hub) (engine : Engine) :
    Uplink → Option (Hub × Engine)
  | .hello device raw => some (onHello directory hub engine device raw)
  | .pong => if engine.IsAuthenticated then some (hub, engine.record [.pongReceived]) else none
  | .report report =>
    match engine.station? with
    | some station => some (onReport hub station report, engine)
    | none => none

def handle (directory : Directory) (hub : Hub) (engine : Engine) (buffer : Bytes) : Handled :=
  if engine.state = .closed then ⟨hub, engine, .bad, 0⟩
  else
    match Uplink.decode buffer with
    | .ok (packet, consumed) =>
      match onPacket directory hub engine packet with
      | some (hub, engine) => ⟨hub, engine, .good, consumed⟩
      | none => ⟨hub, engine, .bad, consumed⟩
    | .error (.incomplete _ _) => ⟨hub, engine, .indeterminate, 0⟩
    | .error _ => ⟨hub, engine, .bad, 0⟩

/-- A good packet takes at least one byte of the buffer, and no more than it holds. -/
theorem consumed_of_good {directory : Directory} {hub : Hub} {engine : Engine} {buffer : Bytes}
    (h : (handle directory hub engine buffer).verdict = .good) :
    0 < (handle directory hub engine buffer).consumed ∧
      (handle directory hub engine buffer).consumed ≤ buffer.length := by
  unfold handle at h ⊢
  split
  · simp_all
  · split
    · rename_i decoded
      obtain ⟨kind, size, fits⟩ := Uplink.consumed_of_decode decoded
      subst size
      split <;> exact ⟨kind.size_pos, fits⟩
    · simp_all
    · simp_all

/-- Gives up the station that is held, and refuses every packet from now on. -/
def close (hub : Hub) (engine : Engine) : Hub × Engine :=
  (match engine.state with
    | .authenticated station => hub.leaveDevice station
    | _ => hub,
   { engine with state := .closed })

end Device

end StationRelay
