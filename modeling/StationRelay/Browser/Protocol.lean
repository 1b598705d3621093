import StationRelay.AllowList
import StationRelay.Frame
import StationRelay.Hub
import StationRelay.Reply
import StationRelay.Request

/-!
# The protocol of a browser

The engine is offered a buffer and handles the framed request at its front.
Which stations are connected it answers itself; a request for readings it
passes on to the devices, whose answers come back another way.
-/

namespace StationRelay

namespace Browser

structure Engine where
  session : Uuid
  flag : TransportFlag
  maxPayload : Nat
  replies : List Reply
  deriving DecidableEq

namespace Engine

def takeReplies (engine : Engine) : Engine :=
  { engine with replies := [] }

end Engine

structure Handled where
  hub : Hub
  engine : Engine
  verdict : Verdict
  consumed : Nat

def stationEntries (directory : Directory) (hub : Hub) : List StationEntry :=
  hub.connectedStations.map fun station => ⟨station.toByte, directory.stationName station⟩

/-- Passes a request on to one station, and tells whether it was taken. -/
def forwardTo (hub : Hub) (command : Command) (raw : UInt8) : Hub × Bool :=
  match (Station.ofByte? raw).bind hub.findDevice with
  | some link => (hub.postCommand link command, hub.devices.accepts link)
  | none => (hub, false)

/-- Passes a request on to stations in order, and counts how many took it. -/
def forward (hub : Hub) (command : Command) : List UInt8 → Hub × Nat
  | [] => (hub, 0)
  | raw :: rest =>
    let first := forwardTo hub command raw
    let others := forward first.1 command rest
    (others.1, others.2 + if first.2 then 1 else 0)

def dispatch (directory : Directory) (hub : Hub) (engine : Engine) : Request → Hub × Engine
  | .stations =>
    (hub, { engine with
      replies := engine.replies ++ [.stations (stationEntries directory hub)] })
  | .readings stationIds =>
    ((forward hub ⟨engine.session, engine.flag⟩ stationIds).1, engine)

def handle (directory : Directory) (hub : Hub) (engine : Engine) (buffer : Bytes) : Handled :=
  match Frame.decode engine.maxPayload buffer with
  | .ok (payload, consumed) =>
    match Request.parse payload with
    | .ok request =>
      let dispatched := dispatch directory hub engine request
      ⟨dispatched.1, dispatched.2, .good, consumed⟩
    | .error _ => ⟨hub, engine, .bad, consumed⟩
  | .error (.incomplete _ _) => ⟨hub, engine, .indeterminate, 0⟩
  | .error (.oversize _ _) => ⟨hub, engine, .oversize, 0⟩
  | .error _ => ⟨hub, engine, .bad, 0⟩

/-- A good request takes at least the header of its frame, and no more than the buffer holds. -/
theorem consumed_of_good {directory : Directory} {hub : Hub} {engine : Engine} {buffer : Bytes}
    (h : (handle directory hub engine buffer).verdict = .good) :
    Frame.headerSize ≤ (handle directory hub engine buffer).consumed ∧
      (handle directory hub engine buffer).consumed ≤ buffer.length := by
  unfold handle at h ⊢
  split
  · rename_i decoded
    have size := Frame.consumed_of_decode decoded
    split <;> (simp only; omega)
  · simp_all
  · simp_all
  · simp_all

end Browser

end StationRelay
