import StationRelay.Device.Protocol

/-!
# What one call of a device engine leads to

`Handling` lists everything that handling the front of a buffer can lead to,
with the conditions under which it does.  `handling_handle` says that the list
is complete, so that a statement about every call is a case analysis.
-/

namespace StationRelay

namespace Device

/-- The ways in which a handshake is turned down, the first failing check giving the reason. -/
inductive Refused (directory : Directory) (hub : Hub) (engine : Engine) (device : Uuid)
    (raw : UInt8) : Refusal → Prop where
  | repeated (holding : engine.IsAuthenticated) :
      Refused directory hub engine device raw .stationTaken
  | outOfRange (fresh : ¬ engine.IsAuthenticated) (unknown : Station.ofByte? raw = none) :
      Refused directory hub engine device raw .stationUnknown
  | malformed {station : Station} (fresh : ¬ engine.IsAuthenticated)
      (known : Station.ofByte? raw = some station) (malformed : ¬ device.WellFormed) :
      Refused directory hub engine device raw .uuidMalformed
  | unregistered {station : Station} (fresh : ¬ engine.IsAuthenticated)
      (known : Station.ofByte? raw = some station) (wellFormed : device.WellFormed)
      (unregistered : directory.isRegistered device = false) :
      Refused directory hub engine device raw .deviceUnregistered
  | taken {station : Station} {holder : LinkId} (fresh : ¬ engine.IsAuthenticated)
      (known : Station.ofByte? raw = some station) (wellFormed : device.WellFormed)
      (registered : directory.isRegistered device = true)
      (held : hub.findDevice station = some holder) :
      Refused directory hub engine device raw .stationTaken

/-- The conditions under which a handshake is accepted. -/
structure Admissible (directory : Directory) (hub : Hub) (engine : Engine) (device : Uuid)
    (raw : UInt8) (station : Station) : Prop where
  fresh : ¬ engine.IsAuthenticated
  known : Station.ofByte? raw = some station
  wellFormed : device.WellFormed
  registered : directory.isRegistered device = true
  free : hub.findDevice station = none

namespace Engine

def refuse (engine : Engine) (reason : Refusal) : Engine :=
  engine.record [.send (.refusal reason)]

def accept (engine : Engine) (station : Station) : Engine :=
  { engine with state := .authenticated station }.record [.send .welcome, .startKeepalive]

theorem isAuthenticated_iff (engine : Engine) :
    engine.IsAuthenticated ↔ ∃ station, engine.state = .authenticated station := by
  unfold IsAuthenticated station? State.station?
  cases engine.state <;> simp

theorem state_eq_connected {engine : Engine} (opened : engine.state ≠ .closed)
    (fresh : ¬ engine.IsAuthenticated) : engine.state = .connected := by
  cases state : engine.state with
  | connected => rfl
  | authenticated station => exact absurd (engine.isAuthenticated_iff.mpr ⟨station, state⟩) fresh
  | closed => exact absurd state opened

end Engine

/-- A handshake is either turned down or accepted. -/
theorem onHello_cases (directory : Directory) (hub : Hub) (engine : Engine) (device : Uuid)
    (raw : UInt8) :
    (∃ reason, Refused directory hub engine device raw reason ∧
      onHello directory hub engine device raw = (hub, engine.refuse reason)) ∨
    (∃ station, Admissible directory hub engine device raw station ∧
      onHello directory hub engine device raw =
        ({ hub with stations := hub.stations.set station (some engine.link) },
          engine.accept station)) := by
  unfold onHello
  by_cases holding : engine.IsAuthenticated
  · rw [if_pos holding]
    exact Or.inl ⟨_, .repeated holding, rfl⟩
  rw [if_neg holding]
  cases known : Station.ofByte? raw with
  | none => exact Or.inl ⟨_, .outOfRange holding known, rfl⟩
  | some station =>
      dsimp only
      by_cases wellFormed : device.WellFormed
      · rw [if_neg (not_not_intro wellFormed)]
        cases registered : directory.isRegistered device with
        | false =>
            rw [if_pos rfl]
            exact Or.inl ⟨_, .unregistered holding known wellFormed registered, rfl⟩
        | true =>
            rw [if_neg (by decide)]
            unfold Hub.joinDevice
            cases found : hub.findDevice station with
            | some holder =>
                exact Or.inl ⟨_, .taken holding known wellFormed registered found, rfl⟩
            | none =>
                exact Or.inr
                  ⟨station, ⟨holding, known, wellFormed, registered, found⟩, rfl⟩
      · rw [if_pos wellFormed]
        exact Or.inl ⟨_, .malformed holding known wellFormed, rfl⟩

/-- Everything that handling the front of a buffer can lead to. -/
inductive Handling (directory : Directory) (hub : Hub) (engine : Engine) (buffer : Bytes) :
    Handled → Prop where
  | closed (closed : engine.state = .closed) :
      Handling directory hub engine buffer ⟨hub, engine, .bad, 0⟩
  | incomplete {needed available : Nat} (opened : engine.state ≠ .closed)
      (decoded : Uplink.decode buffer = .error (.incomplete needed available)) :
      Handling directory hub engine buffer ⟨hub, engine, .indeterminate, 0⟩
  | unreadable {error : WireError} (opened : engine.state ≠ .closed)
      (decoded : Uplink.decode buffer = .error error)
      (complete : ∀ needed available, error ≠ .incomplete needed available) :
      Handling directory hub engine buffer ⟨hub, engine, .bad, 0⟩
  | outOfTurn {packet : Uplink} {consumed : Nat} (fresh : engine.state = .connected)
      (decoded : Uplink.decode buffer = .ok (packet, consumed))
      (notHello : packet.kind ≠ .hello) :
      Handling directory hub engine buffer ⟨hub, engine, .bad, consumed⟩
  | refused {device : Uuid} {raw : UInt8} {consumed : Nat} {reason : Refusal}
      (opened : engine.state ≠ .closed)
      (decoded : Uplink.decode buffer = .ok (.hello device raw, consumed))
      (refused : Refused directory hub engine device raw reason) :
      Handling directory hub engine buffer ⟨hub, engine.refuse reason, .good, consumed⟩
  | accepted {device : Uuid} {raw : UInt8} {consumed : Nat} {station : Station}
      (fresh : engine.state = .connected)
      (decoded : Uplink.decode buffer = .ok (.hello device raw, consumed))
      (admissible : Admissible directory hub engine device raw station) :
      Handling directory hub engine buffer
        ⟨{ hub with stations := hub.stations.set station (some engine.link) },
          engine.accept station, .good, consumed⟩
  | pong {station : Station} {consumed : Nat} (held : engine.state = .authenticated station)
      (decoded : Uplink.decode buffer = .ok (.pong, consumed)) :
      Handling directory hub engine buffer ⟨hub, engine.record [.pongReceived], .good, consumed⟩
  | report {station : Station} {report : Report} {consumed : Nat}
      (held : engine.state = .authenticated station)
      (decoded : Uplink.decode buffer = .ok (.report report, consumed)) :
      Handling directory hub engine buffer ⟨onReport hub station report, engine, .good, consumed⟩

theorem handling_handle (directory : Directory) (hub : Hub) (engine : Engine) (buffer : Bytes) :
    Handling directory hub engine buffer (handle directory hub engine buffer) := by
  unfold handle
  by_cases closed : engine.state = .closed
  · rw [if_pos closed]
    exact .closed closed
  rw [if_neg closed]
  cases decoded : Uplink.decode buffer with
  | error error =>
      cases error with
      | incomplete needed available => exact .incomplete closed decoded
      | unknownTag tag => exact .unreadable closed decoded nofun
      | malformed field => exact .unreadable closed decoded nofun
      | oversize declared limit => exact .unreadable closed decoded nofun
  | ok read =>
      obtain ⟨packet, consumed⟩ := read
      dsimp only
      cases packet with
      | hello device raw =>
          simp only [onPacket]
          rcases onHello_cases directory hub engine device raw with
            ⟨reason, refused, result⟩ | ⟨station, admissible, result⟩
          · rw [result]
            exact .refused closed decoded refused
          · rw [result]
            exact .accepted (Engine.state_eq_connected closed admissible.fresh) decoded admissible
      | pong =>
          cases state : engine.state with
          | connected =>
              have notHeld : ¬ engine.IsAuthenticated := by
                simp [engine.isAuthenticated_iff, state]
              simp only [onPacket, if_neg notHeld]
              exact .outOfTurn state decoded nofun
          | authenticated station =>
              have held : engine.IsAuthenticated :=
                (engine.isAuthenticated_iff).mpr ⟨station, state⟩
              simp only [onPacket, if_pos held]
              exact .pong state decoded
          | closed => exact absurd state closed
      | report measured =>
          cases state : engine.state with
          | connected =>
              have notHeld : engine.station? = none := by
                simp [Engine.station?, state, State.station?]
              simp only [onPacket, notHeld]
              exact .outOfTurn state decoded nofun
          | authenticated station =>
              have held : engine.station? = some station := by
                simp [Engine.station?, state, State.station?]
              simp only [onPacket, held]
              exact .report state decoded
          | closed => exact absurd state closed

/-- A good verdict is about a packet that was read. -/
theorem decode_of_good {directory : Directory} {hub : Hub} {engine : Engine} {buffer : Bytes}
    (good : (handle directory hub engine buffer).verdict = .good) :
    ∃ packet consumed, Uplink.decode buffer = .ok (packet, consumed) := by
  have listed := handling_handle directory hub engine buffer
  generalize handle directory hub engine buffer = handled at listed good
  cases listed with
  | closed | incomplete | unreadable | outOfTurn => cases good
  | refused _ decoded | accepted _ decoded | pong _ decoded | report _ decoded =>
      exact ⟨_, _, decoded⟩

end Device

end StationRelay
