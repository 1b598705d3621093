import StationRelay.Proofs.Handling
import StationRelay.Proofs.PacketFormat

/-!
# Whom a handshake admits

A handshake has to pass five checks, which are made in order.  If all pass, the
device holds its station and the hub leads there; if not, the first that fails
gives the refusal, and everything but the recorded answer is as it was.
`handle_hello_decided` says so of a handshake at the front of any buffer.
-/

namespace StationRelay

namespace Station

theorem not_lt_bound_of_ofByte? {raw : UInt8} (unknown : ofByte? raw = none) : ¬ raw < bound := by
  intro below
  have few : raw.toNat < 3 := UInt8.lt_iff_toNat_lt.mp below
  have named (station : Station) : raw.toNat ≠ station.toByte.toNat := by
    intro same
    rw [ofByte?_eq_some_iff.mpr (UInt8.toNat_inj.mp same)] at unknown
    cases unknown
  have notGoe : raw.toNat ≠ 0 := named .goe
  have notWf : raw.toNat ≠ 1 := named .wf
  have notBs : raw.toNat ≠ 2 := named .bs
  omega

theorem toByte_lt_bound (station : Station) : station.toByte < bound := by
  cases station <;> decide

end Station

namespace Hub

/-- Nobody is found for a station exactly if whatever link it leads to is dead. -/
theorem findDevice_eq_none_iff {hub : Hub} {station : Station} :
    hub.findDevice station = none ↔
      ∀ link, hub.stations.get station = some link → hub.devices.isLive link = false := by
  simp [findDevice, Option.filter_eq_none_iff]

end Hub

namespace Device

inductive Check where
  /-- The device holds no station yet. -/
  | fresh
  /-- The byte is the number of a station. -/
  | inRange
  /-- The identifier is of a defined version. -/
  | wellFormed
  /-- The device is one of those that may connect. -/
  | registered
  /-- Nobody holds the station. -/
  | vacant
  deriving DecidableEq

namespace Check

def all : List Check := [.fresh, .inRange, .wellFormed, .registered, .vacant]

def refusal : Check → Refusal
  | .fresh => .stationTaken
  | .inRange => .stationUnknown
  | .wellFormed => .uuidMalformed
  | .registered => .deviceUnregistered
  | .vacant => .stationTaken

def Passes (directory : Directory) (hub : Hub) (engine : Engine) (device : Uuid) (raw : UInt8) :
    Check → Prop
  | .fresh => engine.state = .connected
  | .inRange => raw < Station.bound
  | .wellFormed => 1 ≤ device.version ∧ device.version ≤ 8
  | .registered => directory.isRegistered device = true
  | .vacant => ∀ station link, raw = station.toByte →
      hub.stations.get station = some link → hub.devices.isLive link = false

/-- A handshake fails the check, and passes those that are made before it. -/
structure FirstFailing (directory : Directory) (hub : Hub) (engine : Engine) (device : Uuid)
    (raw : UInt8) (check : Check) : Prop where
  fails : ¬ check.Passes directory hub engine device raw
  passes : ∃ before after, all = before ++ check :: after ∧
    ∀ earlier ∈ before, earlier.Passes directory hub engine device raw

end Check

variable {directory : Directory} {hub : Hub} {engine : Engine} {device : Uuid} {raw : UInt8}

/-- Only the station that the byte names has to be vacant. -/
theorem vacant_iff {station : Station} (known : Station.ofByte? raw = some station) :
    Check.vacant.Passes directory hub engine device raw ↔ hub.findDevice station = none := by
  rw [Hub.findDevice_eq_none_iff]
  have named : raw = station.toByte := Station.ofByte?_eq_some_iff.mp known
  constructor
  · exact fun vacant link leads => vacant station link named leads
  · intro dead other link same leads
    rw [same, Station.ofByte?_toByte] at known
    cases known
    exact dead link leads

/-- A refusal is that of the first failing check. -/
theorem Refused.firstFailing {reason : Refusal} (opened : engine.state ≠ .closed)
    (refused : Refused directory hub engine device raw reason) :
    ∃ check : Check, check.FirstFailing directory hub engine device raw ∧
      check.refusal = reason := by
  have connected (fresh : ¬ engine.IsAuthenticated) :
      Check.fresh.Passes directory hub engine device raw :=
    Engine.state_eq_connected opened fresh
  have below {station : Station} (known : Station.ofByte? raw = some station) :
      Check.inRange.Passes directory hub engine device raw := by
    rw [Station.ofByte?_eq_some_iff.mp known]
    exact station.toByte_lt_bound
  cases refused with
  | repeated holding =>
      refine ⟨.fresh, ⟨fun state => ?_, [], _, rfl, nofun⟩, rfl⟩
      obtain ⟨station, held⟩ := engine.isAuthenticated_iff.mp holding
      rw [state] at held
      cases held
  | outOfRange fresh unknown =>
      exact ⟨.inRange, ⟨Station.not_lt_bound_of_ofByte? unknown, [.fresh], _, rfl,
        by simpa using connected fresh⟩, rfl⟩
  | malformed fresh known malformed =>
      exact ⟨.wellFormed, ⟨malformed, [.fresh, .inRange], _, rfl,
        by simpa using ⟨connected fresh, below known⟩⟩, rfl⟩
  | unregistered fresh known wellFormed unregistered =>
      refine ⟨.registered, ⟨fun registered => ?_, [.fresh, .inRange, .wellFormed], _, rfl,
        by simpa using ⟨connected fresh, below known, wellFormed⟩⟩, rfl⟩
      exact Bool.false_ne_true (unregistered.symm.trans registered)
  | taken fresh known wellFormed registered held =>
      refine ⟨.vacant, ⟨fun vacant => ?_, [.fresh, .inRange, .wellFormed, .registered], _, rfl,
        by simpa using ⟨connected fresh, below known, wellFormed, registered⟩⟩, rfl⟩
      rw [(vacant_iff known).mp vacant] at held
      cases held

theorem Admissible.passes {station : Station} (opened : engine.state ≠ .closed)
    (admissible : Admissible directory hub engine device raw station) (check : Check) :
    check.Passes directory hub engine device raw := by
  cases check with
  | fresh => exact Engine.state_eq_connected opened admissible.fresh
  | inRange =>
      rw [Station.ofByte?_eq_some_iff.mp admissible.known]
      exact station.toByte_lt_bound
  | wellFormed => exact admissible.wellFormed
  | registered => exact admissible.registered
  | vacant => exact (vacant_iff admissible.known).mpr admissible.free

theorem handle_hello (rest : Bytes) (opened : engine.state ≠ .closed) :
    handle directory hub engine ((Uplink.hello device raw).encode ++ rest) =
      ⟨(onHello directory hub engine device raw).1, (onHello directory hub engine device raw).2,
        .good, 18⟩ := by
  have decoded : Uplink.decode ((Uplink.hello device raw).encode ++ rest) =
      .ok (.hello device raw, 18) := by
    rw [← Uplink.decode_format]
    exact Uplink.lawful.decode_eq_ok_iff.mpr ⟨rfl, List.prefix_append _ _⟩
  rw [handle, if_neg opened, decoded]
  rfl

/-- A handshake is answered by a welcome if every check passes, and then it claims the one station
that it names.  Otherwise it is answered by the refusal of the first check that fails, and nothing
else has changed. -/
theorem handle_hello_decided (directory : Directory) (hub : Hub) (engine : Engine)
    (device : Uuid) (raw : UInt8) (rest : Bytes) (opened : engine.state ≠ .closed) :
    let handled := handle directory hub engine ((Uplink.hello device raw).encode ++ rest)
    let welcomed := engine.actions ++ [.send .welcome, .startKeepalive]
    handled.verdict = .good ∧ handled.consumed = 18 ∧
      (handled.engine.actions = welcomed ↔
        ∀ check : Check, check.Passes directory hub engine device raw) ∧
      (handled.engine.actions = welcomed →
        ∃ station : Station, raw = station.toByte ∧
          handled.engine = { engine with state := .authenticated station, actions := welcomed } ∧
          handled.hub = { hub with stations := hub.stations.set station (some engine.link) }) ∧
      (handled.engine.actions ≠ welcomed →
        ∃ check : Check, check.FirstFailing directory hub engine device raw ∧
          handled.engine =
            { engine with actions := engine.actions ++ [.send (.refusal check.refusal)] } ∧
          handled.hub = hub) := by
  intro handled welcomed
  have result : handled = _ := handle_hello rest opened
  clear_value handled
  subst result
  refine ⟨rfl, rfl, ?_⟩
  rcases onHello_cases directory hub engine device raw with
    ⟨reason, refused, answer⟩ | ⟨station, admissible, answer⟩
  · rw [answer]
    obtain ⟨check, first, rfl⟩ := refused.firstFailing opened
    have notWelcomed : (engine.refuse check.refusal).actions ≠ welcomed := by
      intro same
      cases List.append_cancel_left same
    exact ⟨⟨fun same => absurd same notWelcomed, fun passes => absurd (passes check) first.fails⟩,
      fun same => absurd same notWelcomed, fun _ => ⟨check, first, rfl, rfl⟩⟩
  · rw [answer]
    have named : raw = station.toByte := Station.ofByte?_eq_some_iff.mp admissible.known
    exact ⟨⟨fun _ => admissible.passes opened, fun _ => rfl⟩,
      fun _ => ⟨station, named, rfl, rfl⟩, fun other => absurd rfl other⟩

/-- A device that was refused once asks for a station that a dead link was left with; the next
handshake is behind. -/
theorem handle_hello_decided_second_try :
    let device : Uuid := ⟨List.replicate 16 0x40, rfl⟩
    let directory : Directory := ⟨fun other => other = device, Station.defaultName⟩
    let hub : Hub :=
      { Hub.empty with
        devices := ((Links.empty.create 4).create 4).release 1
        stations := ⟨some 0, some 1, none⟩ }
    let engine := (Engine.ofLink 0).refuse .stationTaken
    let handled := handle directory hub engine
      ((Uplink.hello device 1).encode ++ (Uplink.hello device 0).encode)
    engine.state ≠ .closed ∧ handled.verdict = .good ∧ handled.consumed = 18 ∧
      handled.engine.state = .authenticated .wf ∧
      handled.engine.actions =
        [.send (.refusal .stationTaken), .send .welcome, .startKeepalive] ∧
      handled.hub = { hub with stations := ⟨some 0, some 0, none⟩ } := by
  intro device directory hub engine handled
  have opened : engine.state ≠ .closed := nofun
  obtain ⟨good, whole, welcomed_iff, claimed, -⟩ := handle_hello_decided directory hub engine
    device 1 (Uplink.hello device 0).encode opened
  have passes (check : Check) : check.Passes directory hub engine device 1 := by
    cases check with
    | fresh => rfl
    | inRange => exact Station.toByte_lt_bound .wf
    | wellFormed => exact (by decide : device.WellFormed)
    | registered => exact decide_eq_true (rfl : device = device)
    | vacant =>
        have known : Station.ofByte? 1 = some .wf := rfl
        exact (vacant_iff known).mpr rfl
  have welcomed := welcomed_iff.mpr passes
  obtain ⟨station, named, answered, claims⟩ := claimed welcomed
  cases (Station.ofByte?_eq_some_iff.mpr named : some Station.wf = some station)
  exact ⟨opened, good, whole, congrArg Engine.state answered, welcomed, claims⟩

end Device

end StationRelay
