import StationRelay.Config
import StationRelay.Toml.Table

/-!
# Configurations from values

A part of a configuration is a table, whose keys may come in any order and
leave some out, or an array, whose items are the fields in order and may end
early.  What is left out has its default; keys and items beyond the fields mean
nothing.
-/

namespace StationRelay

namespace Config

/-- Gives the field with a name and a place, if it is there. -/
abbrev Fields := String → Nat → Option Toml

/-- The fields of a value that has fields.  A date has none that are known. -/
def fields? : Toml → Option Fields
  | .table entries => some fun name _ => entries.lookup name
  | .array items => some fun _ place => items[place]?
  | .date => some fun _ _ => none
  | _ => none

def fieldOr {α : Type} (read? : Toml → Option α) (default : α) : Option Toml → Option α
  | none => some default
  | some value => read? value

def text? : Toml → Option String
  | .string text => some text
  | _ => none

def natural? (bound : Nat) : Toml → Option Nat
  | .integer value => if 0 ≤ value ∧ value < bound then some value.toNat else none
  | _ => none

def port? : Toml → Option Nat := natural? 0x10000

def word? : Toml → Option Nat := natural? 0x10000000000000000

def byte? (value : Toml) : Option UInt8 :=
  (natural? 0x100 value).map UInt8.ofNat

def items? {α : Type} (read? : Toml → Option α) : Toml → Option (List α)
  | .array items => items.mapM read?
  | _ => none

/-- An identifier is a text, or an array that starts with sixteen bytes. -/
def uuid? : Toml → Option Uuid
  | .string text => Uuid.ofText? text
  | .array items => do
    let bytes ← (items.take 16).mapM byte?
    Uuid.ofBytes? bytes
  | _ => none

def listening? (value : Toml) : Option Listening := do
  let fields ← fields? value
  let standard : Listening := {}
  return {
    bindAddress := ← fieldOr text? standard.bindAddress (fields "bind_address" 0)
    devicePort := ← fieldOr port? standard.devicePort (fields "device_port" 1)
    browserPort := ← fieldOr port? standard.browserPort (fields "browser_port" 2)
    workerThreads := ← fieldOr word? standard.workerThreads (fields "worker_threads" 3) }

def settings? (value : Toml) : Option Settings := do
  let fields ← fields? value
  let standard : Settings := {}
  return {
    handshakeTimeout := ← fieldOr word? standard.handshakeTimeout (fields "handshake_timeout_ms" 0)
    readTimeout := ← fieldOr word? standard.readTimeout (fields "read_timeout_ms" 1)
    writeTimeout := ← fieldOr word? standard.writeTimeout (fields "write_timeout_ms" 2)
    pingInterval := ← fieldOr word? standard.pingInterval (fields "ping_interval_ms" 3)
    pongTimeout := ← fieldOr word? standard.pongTimeout (fields "pong_timeout_ms" 4)
    upgradeTimeout :=
      ← fieldOr word? standard.upgradeTimeout (fields "websocket_handshake_timeout_ms" 5)
    maxPayload := ← fieldOr word? standard.maxPayload (fields "max_payload_bytes" 6)
    queueCapacity := ← fieldOr word? standard.queueCapacity (fields "queue_capacity" 7) }

def device? (value : Toml) : Option DeviceEntry := do
  let fields ← fields? value
  let uuid ← fields "uuid" 0 >>= uuid?
  let note ← fieldOr (fun note => (text? note).map some) none (fields "note" 1)
  return ⟨uuid, note⟩

def stationName? (value : Toml) : Option StationName := do
  let fields ← fields? value
  let raw ← fields "id" 0 >>= byte?
  let station ← Station.ofByte? raw
  let name ← fields "name" 1 >>= text?
  return ⟨station, name⟩

def ofEntries? (entries : List (String × Toml)) : Option Config := do
  return {
    listening := ← fieldOr listening? {} (entries.lookup "server")
    session := ← fieldOr settings? {} (entries.lookup "session")
    devices := ← fieldOr (items? device?) [] (entries.lookup "devices")
    stations := ← fieldOr (items? stationName?) [] (entries.lookup "stations") }

end Config

end StationRelay
