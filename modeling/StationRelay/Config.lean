import StationRelay.Address.Reader
import StationRelay.AllowList
import StationRelay.Settings

/-!
# Configurations

A configuration says where the relay listens, what limits its sessions keep,
which devices may connect, and what the stations are called.  `flaw?` finds the
first condition that a configuration breaks; the conditions come in a fixed
order.
-/

namespace StationRelay

structure Listening where
  bindAddress : String := "0.0.0.0"
  devicePort : Nat := 8081
  browserPort : Nat := 8080
  /-- The number of worker threads; zero leaves it to the host. -/
  workerThreads : Nat := 0
  deriving DecidableEq

structure DeviceEntry where
  uuid : Uuid
  /-- A note of the operator's, which means nothing. -/
  note : Option String
  deriving DecidableEq

structure StationName where
  station : Station
  name : String
  deriving DecidableEq

structure Config where
  listening : Listening := {}
  session : Settings := {}
  devices : List DeviceEntry := []
  stations : List StationName := []
  deriving DecidableEq

/-- A condition that a configuration breaks. -/
inductive Flaw where
  | badAddress (text : String)
  | samePorts (port : Nat)
  /-- A duration is zero. -/
  | noTime (name : String)
  | payloadRange (limit : Nat)
  | noCapacity
  deriving DecidableEq

namespace Flaw

def detail : Flaw → String
  | .badAddress text => s!"server.bind_address '{text}' is not an IP address"
  | .samePorts port => s!"server.device_port and server.browser_port are both {port}"
  | .noTime name => s!"session.{name} must be positive"
  | .payloadRange limit => s!"session.max_payload_bytes must be in 1..=65535, got {limit}"
  | .noCapacity => "session.queue_capacity must be positive"

def message (flaw : Flaw) : String :=
  "invalid config value: " ++ flaw.detail

end Flaw

namespace Settings

/-- The durations and their names, in the order in which they are checked. -/
def durations (settings : Settings) : List (String × Duration) :=
  [("handshake_timeout_ms", settings.handshakeTimeout),
    ("read_timeout_ms", settings.readTimeout),
    ("write_timeout_ms", settings.writeTimeout),
    ("ping_interval_ms", settings.pingInterval),
    ("pong_timeout_ms", settings.pongTimeout),
    ("websocket_handshake_timeout_ms", settings.upgradeTimeout)]

/-- The longest payload whose length a frame can tell. -/
def payloadBound : Nat := 65535

def flaw? (settings : Settings) : Option Flaw :=
  match settings.durations.find? fun (_, duration) => duration = 0 with
  | some (name, _) => some (.noTime name)
  | none =>
    if settings.maxPayload = 0 ∨ payloadBound < settings.maxPayload then
      some (.payloadRange settings.maxPayload)
    else if settings.queueCapacity = 0 then some .noCapacity
    else none

end Settings

namespace Listening

def address? (listening : Listening) : Option Address :=
  Address.ofText? listening.bindAddress

def deviceEndpoint? (listening : Listening) : Option Endpoint :=
  listening.address?.map fun address => ⟨address, listening.devicePort⟩

def browserEndpoint? (listening : Listening) : Option Endpoint :=
  listening.address?.map fun address => ⟨address, listening.browserPort⟩

/-- The first condition that is broken.  Both ports may be zero, because each listener then gets
a free one. -/
def flaw? (listening : Listening) : Option Flaw :=
  if listening.address? = none then some (.badAddress listening.bindAddress)
  else if listening.devicePort ≠ 0 ∧ listening.devicePort = listening.browserPort then
    some (.samePorts listening.devicePort)
  else none

end Listening

namespace Config

def flaw? (config : Config) : Option Flaw :=
  config.listening.flaw?.or config.session.flaw?

/-- The configuration, if it breaks no condition. -/
def validate (config : Config) : Except Flaw Config :=
  match config.flaw? with
  | some flaw => .error flaw
  | none => .ok config

def allowList (config : Config) : AllowList :=
  AllowList.ofEntries (config.devices.map DeviceEntry.uuid)
    (config.stations.map fun entry => (entry.station, entry.name))

end Config

end StationRelay
