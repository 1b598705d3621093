import StationRelay.Config

/-!
# Listeners

The relay listens at two endpoints, first the one for devices and then the one
for browsers.  It starts only if it can bind both.
-/

namespace StationRelay

inductive ListenerKind where
  | device
  | browser
  deriving DecidableEq

inductive BindError where
  /-- The address of the configuration is none. -/
  | invalid (flaw : Flaw)
  /-- Nothing can be bound to the endpoint. -/
  | taken (kind : ListenerKind) (endpoint : Endpoint)
  deriving DecidableEq

namespace ListenerKind

def name : ListenerKind → String
  | .device => "device"
  | .browser => "browser"

end ListenerKind

namespace BindError

/-- What is said of a listener that cannot be bound; the endpoint is given as a text. -/
def takenMessage (kind : ListenerKind) (endpoint : String) : String :=
  "failed to bind " ++ kind.name ++ " listener on " ++ endpoint

def message : BindError → String
  | .invalid flaw => flaw.message
  | .taken kind endpoint => takenMessage kind endpoint.toText

end BindError

namespace Listening

def endpoint? (listening : Listening) : ListenerKind → Option Endpoint
  | .device => listening.deviceEndpoint?
  | .browser => listening.browserEndpoint?

/-- Binds both listeners; `canBind` says which endpoints are free. -/
def bind (listening : Listening) (canBind : ListenerKind → Endpoint → Bool) :
    Except BindError (Endpoint × Endpoint) :=
  match listening.deviceEndpoint?, listening.browserEndpoint? with
  | some device, some browser =>
    if canBind .device device = false then .error (.taken .device device)
    else if canBind .browser browser = false then .error (.taken .browser browser)
    else .ok (device, browser)
  | _, _ => .error (.invalid (.badAddress listening.bindAddress))

end Listening

end StationRelay
