import StationRelay.Settings
import StationRelay.Uuid

/-!
# Why a session ends

A session ends well, or for one of the causes below.  A cause is benign when it
is an ordinary way for a peer to go away.
-/

namespace StationRelay

inductive TransportFault where
  | unexpectedEnd
  | connectionReset
  | connectionAborted
  | brokenPipe
  /-- The operation cannot be done now, and nothing will say when it can. -/
  | wouldBlock
  /-- Any other failure, by its name. -/
  | other (name : String)
  deriving DecidableEq

namespace TransportFault

def isDisconnect : TransportFault → Bool
  | .unexpectedEnd | .connectionReset | .connectionAborted | .brokenPipe => true
  | .wouldBlock | .other _ => false

end TransportFault

/-- A failure of the message layer between a browser and its transport. -/
inductive MessageFault where
  | connectionClosed
  | alreadyClosed
  /-- The stream ended before either side had closed it. -/
  | resetWithoutClose
  | transport (fault : TransportFault)
  /-- The peer broke the rules of the layer, or something was sent after the close. -/
  | protocol
  deriving DecidableEq

namespace MessageFault

def isDisconnect : MessageFault → Bool
  | .connectionClosed | .alreadyClosed | .resetWithoutClose => true
  | .transport fault => fault.isDisconnect
  | .protocol => false

end MessageFault

inductive SessionError where
  | transport (fault : TransportFault)
  | message (fault : MessageFault)
  | upgradeTimeout (limit : Duration)
  | handshakeTimeout (limit : Duration)
  | readTimeout (limit : Duration)
  | writeTimeout (limit : Duration)
  | pongTimeout (limit : Duration)
  /-- A device sent what is no packet, or a packet out of turn. -/
  | badPacket (tag : UInt8)
  | badRequest
  | payloadTooBig (limit : Nat)
  | duplicateSession (session : Uuid)
  deriving DecidableEq

namespace SessionError

/-- An ordinary way for a peer to go away. -/
def isBenign : SessionError → Bool
  | .transport fault => fault.isDisconnect
  | .message fault => fault.isDisconnect
  | _ => false

/-- What is said of the error; faults of the transport and of the message layer speak for
themselves. -/
def message? : SessionError → Option String
  | .transport _ => none
  | .message _ => none
  | .upgradeTimeout limit =>
    some ("WebSocket upgrade did not complete within " ++ Duration.toText limit)
  | .handshakeTimeout limit =>
    some ("device did not authenticate within " ++ Duration.toText limit)
  | .readTimeout limit => some ("peer sent nothing for " ++ Duration.toText limit)
  | .writeTimeout limit => some ("write did not complete within " ++ Duration.toText limit)
  | .pongTimeout limit => some ("peer did not answer ping within " ++ Duration.toText limit)
  | .badPacket tag => some ("protocol violation in device packet with tag " ++ Hex.byteText tag)
  | .badRequest => some "invalid browser request"
  | .payloadTooBig limit => some s!"browser request larger than {limit} bytes"
  | .duplicateSession session =>
    some ("browser session id " ++ session.toText ++ " is already registered")

end SessionError

/-- How a session ended: well, or for a cause. -/
abbrev Outcome := Option SessionError

end StationRelay
