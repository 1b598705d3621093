import StationRelay.Browser.Sender
import StationRelay.Json.Text
import StationRelay.Wire

/-!
# Channels

A channel carries whole messages between a session and the wire of a browser.
It answers two kinds of message by itself: a ping by a pong with the same
bytes, and a close by the same close.  What it is given to send goes out in
order, as soon as the wire lets it.
-/

namespace StationRelay

namespace Browser

inductive Incoming where
  | binary (bytes : Bytes)
  | text (bytes : Bytes)
  | ping (bytes : Bytes)
  | pong (bytes : Bytes)
  /-- A close may carry a status and the bytes of a reason. -/
  | close (status : Option (Nat × Bytes))
  /-- Something that is no message at all. -/
  | malformed
  deriving DecidableEq

inductive Outgoing where
  /-- The connection was upgraded. -/
  | upgraded
  | text (text : String)
  | ping
  | pong (bytes : Bytes)
  | close (status : Option (Nat × String))
  deriving DecidableEq

namespace Outgoing

def ofMessage : Message → Outgoing
  | .reply reply => .text reply.toText
  | .ping => .ping
  | .close breach => .close (some (breach.code, breach.reason))

end Outgoing

inductive Meaning where
  | data (bytes : Bytes)
  | pong
  /-- The channel answers by itself; a close leaves it without further messages. -/
  | answer (reply : Outgoing) (isClose : Bool)
  /-- It breaks the rules. -/
  | violation
  deriving DecidableEq

/-- The longest content of a ping, a pong or a close. -/
def maxControl : Nat := 125

def IsAllowedStatus (code : Nat) : Prop :=
  (1000 ≤ code ∧ code ≤ 1013 ∧ code ≠ 1004 ∧ code ≠ 1005 ∧ code ≠ 1006) ∨
    (3000 ≤ code ∧ code ≤ 4999)

instance (code : Nat) : Decidable (IsAllowedStatus code) :=
  inferInstanceAs (Decidable (_ ∨ _))

namespace Incoming

/-- The answer to a close: the same close, or a complaint about its status. -/
def closeAnswer (code : Nat) (reason : String) : Outgoing :=
  if IsAllowedStatus code then .close (some (code, reason))
  else .close (some (1002, "Protocol violation"))

def meaning : Incoming → Meaning
  | .binary bytes => .data bytes
  | .text bytes => if (Json.ofUtf8? bytes).isSome then .data bytes else .violation
  | .ping bytes => if bytes.length ≤ maxControl then .answer (.pong bytes) false else .violation
  | .pong bytes => if bytes.length ≤ maxControl then .pong else .violation
  | .close none => .answer (.close none) true
  | .close (some (code, bytes)) =>
    if maxControl < 2 + bytes.length then .violation
    else
      match Json.ofUtf8? bytes with
      | some reason => .answer (closeAnswer code reason) true
      | none => .violation
  | .malformed => .violation

end Incoming

structure Channel where
  /-- What was given to be sent and is not yet out. -/
  outgoing : List Outgoing
  /-- The browser has closed its side. -/
  peerClosed : Bool
  /-- A message was given after the browser had closed. -/
  isRefusing : Bool
  deriving DecidableEq

namespace Channel

def fresh : Channel :=
  ⟨[], false, false⟩

def accept (channel : Channel) (message : Message) : Channel :=
  if channel.peerClosed then { channel with isRefusing := true }
  else { channel with outgoing := channel.outgoing ++ [Outgoing.ofMessage message] }

def answer (channel : Channel) (reply : Outgoing) (isClose : Bool) : Channel :=
  { channel with outgoing := channel.outgoing ++ [reply], peerClosed := isClose }

/-- What becomes of a write at the moment.  A wire that cannot write now and will not say when
it can blocks the channel for good. -/
def writeState (wire : Wire Incoming) : WriteState :=
  match wire.writeState with
  | .failing .wouldBlock => .blocked
  | state => state

def readFault? (wire : Wire Incoming) : Option TransportFault :=
  wire.readFault.filter (· ≠ .wouldBlock)

end Channel

end Browser

end StationRelay
