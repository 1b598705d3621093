import StationRelay.Outbox
import StationRelay.Reply
import StationRelay.Settings

/-!
# Messages to a browser

A session hands its messages to the sink one at a time.  The sink is away while
a message is being sent, and comes back with the result.  Messages that cannot
be handed over yet wait in the outbox, whose head is the message being sent.
-/

namespace StationRelay

namespace Browser

inductive Breach where
  | invalidRequest
  | oversizeRequest
  deriving DecidableEq

inductive Message where
  | reply (reply : Reply)
  | ping
  /-- The last message of a session that closes itself. -/
  | close (breach : Breach)
  deriving DecidableEq

namespace Breach

/-- The status that the closing message carries. -/
def code : Breach → Nat
  | .invalidRequest => 1008
  | .oversizeRequest => 1009

def reason : Breach → String
  | .invalidRequest => "invalid request"
  | .oversizeRequest => "request too large"

end Breach

structure Sender where
  outbox : Outbox Message
  /-- The message being sent, and by when it must be out. -/
  inFlight : Option (Message × Instant)
  /-- The session has the sink; otherwise the message in flight does. -/
  holdsSink : Bool
  deriving DecidableEq

namespace Sender

def idle : Sender :=
  ⟨Outbox.empty, none, true⟩

/-- Hands the head of the outbox to the sink, unless a message is being sent.  What was handed
over comes second. -/
def dispatch (sender : Sender) (deadline : Instant) : Sender × Option Message :=
  if sender.inFlight.isSome then (sender, none)
  else
    match sender.outbox.head? with
    | none => (sender, none)
    | some message =>
      if sender.holdsSink then
        ({ sender with inFlight := some (message, deadline), holdsSink := false }, some message)
      else (sender, none)

/-- Puts a message into the outbox, and hands it over if it is alone there. -/
def enqueue (sender : Sender) (deadline : Instant) (message : Message) :
    Sender × Option Message :=
  let (outbox, alone) := sender.outbox.push message
  if alone then { sender with outbox }.dispatch deadline else ({ sender with outbox }, none)

def reclaim (sender : Sender) : Sender :=
  { sender with inFlight := none, holdsSink := true }

/-- The message in flight was sent: it leaves the outbox, and the next one is handed over. -/
def complete (sender : Sender) (deadline : Instant) : Sender × Option Message :=
  { sender.reclaim with outbox := sender.outbox.complete }.dispatch deadline

end Sender

end Browser

end StationRelay
