import StationRelay.Device.Session
import StationRelay.Wire

/-!
# Connections of devices

A connection is a session together with its wire.  `nextEvent?` chooses, of the
events that can happen now, the one that comes first, and `advance?` lets it
happen.
-/

namespace StationRelay

namespace Device

structure Connection where
  session : Session
  wire : Wire UInt8
  deriving DecidableEq

namespace Connection

def read? (wire : Wire UInt8) : Option Event :=
  if wire.incoming ≠ [] then some (.read (wire.incoming.take readSize))
  else
    match wire.readFault with
    | some fault => some (.readFailed fault)
    | none => if wire.isOver then some (.read []) else none

def write? (now : Instant) (wire : Wire UInt8) (deadline : Instant) : Option Event :=
  match wire.writeState with
  | .failing fault => some (.writeFailed fault)
  | .free => some .written
  | .blocked => if deadline ≤ now then some .writeOverdue else none

def timer? (now : Instant) (session : Session) : Option Event :=
  match session.keepalive.pending with
  | some (deadline, _) =>
    if deadline ≤ now then some .keepaliveDue
    else if session.idleDeadline ≤ now then some .idleDue
    else none
  | none => if session.idleDeadline ≤ now then some .idleDue else none

/-- The event that comes next, if one can happen.  A session that finds several takes any of them;
here a timer that is due comes before a read, and a read before a command. -/
def nextEvent? (now : Instant) (hub : Hub) (connection : Connection) : Option Event :=
  let session := connection.session
  match session.phase with
  | .ended _ => none
  | .writing _ deadline _ => write? now connection.wire deadline
  | .waiting =>
    (timer? now session).or <| (read? connection.wire).or <|
      if (hub.devices.first? session.link).isSome then some .command else none

def afterEvent (wire : Wire UInt8) : Event → Wire UInt8
  | .read bytes => wire.drop bytes.length
  | _ => wire

def advance? (directory : Directory) (now : Instant) (hub : Hub) (connection : Connection) :
    Option (Hub × Connection × List (Notice Downlink)) :=
  (connection.nextEvent? now hub).map fun event =>
    let session := connection.session
    let (hub, stepped) := session.step directory now hub event
    (hub, ⟨stepped, afterEvent connection.wire event⟩,
      ((session.emitted? event).map Notice.got).toList ++ Notice.ofOutcome stepped.outcome?)

def nextDeadline? (connection : Connection) : Option Instant :=
  let session := connection.session
  match session.phase with
  | .ended _ => none
  | .writing _ deadline _ => some deadline
  | .waiting =>
    match session.keepalive.pending with
    | some (deadline, _) => some (min deadline session.idleDeadline)
    | none => some session.idleDeadline

end Connection

end Device

end StationRelay
