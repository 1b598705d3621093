import StationRelay.Browser.Channel
import StationRelay.Browser.Session

/-!
# Connections of browsers

A connection begins with an upgrade, which must be done within its limit.  From
then on it is a session together with its channel and its wire.  `advance?`
lets the event happen that comes first of those that can happen now.
-/

namespace StationRelay

namespace Browser

inductive Opening where
  | valid
  | invalid
  /-- The beginning of a request, or nothing. -/
  | unfinished
  deriving DecidableEq

inductive Stage where
  /-- The upgrade must be done by the deadline. -/
  | upgrading (opening : Opening) (deadline : Instant)
  /-- The upgrade failed. -/
  | rejected
  | serving (session : Session)
  deriving DecidableEq

structure Connection where
  settings : Settings
  /-- The name the session will have. -/
  name : Uuid
  flag : TransportFlag
  stage : Stage
  channel : Channel
  wire : Wire Incoming
  deriving DecidableEq

namespace Connection

structure Advance where
  hub : Hub
  connection : Connection
  notices : List (Notice Outgoing)

def start (settings : Settings) (now : Instant) (name : Uuid) (flag : TransportFlag)
    (opening : Opening) (wire : Wire Incoming) : Connection :=
  ⟨settings, name, flag, .upgrading opening (now + settings.upgradeTimeout), Channel.fresh, wire⟩

def reject (hub : Hub) (connection : Connection) (error : SessionError) : Advance :=
  ⟨hub, { connection with stage := .rejected }, Notice.ofOutcome (some (some error))⟩

def upgrade (now : Instant) (hub : Hub) (connection : Connection) : Advance :=
  let (hub, session) := Session.start connection.settings now hub connection.name connection.flag
  ⟨hub, { connection with stage := .serving session },
    .got .upgraded :: Notice.ofOutcome session.outcome⟩

/-- What a read meets while the request is unfinished, if it meets anything: more of what is no
request, a fault, or the end. -/
def openingFault? (wire : Wire Incoming) : Option MessageFault :=
  if wire.incoming ≠ [] then some .protocol
  else
    match Channel.readFault? wire with
    | some fault => some (.transport fault)
    | none => if wire.isOver then some .protocol else none

def advanceUpgrade? (now : Instant) (hub : Hub) (connection : Connection) (opening : Opening)
    (deadline : Instant) : Option Advance :=
  let overdue :=
    if deadline ≤ now then
      some (connection.reject hub (.upgradeTimeout connection.settings.upgradeTimeout))
    else none
  match opening with
  | .invalid => some (connection.reject hub (.message .protocol))
  | .unfinished =>
    match openingFault? connection.wire with
    | some fault => some (connection.reject hub (.message fault))
    | none => overdue
  | .valid =>
    match Channel.writeState connection.wire with
    | .failing fault => some (connection.reject hub (.message (.transport fault)))
    | .free => some (connection.upgrade now hub)
    | .blocked => overdue

/-- Lets an event happen to the session; `notices` are seen before what it leads to. -/
def happen (directory : Directory) (now : Instant) (hub : Hub) (connection : Connection)
    (session : Session) (event : Event) (notices : List (Notice Outgoing)) : Advance :=
  let progress := session.step directory now hub event
  ⟨progress.hub,
    { connection with
      stage := .serving progress.session
      channel := progress.handed.foldl Channel.accept connection.channel },
    notices ++ Notice.ofOutcome progress.session.outcome⟩

/-- Sends out what waits in the channel.  The message in flight is out then, too. -/
def flush (directory : Directory) (now : Instant) (hub : Hub) (connection : Connection)
    (session : Session) : Advance :=
  let flushed := { connection with channel := { connection.channel with outgoing := [] } }
  let notices := connection.channel.outgoing.map Notice.got
  if session.sender.inFlight.isSome then flushed.happen directory now hub session .sent notices
  else ⟨hub, flushed, notices⟩

def advanceWrite? (directory : Directory) (now : Instant) (hub : Hub) (connection : Connection)
    (session : Session) : Option Advance :=
  let happen := connection.happen directory now hub session
  if connection.channel.isRefusing then some (happen (.sendFailed .protocol) [])
  else if connection.channel.outgoing = [] then none
  else
    match Channel.writeState connection.wire with
    | .blocked => none
    | .free => some (connection.flush directory now hub session)
    | .failing fault =>
      if session.sender.inFlight.isSome then some (happen (.sendFailed (.transport fault)) [])
      else some (happen (.streamFailed (.transport fault)) [])

def takeMessage (directory : Directory) (now : Instant) (hub : Hub) (connection : Connection)
    (session : Session) (message : Incoming) : Advance :=
  let read := { connection with wire := connection.wire.drop 1 }
  if connection.channel.peerClosed then
    read.happen directory now hub session (.streamFailed .protocol) []
  else
    match message.meaning with
    | .data bytes => read.happen directory now hub session (.data bytes) []
    | .pong => read.happen directory now hub session .pong []
    | .answer reply isClose =>
      { read with channel := read.channel.answer reply isClose }.happen directory now hub session
        .control []
    | .violation => read.happen directory now hub session (.streamFailed .protocol) []

def advanceRead? (directory : Directory) (now : Instant) (hub : Hub) (connection : Connection)
    (session : Session) : Option Advance :=
  let happen := connection.happen directory now hub session
  if connection.channel.peerClosed ∧ connection.channel.outgoing = [] then
    some (happen .streamEnded [])
  else
    match connection.wire.incoming with
    | message :: _ => some (connection.takeMessage directory now hub session message)
    | [] =>
      match Channel.readFault? connection.wire with
      | some fault => some (happen (.streamFailed (.transport fault)) [])
      | none =>
        if connection.wire.isOver then
          if connection.channel.peerClosed then some (happen .streamEnded [])
          else some (happen (.streamFailed .resetWithoutClose) [])
        else none

def timer? (now : Instant) (session : Session) : Option Event :=
  let due (deadline : Option Instant) : Bool := deadline.any (· ≤ now)
  if due (session.sender.inFlight.map Prod.snd) then some .sendOverdue
  else if session.IsOpen ∧ due (session.keepalive.pending.map Prod.fst) then some .keepaliveDue
  else if session.IsOpen ∧ session.buffer ≠ [] ∧ session.readDeadline ≤ now then some .readDue
  else none

/-- What happens next to a session that has not ended: writes before reads, reads before
readings, and timers last. -/
def advanceSession? (directory : Directory) (now : Instant) (hub : Hub) (connection : Connection)
    (session : Session) : Option Advance :=
  let happen := connection.happen directory now hub session
  let read :=
    if session.IsOpen then
      (connection.advanceRead? directory now hub session).or <|
        if (hub.browsers.first? session.link).isSome then some (happen .reading []) else none
    else none
  ((connection.advanceWrite? directory now hub session).or read).or <|
    (timer? now session).map fun event => happen event []

def advance? (directory : Directory) (now : Instant) (hub : Hub) (connection : Connection) :
    Option Advance :=
  match connection.stage with
  | .upgrading opening deadline => connection.advanceUpgrade? now hub opening deadline
  | .rejected => none
  | .serving session =>
    if session.outcome.isSome then none
    else connection.advanceSession? directory now hub session

def deadlines (session : Session) : List Instant :=
  if session.outcome.isSome then []
  else
    (session.sender.inFlight.map Prod.snd).toList ++
      if session.IsOpen then
        (session.keepalive.pending.map Prod.fst).toList ++
          if session.buffer ≠ [] then [session.readDeadline] else []
      else []

def nextDeadline? (connection : Connection) : Option Instant :=
  match connection.stage with
  | .upgrading _ deadline => some deadline
  | .rejected => none
  | .serving session => (deadlines session).min?

end Connection

end Browser

end StationRelay
