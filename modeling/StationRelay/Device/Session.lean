import StationRelay.Device.Protocol
import StationRelay.Keepalive
import StationRelay.SessionError

/-!
# Sessions of devices

A session owns one connection to a device.  It waits for whatever comes first:
bytes, a command, its keepalive, or its limit for silence.  One thing is
handled to its end before it waits again, and while a packet is being written
nothing else is looked at.

`step` says what one event does to the session and to the hub at a given
instant.  An event that cannot happen then, such as a limit that is not due,
changes nothing; of several events that can happen any may come first.
-/

namespace StationRelay

namespace Device

/-- The most bytes that are taken in one read. -/
def readSize : Nat := 1024

/-- What a session does when its write is done. -/
inductive Continuation where
  /-- The greeting went out: the limits for silence begin. -/
  | listen
  /-- Carries out the other actions, then handles the rest of the buffer. -/
  | resume (actions : List Action)
  /-- Waits for what comes next. -/
  | wait
  /-- The ping went out: its answer is waited for. -/
  | awaitPong
  deriving DecidableEq

inductive Phase where
  | waiting
  /-- A packet is being written, and must be out by the deadline. -/
  | writing (packet : Downlink) (deadline : Instant) (next : Continuation)
  | ended (outcome : Outcome)
  deriving DecidableEq

structure Session where
  settings : Settings
  /-- The link of this session in the hub. -/
  link : LinkId
  engine : Engine
  /-- What was read and not yet handled. -/
  buffer : Bytes
  keepalive : Keepalive
  /-- By when a device that is not yet accepted must be. -/
  handshakeDeadline : Instant
  /-- By when an accepted device must be heard from. -/
  readDeadline : Instant
  phase : Phase
  deriving DecidableEq

inductive Event where
  /-- A read gave these bytes; no bytes at all are the end of the stream. -/
  | read (bytes : Bytes)
  | readFailed (fault : TransportFault)
  /-- The oldest command in the mailbox is taken out. -/
  | command
  | keepaliveDue
  /-- The limit for silence is reached. -/
  | idleDue
  | written
  | writeFailed (fault : TransportFault)
  | writeOverdue
  deriving DecidableEq

namespace Session

/-- The deadline of the limit for silence that is in force. -/
def idleDeadline (session : Session) : Instant :=
  if session.engine.IsAuthenticated then session.readDeadline else session.handshakeDeadline

def idleError (session : Session) : SessionError :=
  if session.engine.IsAuthenticated then .readTimeout session.settings.readTimeout
  else .handshakeTimeout session.settings.handshakeTimeout

def outcome? (session : Session) : Option Outcome :=
  match session.phase with
  | .ended outcome => some outcome
  | _ => none

def write (session : Session) (now : Instant) (packet : Downlink) (next : Continuation) :
    Session :=
  { session with phase := .writing packet (now + session.settings.writeTimeout) next }

/-- A session over a connection that was just made begins by greeting the device. -/
def start (settings : Settings) (now : Instant) (hub : Hub) : Hub × Session :=
  let session : Session :=
    { settings
      link := hub.devices.nextId
      engine := Engine.ofLink hub.devices.nextId
      buffer := []
      keepalive := Keepalive.stopped settings.pingInterval settings.pongTimeout
      handshakeDeadline := now + settings.handshakeTimeout
      readDeadline := now + settings.readTimeout
      phase := .waiting }
  ({ hub with devices := hub.devices.create settings.queueCapacity },
    session.write now .greeting .listen)

/-- Ends the session: its station is given up, and its mailbox and link go away. -/
def finish (hub : Hub) (session : Session) (outcome : Outcome) : Hub × Session :=
  let (hub, engine) := close hub session.engine
  ({ hub with devices := (hub.devices.release session.link).closeMailbox session.link },
    { session with engine, keepalive := session.keepalive.stop, phase := .ended outcome })

/-- Carries out actions up to the first that writes: the keepalive after them, and the packet to
write with the actions behind it. -/
def perform (now : Instant) (keepalive : Keepalive) :
    List Action → Keepalive × Option (Downlink × List Action)
  | [] => (keepalive, none)
  | .send packet :: rest => (keepalive, some (packet, rest))
  | .startKeepalive :: rest => perform now (keepalive.start now) rest
  | .pongReceived :: rest => perform now (keepalive.pongReceived now) rest

def advance (session : Session) (handled : Handled) : Session :=
  { session with
    engine := handled.engine.takeActions
    buffer := session.buffer.drop handled.consumed }

theorem length_advance_lt {directory : Directory} {hub : Hub} {session : Session}
    (good : (handle directory hub session.engine session.buffer).verdict = .good) :
    (session.advance (handle directory hub session.engine session.buffer)).buffer.length <
      session.buffer.length := by
  have consumed := consumed_of_good good
  simp only [advance, List.length_drop]
  omega

/-- Handles the packets in the buffer one after another, until a packet has to be written, what
is left is incomplete, or a packet breaks the protocol. -/
def drain (directory : Directory) (now : Instant) (hub : Hub) (session : Session) :
    Hub × Session :=
  if nonempty : session.buffer ≠ [] then
    let handled := handle directory hub session.engine session.buffer
    if good : handled.verdict = .good then
      have _shorter := session.length_advance_lt good
      match perform now session.keepalive handled.engine.actions with
      | (keepalive, some (packet, rest)) =>
        (handled.hub,
          { session.advance handled with keepalive }.write now packet (.resume rest))
      | (keepalive, none) =>
        drain directory now handled.hub { session.advance handled with keepalive }
    else if handled.verdict = .indeterminate then (hub, { session with phase := .waiting })
    else finish hub session (some (.badPacket (session.buffer.head nonempty)))
  else (hub, { session with phase := .waiting })
termination_by session.buffer.length
decreasing_by exact _shorter

def proceed (directory : Directory) (now : Instant) (hub : Hub) (session : Session) :
    Continuation → Hub × Session
  | .listen =>
    (hub, { session with
      handshakeDeadline := now + session.settings.handshakeTimeout
      readDeadline := now + session.settings.readTimeout
      phase := .waiting })
  | .resume actions =>
    match perform now session.keepalive actions with
    | (keepalive, some (packet, rest)) =>
      (hub, { session with keepalive }.write now packet (.resume rest))
    | (keepalive, none) => drain directory now hub { session with keepalive }
  | .wait => (hub, { session with phase := .waiting })
  | .awaitPong =>
    (hub, { session with keepalive := session.keepalive.pingSent now, phase := .waiting })

def receive (directory : Directory) (now : Instant) (hub : Hub) (session : Session)
    (bytes : Bytes) : Hub × Session :=
  if bytes = [] then finish hub session none
  else
    drain directory now hub { session with
      buffer := session.buffer ++ bytes
      readDeadline := now + session.settings.readTimeout }

def takeCommand (now : Instant) (hub : Hub) (session : Session) : Hub × Session :=
  match hub.devices.first? session.link with
  | some command =>
    ({ hub with devices := hub.devices.take session.link },
      session.write now (.request command.session command.flag) .wait)
  | none => (hub, session)

def onKeepalive (now : Instant) (hub : Hub) (session : Session) : Hub × Session :=
  match session.keepalive.pending with
  | some (deadline, timer) =>
    if deadline ≤ now then
      match timer with
      | .ping => (hub, session.write now .ping .awaitPong)
      | .pongTimeout => finish hub session (some (.pongTimeout session.settings.pongTimeout))
    else (hub, session)
  | none => (hub, session)

def step (directory : Directory) (now : Instant) (hub : Hub) (session : Session)
    (event : Event) : Hub × Session :=
  match session.phase, event with
  | .waiting, .read bytes => receive directory now hub session bytes
  | .waiting, .readFailed fault => finish hub session (some (.transport fault))
  | .waiting, .command => takeCommand now hub session
  | .waiting, .keepaliveDue => onKeepalive now hub session
  | .waiting, .idleDue =>
    if session.idleDeadline ≤ now then finish hub session (some session.idleError)
    else (hub, session)
  | .writing _ _ next, .written => proceed directory now hub session next
  | .writing .., .writeFailed fault => finish hub session (some (.transport fault))
  | .writing _ deadline _, .writeOverdue =>
    if deadline ≤ now then finish hub session (some (.writeTimeout session.settings.writeTimeout))
    else (hub, session)
  | _, _ => (hub, session)

def emitted? (session : Session) (event : Event) : Option Downlink :=
  match session.phase, event with
  | .writing packet _ _, .written => some packet
  | _, _ => none

end Session

end Device

end StationRelay
