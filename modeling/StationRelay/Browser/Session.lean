import StationRelay.Browser.Protocol
import StationRelay.Browser.Sender
import StationRelay.Keepalive
import StationRelay.SessionError

/-!
# Sessions of browsers

A session owns one connection to a browser, over which whole messages travel.
The bytes of the browser's messages form one stream of framed requests, and the
borders between the messages mean nothing.  A request that is malformed or too
long makes the session close itself: it reads nothing more, and ends when the
replies that wait and the closing message are out.

`step` says what one event does to the session and to the hub at a given
instant.  An event that cannot happen then changes nothing; of several events
that can happen any may come first.
-/

namespace StationRelay

namespace Browser

structure Session where
  settings : Settings
  /-- The link of this session in the hub. -/
  link : LinkId
  engine : Engine
  /-- What was received and not yet handled. -/
  buffer : Bytes
  /-- By when the request in the buffer must grow; it says nothing while the buffer is empty. -/
  readDeadline : Instant
  sender : Sender
  keepalive : Keepalive
  /-- Why the session closes itself, once the closing message is in the outbox. -/
  closing : Option Breach
  /-- How the session ended, if it has. -/
  outcome : Option Outcome
  deriving DecidableEq

inductive Event where
  /-- A message with these bytes came in. -/
  | data (bytes : Bytes)
  | pong
  /-- A message came in that the message layer answers by itself: a ping, or a close. -/
  | control
  | streamEnded
  | streamFailed (fault : MessageFault)
  /-- The oldest reading in the mailbox is taken out. -/
  | reading
  | sent
  | sendFailed (fault : MessageFault)
  | sendOverdue
  | keepaliveDue
  /-- The limit for an incomplete request is reached. -/
  | readDue
  deriving DecidableEq

structure Progress where
  hub : Hub
  session : Session
  /-- The messages put into the outbox, in order. -/
  enqueued : List Message
  /-- The messages handed to the sink, in order. -/
  handed : List Message

namespace Breach

/-- The error that a session ends with after closing itself. -/
def error (settings : Settings) : Breach → SessionError
  | .invalidRequest => .badRequest
  | .oversizeRequest => .payloadTooBig settings.maxPayload

end Breach

namespace Session

def IsOpen (session : Session) : Prop :=
  session.outcome = none ∧ session.closing = none

instance (session : Session) : Decidable session.IsOpen :=
  inferInstanceAs (Decidable (_ ∧ _))

def sendDeadline (session : Session) (now : Instant) : Instant :=
  now + session.settings.writeTimeout

/-- A session that begins registers itself; one whose name is taken ends at once. -/
def start (settings : Settings) (now : Instant) (hub : Hub) (name : Uuid)
    (flag : TransportFlag) : Hub × Session :=
  let link := hub.browsers.nextId
  let linked := { hub with browsers := hub.browsers.create settings.queueCapacity }
  let session : Session :=
    { settings
      link
      engine := ⟨name, flag, settings.maxPayload, []⟩
      buffer := []
      readDeadline := now
      sender := Sender.idle
      keepalive := (Keepalive.stopped settings.pingInterval settings.pongTimeout).start now
      closing := none
      outcome := none }
  match linked.joinBrowser name ⟨link, link⟩ with
  | (joined, true) => (joined, session)
  | (_, false) =>
    ({ linked with browsers := (linked.browsers.release link).closeMailbox link },
      { session with outcome := some (some (.duplicateSession name)) })

/-- Ends the session: its registration, its mailbox and its link go away. -/
def finish (hub : Hub) (session : Session) (outcome : Outcome) : Hub × Session :=
  let left := hub.leaveBrowser session.engine.session
  ({ left with browsers := (left.browsers.release session.link).closeMailbox session.link },
    { session with outcome := some outcome })

end Session

namespace Progress

def of (hub : Hub) (session : Session) : Progress :=
  ⟨hub, session, [], []⟩

def finish (progress : Progress) (outcome : Outcome) : Progress :=
  let (hub, session) := progress.session.finish progress.hub outcome
  { progress with hub, session }

def enqueue (now : Instant) (progress : Progress) (message : Message) : Progress :=
  let session := progress.session
  let (sender, handed) := session.sender.enqueue (session.sendDeadline now) message
  { progress with
    session := { session with sender }
    enqueued := progress.enqueued ++ [message]
    handed := progress.handed ++ handed.toList }

def enqueueReplies (now : Instant) (progress : Progress) (replies : List Reply) : Progress :=
  replies.foldl (fun current reply => current.enqueue now (.reply reply)) progress

def beginClose (now : Instant) (progress : Progress) (breach : Breach) : Progress :=
  let cleared := { progress with session := { progress.session with buffer := [] } }
  let sending := cleared.enqueue now (.close breach)
  { sending with session := { sending.session with closing := some breach } }

/-- The state after a good request, before its replies are sent. -/
def advance (progress : Progress) (handled : Handled) : Progress :=
  { progress with
    hub := handled.hub
    session := { progress.session with
      engine := handled.engine.takeReplies
      buffer := progress.session.buffer.drop handled.consumed } }

@[simp] theorem buffer_enqueueReplies (now : Instant) (progress : Progress)
    (replies : List Reply) :
    (progress.enqueueReplies now replies).session.buffer = progress.session.buffer := by
  induction replies generalizing progress with
  | nil => rfl
  | cons reply rest ih => exact ih (progress.enqueue now (.reply reply))

theorem length_advance_lt {directory : Directory} {progress : Progress}
    (good : (handle directory progress.hub progress.session.engine
      progress.session.buffer).verdict = .good) :
    (progress.advance (handle directory progress.hub progress.session.engine
      progress.session.buffer)).session.buffer.length < progress.session.buffer.length := by
  have consumed := consumed_of_good good
  simp only [advance, List.length_drop, Frame.headerSize] at *
  omega

/-- Handles the requests in the buffer one after another, until what is left is incomplete or a
request makes the session close itself. -/
def drain (directory : Directory) (now : Instant) (progress : Progress) : Progress :=
  if progress.session.buffer ≠ [] then
    let handled :=
      handle directory progress.hub progress.session.engine progress.session.buffer
    if good : handled.verdict = .good then
      have _shorter := progress.length_advance_lt good
      drain directory now ((progress.advance handled).enqueueReplies now handled.engine.replies)
    else if handled.verdict = .indeterminate then progress
    else if handled.verdict = .oversize then progress.beginClose now .oversizeRequest
    else progress.beginClose now .invalidRequest
  else progress
termination_by progress.session.buffer.length
decreasing_by simpa using _shorter

/-- Takes in the bytes of a message; a message without bytes changes nothing. -/
def feed (directory : Directory) (now : Instant) (progress : Progress) (bytes : Bytes) :
    Progress :=
  if bytes = [] then progress
  else
    let session := progress.session
    drain directory now { progress with
      session := { session with
        buffer := session.buffer ++ bytes
        readDeadline := now + session.settings.readTimeout } }

def takeReading (now : Instant) (progress : Progress) : Progress :=
  let link := progress.session.link
  match progress.hub.browsers.first? link with
  | some reading =>
    let hub := { progress.hub with browsers := progress.hub.browsers.take link }
    { progress with hub }.enqueue now (.reply (.reading reading))
  | none => progress

def onKeepalive (now : Instant) (progress : Progress) : Progress :=
  let session := progress.session
  match session.keepalive.pending with
  | some (deadline, timer) =>
    if deadline ≤ now then
      match timer with
      | .ping =>
        let sending := progress.enqueue now .ping
        { sending with session := { sending.session with
          keepalive := session.keepalive.pingSent now } }
      | .pongTimeout => progress.finish (some (.pongTimeout session.settings.pongTimeout))
    else progress
  | none => progress

def onSent (now : Instant) (progress : Progress) : Progress :=
  let session := progress.session
  let (sender, handed) := session.sender.complete (session.sendDeadline now)
  { progress with
    session := { session with sender }
    handed := progress.handed ++ handed.toList }

/-- The send in flight failed: the sink is back, and the session ends. -/
def onSendFailed (progress : Progress) (error : SessionError) : Progress :=
  let session := progress.session
  { progress with session := { session with sender := session.sender.reclaim } }.finish (some error)

/-- A session that closes itself ends once everything is out. -/
def conclude (progress : Progress) : Progress :=
  match progress.session.outcome, progress.session.closing with
  | none, some breach =>
    if progress.session.sender.outbox.isEmpty then
      progress.finish (some (breach.error progress.session.settings))
    else progress
  | _, _ => progress

end Progress

namespace Session

def onOpen (directory : Directory) (now : Instant) (progress : Progress) : Event → Progress
  | .data bytes => progress.feed directory now bytes
  | .pong =>
    let session := progress.session
    { progress with session := { session with keepalive := session.keepalive.pongReceived now } }
  | .streamEnded => progress.finish none
  | .streamFailed fault => progress.finish (some (.message fault))
  | .reading => progress.takeReading now
  | .keepaliveDue => progress.onKeepalive now
  | .readDue =>
    let session := progress.session
    if session.buffer ≠ [] ∧ session.readDeadline ≤ now then
      progress.finish (some (.readTimeout session.settings.readTimeout))
    else progress
  | _ => progress

def onSend (now : Instant) (progress : Progress) (deadline : Instant) : Event → Progress
  | .sent => progress.onSent now
  | .sendFailed fault => progress.onSendFailed (.message fault)
  | .sendOverdue =>
    if deadline ≤ now then
      progress.onSendFailed (.writeTimeout progress.session.settings.writeTimeout)
    else progress
  | _ => progress

def step (directory : Directory) (now : Instant) (hub : Hub) (session : Session)
    (event : Event) : Progress :=
  let progress := Progress.of hub session
  if session.outcome.isSome then progress
  else
    match event with
    | .sent | .sendFailed _ | .sendOverdue =>
      match session.sender.inFlight with
      | some (_, deadline) => (onSend now progress deadline event).conclude
      | none => progress
    | _ => if session.IsOpen then (onOpen directory now progress event).conclude else progress

end Session

end Browser

end StationRelay
