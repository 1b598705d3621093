import StationRelay.Browser.Connection
import StationRelay.Device.Connection

/-!
# Relays

A relay is a hub with the connections of all devices and browsers, and a clock.
After everything that comes from outside, the connections are advanced until
nothing more can happen; only waiting moves the clock, and it stops at every
deadline on the way.
-/

namespace StationRelay

inductive Connection where
  | device (connection : Device.Connection)
  | browser (connection : Browser.Connection)
  deriving DecidableEq

def Connection.nextDeadline? : Connection → Option Instant
  | .device connection => connection.nextDeadline?
  | .browser connection => connection.nextDeadline?

inductive Sent where
  | packet (packet : Downlink)
  | message (message : Browser.Outgoing)
  deriving DecidableEq

/-! ## How much can still happen

What happens to a connection takes up a byte, a message, an item of a mailbox, a
timer or a write, and may leave others behind: of a report a reading is left, and
of a reading a message.  Each weighs more than what it can leave, so that the load
falls with every advance.
-/

def total {α : Type} (weight : α → Nat) : List α → Nat
  | [] => 0
  | item :: rest => weight item + total weight rest

/-- The number of items in all mailboxes. -/
def Links.load {α : Type} (links : Links α) : Nat :=
  total (fun link => link.mailbox.items.length) links.table

def Hub.load (hub : Hub) : Nat :=
  2 * hub.devices.load + 3 * hub.browsers.load

def Keepalive.load (keepalive : Keepalive) : Nat :=
  match keepalive.pending with
  | some (_, .ping) => 3
  | _ => 0

/-- A ping that goes out leaves only the deadline of its answer. -/
def Device.Continuation.load (keepalive : Keepalive) : Device.Continuation → Nat
  | .listen => keepalive.load
  | .resume actions => keepalive.load + 3 * actions.length
  | .wait => keepalive.load
  | .awaitPong => 0

def Device.Phase.load (keepalive : Keepalive) : Device.Phase → Nat
  | .waiting => keepalive.load + 1
  | .writing _ _ next => next.load keepalive + 2
  | .ended _ => 0

/-- What is recorded or read, and not yet acted on. -/
def Device.Session.backlog (session : Device.Session) : Nat :=
  3 * session.engine.actions.length + 6 * session.buffer.length

def Device.Session.load (session : Device.Session) : Nat :=
  session.backlog + session.phase.load session.keepalive

def Device.Connection.load (connection : Device.Connection) : Nat :=
  connection.session.load + 7 * connection.wire.incoming.length

def Browser.Session.load (session : Browser.Session) : Nat :=
  2 * session.engine.replies.length + 2 * session.buffer.length + session.sender.outbox.size
    + session.keepalive.load + session.outcome.elim 1 fun _ => 0

def Browser.Stage.load : Browser.Stage → Nat
  | .upgrading .. => 5
  | .rejected => 0
  | .serving session => session.load

def Browser.Incoming.load : Browser.Incoming → Nat
  | .binary bytes => 2 * bytes.length + 4
  | .text bytes => 2 * bytes.length + 4
  | _ => 4

def Browser.Connection.load (connection : Browser.Connection) : Nat :=
  connection.stage.load + connection.channel.outgoing.length
    + total Browser.Incoming.load connection.wire.incoming

def Connection.load : Connection → Nat
  | .device connection => connection.load
  | .browser connection => connection.load

structure Sighting where
  connection : Nat
  time : Instant
  notice : Notice Sent

structure Relay where
  directory : Directory
  settings : Settings
  hub : Hub
  now : Instant
  connections : List Connection
  /-- What was seen, latest first. -/
  sightings : List Sighting

namespace Relay

def start (directory : Directory) (settings : Settings) : Relay :=
  ⟨directory, settings, Hub.empty, 0, [], []⟩

/-- Puts a connection in the place of another, and adds what was seen of it. -/
def update (relay : Relay) (index : Nat) (hub : Hub) (connection : Connection)
    (notices : List (Notice Sent)) : Relay :=
  let seen := notices.map fun notice => ⟨index, relay.now, notice⟩
  { relay with
    hub
    connections := relay.connections.set index connection
    sightings := seen.reverse ++ relay.sightings }

def advance? (relay : Relay) (index : Nat) : Option Relay :=
  match relay.connections[index]? with
  | none => none
  | some (.device connection) =>
    (connection.advance? relay.directory relay.now relay.hub).map fun (hub, stepped, notices) =>
      relay.update index hub (.device stepped) (notices.map (Notice.map .packet))
  | some (.browser connection) =>
    (connection.advance? relay.directory relay.now relay.hub).map fun advance =>
      relay.update index advance.hub (.browser advance.connection)
        (advance.notices.map (Notice.map .message))

/-! ## Settling -/

def load (relay : Relay) : Nat :=
  relay.hub.load + total Connection.load relay.connections

/-- Advances one connection until nothing more can happen to it, at most so many times. -/
def exhaust (index : Nat) : Nat → Relay → Relay
  | 0, relay => relay
  | bound + 1, relay =>
    match relay.advance? index with
    | some advanced => exhaust index bound advanced
    | none => relay

def exhaustEach (bound : Nat) : List Nat → Relay → Relay
  | [], relay => relay
  | index :: rest, relay => exhaustEach bound rest (exhaust index bound relay)

/-- Advances every connection in turn until nothing more can happen to it. -/
def round (bound : Nat) (relay : Relay) : Relay :=
  exhaustEach bound (List.range relay.connections.length) relay

def isBusy (relay : Relay) : Bool :=
  (List.range relay.connections.length).any fun index => (relay.advance? index).isSome

/-- Makes rounds until nothing more can happen, at most so many. -/
def settleWithin (bound : Nat) : Nat → Relay → Relay
  | 0, relay => relay
  | rounds + 1, relay =>
    if relay.isBusy then settleWithin bound rounds (relay.round bound) else relay

/-- Lets everything happen that can happen now.  Every round lowers the load. -/
def settle (relay : Relay) : Relay :=
  settleWithin relay.load relay.load relay

/-! ## What comes from outside -/

def connect (relay : Relay) (hub : Hub) (connection : Connection) : Relay :=
  { relay with hub, connections := relay.connections ++ [connection] }.settle

def connectDevice (relay : Relay) (isStalled : Bool) : Relay :=
  let (hub, session) := Device.Session.start relay.settings relay.now relay.hub
  relay.connect hub (.device ⟨session, { isStalled }⟩)

/-- A browser connects; if its upgrade succeeds its session has this name. -/
def connectBrowser (relay : Relay) (name : Uuid) (flag : TransportFlag)
    (opening : Browser.Opening) (isOver isStalled : Bool) : Relay :=
  relay.connect relay.hub
    (.browser (.start relay.settings relay.now name flag opening { isOver, isStalled }))

def modify (relay : Relay) (index : Nat) (change : Connection → Connection) : Relay :=
  { relay with connections := relay.connections.modify index change }.settle

def sendBytes (relay : Relay) (index : Nat) (bytes : Bytes) : Relay :=
  relay.modify index fun
    | .device connection => .device { connection with wire := connection.wire.send bytes }
    | other => other

def sendMessage (relay : Relay) (index : Nat) (message : Browser.Incoming) : Relay :=
  relay.modify index fun
    | .browser connection => .browser { connection with wire := connection.wire.send [message] }
    | other => other

def endStream (relay : Relay) (index : Nat) : Relay :=
  relay.modify index fun
    | .device connection => .device { connection with wire.isOver := true }
    | .browser connection => .browser { connection with wire.isOver := true }

def failReads (relay : Relay) (index : Nat) (fault : TransportFault) : Relay :=
  relay.modify index fun
    | .device connection => .device { connection with wire.readFault := some fault }
    | .browser connection => .browser { connection with wire.readFault := some fault }

def failWrites (relay : Relay) (index : Nat) (fault : TransportFault) : Relay :=
  relay.modify index fun
    | .device connection => .device { connection with wire.writeFault := some fault }
    | .browser connection => .browser { connection with wire.writeFault := some fault }

/-- Writes of a connection wait from now on, or wait no longer. -/
def setStalled (relay : Relay) (index : Nat) (isStalled : Bool) : Relay :=
  relay.modify index fun
    | .device connection => .device { connection with wire.isStalled := isStalled }
    | .browser connection => .browser { connection with wire.isStalled := isStalled }

/-! ## Time -/

/-- The earliest instant at which a timer does something. -/
def nextDeadline? (relay : Relay) : Option Instant :=
  (relay.connections.filterMap Connection.nextDeadline?).min?

def atInstant (relay : Relay) (instant : Instant) : Relay :=
  { relay with now := instant }

/-- Waits until an instant, stopping at most so many times on the way. -/
def waitWithin (until_ : Instant) : Nat → Relay → Relay
  | 0, relay => relay.atInstant until_
  | stops + 1, relay =>
    match relay.nextDeadline? with
    | none => relay.atInstant until_
    | some deadline =>
      if until_ < deadline then relay.atInstant until_
      else waitWithin until_ stops (relay.atInstant (max relay.now deadline)).settle

/-- Lets time pass.  Every timer acts at its own deadline, and every stop lowers the load. -/
def wait (relay : Relay) (duration : Duration) : Relay :=
  waitWithin (relay.now + duration) relay.load relay

def seen (relay : Relay) (index : Nat) : List Sighting :=
  (relay.sightings.filter fun sighting => sighting.connection = index).reverse

def forget (relay : Relay) : Relay :=
  { relay with sightings := [] }

end Relay

end StationRelay
