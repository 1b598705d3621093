import StationRelay.Link
import StationRelay.Packet

/-!
# The state that sessions share

A hub keeps the links of all sessions and two maps: from a station to the link
of the device that holds it, and from a browser session to its link and to the
link its notifier posts to.  The maps hold no links, only their numbers, so a
session that has ended may leave a number behind.  Every lookup asks whether
the link is still alive: an entry whose link is dead counts as no entry.
-/

namespace StationRelay

structure Command where
  session : Uuid
  flag : TransportFlag
  deriving DecidableEq

structure BrowserEntry where
  /-- The entry counts as long as this link is alive. -/
  link : LinkId
  /-- The notifier of the entry posts to this link. -/
  notifier : LinkId
  deriving DecidableEq

structure Hub where
  devices : Links Command
  browsers : Links Reading
  stations : PerStation (Option LinkId)
  sessions : List (Uuid × BrowserEntry)
  deriving DecidableEq

namespace Hub

def empty : Hub :=
  ⟨Links.empty, Links.empty, PerStation.const none, []⟩

/-! ## Stations -/

def findDevice (hub : Hub) (station : Station) : Option LinkId :=
  (hub.stations.get station).filter hub.devices.isLive

/-- Claims a station for a link, unless a live one holds it. -/
def joinDevice (hub : Hub) (station : Station) (link : LinkId) : Hub × Bool :=
  match hub.findDevice station with
  | some _ => (hub, false)
  | none => ({ hub with stations := hub.stations.set station (some link) }, true)

/-- Gives up a station, whoever holds it. -/
def leaveDevice (hub : Hub) (station : Station) : Hub :=
  { hub with stations := hub.stations.set station none }

/-- The stations that live devices hold, in ascending order. -/
def connectedStations (hub : Hub) : List Station :=
  Station.all.filter fun station => (hub.findDevice station).isSome

/-! ## Browser sessions -/

def entry? (hub : Hub) (session : Uuid) : Option BrowserEntry :=
  hub.sessions.lookup session

def liveEntry? (hub : Hub) (session : Uuid) : Option BrowserEntry :=
  (hub.entry? session).filter fun entry => hub.browsers.isLive entry.link

def sessionsWithout (hub : Hub) (session : Uuid) : List (Uuid × BrowserEntry) :=
  hub.sessions.filter fun (other, _) => other ≠ session

/-- Registers a session, unless a live one has its name. -/
def joinBrowser (hub : Hub) (session : Uuid) (entry : BrowserEntry) : Hub × Bool :=
  match hub.liveEntry? session with
  | some _ => (hub, false)
  | none => ({ hub with sessions := (session, entry) :: hub.sessionsWithout session }, true)

/-- Removes a session, whoever registered it. -/
def leaveBrowser (hub : Hub) (session : Uuid) : Hub :=
  { hub with sessions := hub.sessionsWithout session }

/-- The link that the notifier of a live session posts to. -/
def findNotifier (hub : Hub) (session : Uuid) : Option LinkId :=
  (hub.liveEntry? session).map BrowserEntry.notifier

def browserCount (hub : Hub) : Nat :=
  (hub.sessions.filter fun (_, entry) => hub.browsers.isLive entry.link).length

/-! ## Posting -/

def postCommand (hub : Hub) (link : LinkId) (command : Command) : Hub :=
  { hub with devices := hub.devices.post link command }

def postReading (hub : Hub) (link : LinkId) (reading : Reading) : Hub :=
  { hub with browsers := hub.browsers.post link reading }

/-- Calls a notifier: the reading is posted if the link is alive. -/
def notify (hub : Hub) (notifier : LinkId) (reading : Reading) : Hub :=
  if hub.browsers.isLive notifier then hub.postReading notifier reading else hub

end Hub

end StationRelay
