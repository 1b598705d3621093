import StationRelay.Browser.Protocol
import StationRelay.Device.Protocol

/-!
# Parties around a hub

A scenario is a hub together with everybody who works on it: owners of bare
links, engines of devices and browsers, and parties that keep a link or a
notifier they looked up.  Devices are numbered like their links, and so are
browsers.  A step lets one party do one thing; a step of a party that is gone
changes nothing.
-/

namespace StationRelay

structure DeviceParty where
  engine : Option Device.Engine
  /-- The party still holds its link. -/
  isPresent : Bool

structure BrowserParty where
  session : Uuid
  engine : Option Browser.Engine
  /-- The party still holds its link. -/
  isPresent : Bool

structure Scenario where
  directory : Directory
  hub : Hub
  devices : List DeviceParty
  browsers : List BrowserParty
  /-- Device links that were looked up and kept; nothing once they are let go. -/
  keptLinks : List (Option LinkId)
  /-- Notifiers that were looked up and kept. -/
  keptNotifiers : List LinkId

namespace Scenario

inductive Step where
  | makeDeviceLink (capacity : Nat)
  | makeDevice (capacity : Nat)
  | joinDevice (device : Nat) (station : Station)
  | leaveDevice (station : Station)
  | findDevice (station : Station)
  | keepDevice (station : Station)
  | requestKept (kept : Nat) (command : Command)
  | releaseKept (kept : Nat)
  | request (device : Nat) (command : Command)
  | takeCommand (device : Nat)
  | closeCommands (device : Nat)
  | dropDevice (device : Nat)
  | handleDevice (device : Nat) (buffer : Bytes)
  | takeActions (device : Nat)
  | closeDevice (device : Nat)
  | makeBrowserLink (session : Uuid) (capacity : Nat)
  | makeBrowser (session : Uuid) (flag : TransportFlag) (capacity maxPayload : Nat)
  | joinBrowser (browser : Nat) (session : Option Uuid)
  | leaveBrowser (session : Uuid)
  | notify (session : Uuid) (reading : Reading)
  | keepNotifier (session : Uuid)
  | callNotifier (kept : Nat) (reading : Reading)
  | deliver (browser : Nat) (reading : Reading)
  | takeReading (browser : Nat)
  | closeReadings (browser : Nat)
  | dropBrowser (browser : Nat)
  | handleBrowser (browser : Nat) (buffer : Bytes)
  | takeReplies (browser : Nat)
  | look

/-- What a mailbox gives when one item is asked of it. -/
inductive Taken (α : Type) where
  | item (item : α)
  | empty
  /-- Nothing is left and nobody can post any more. -/
  | disconnected
  /-- The receiving end is gone. -/
  | closed

inductive Answer where
  | nothing
  | made (index : Nat)
  | joined (index : Nat) (joined : Bool)
  | found (index : Option Nat)
  | done (success : Bool)
  | command (taken : Taken Command)
  | reading (taken : Taken Reading)
  | handled (verdict : Verdict) (consumed : Nat)
  | actions (actions : List Device.Action)
  | replies (replies : List Reply)

def start (directory : Directory) : Scenario :=
  ⟨directory, Hub.empty, [], [], [], []⟩

/-- Asks the mailbox behind a link for one item. -/
def takeFrom {α : Type} (links : Links α) (id : LinkId) : Links α × Taken α :=
  match links.get? id with
  | none => (links, .closed)
  | some link =>
    if link.mailbox.isOpen = false then (links, .closed)
    else
      match link.mailbox.items with
      | item :: _ => (links.take id, .item item)
      | [] => (links, if link.holders = 0 then .disconnected else .empty)

def device? (scenario : Scenario) (device : Nat) : Option DeviceParty :=
  scenario.devices[device]?.filter DeviceParty.isPresent

def browser? (scenario : Scenario) (browser : Nat) : Option BrowserParty :=
  scenario.browsers[browser]?.filter BrowserParty.isPresent

def addDevice (scenario : Scenario) (capacity : Nat) (engine : Option Device.Engine) :
    Scenario :=
  { scenario with
    hub := { scenario.hub with devices := scenario.hub.devices.create capacity }
    devices := scenario.devices ++ [⟨engine, true⟩] }

def addBrowser (scenario : Scenario) (session : Uuid) (capacity : Nat)
    (engine : Option Browser.Engine) : Scenario :=
  { scenario with
    hub := { scenario.hub with browsers := scenario.hub.browsers.create capacity }
    browsers := scenario.browsers ++ [⟨session, engine, true⟩] }

def setDevice (scenario : Scenario) (device : Nat) (party : DeviceParty) : Scenario :=
  { scenario with devices := scenario.devices.set device party }

def setBrowser (scenario : Scenario) (browser : Nat) (party : BrowserParty) : Scenario :=
  { scenario with browsers := scenario.browsers.set browser party }

/-- A device goes away: its engine is closed, and its link is let go. -/
def dropDevice (scenario : Scenario) (device : Nat) : Scenario :=
  match scenario.device? device with
  | none => scenario
  | some party =>
    let (hub, engine) :=
      match party.engine with
      | some engine =>
        let (hub, closed) := Device.close scenario.hub engine
        (hub, some closed)
      | none => (scenario.hub, none)
    { scenario with hub := { hub with devices := hub.devices.release device } }.setDevice device
      ⟨engine, false⟩

/-- A browser goes away: its link is let go, and its entry stays behind. -/
def dropBrowser (scenario : Scenario) (browser : Nat) : Scenario :=
  match scenario.browser? browser with
  | none => scenario
  | some party =>
    { scenario with
      hub := { scenario.hub with browsers := scenario.hub.browsers.release browser } }.setBrowser
        browser { party with isPresent := false }

def keepDevice (scenario : Scenario) (station : Station) : Scenario × Answer :=
  match scenario.hub.findDevice station with
  | none => (scenario, .found none)
  | some link =>
    ({ scenario with
        hub := { scenario.hub with devices := scenario.hub.devices.hold link }
        keptLinks := scenario.keptLinks ++ [some link] },
      .found (some scenario.keptLinks.length))

def releaseKept (scenario : Scenario) (kept : Nat) : Scenario :=
  match scenario.keptLinks[kept]? with
  | some (some link) =>
    { scenario with
      hub := { scenario.hub with devices := scenario.hub.devices.release link }
      keptLinks := scenario.keptLinks.set kept none }
  | _ => scenario

def postCommand (scenario : Scenario) (link : LinkId) (command : Command) : Scenario × Answer :=
  ({ scenario with hub := scenario.hub.postCommand link command },
    .done (scenario.hub.devices.accepts link))

def step (scenario : Scenario) : Step → Scenario × Answer
  | .makeDeviceLink capacity =>
    (scenario.addDevice capacity none, .made scenario.devices.length)
  | .makeDevice capacity =>
    (scenario.addDevice capacity (some (Device.Engine.ofLink scenario.hub.devices.nextId)),
      .made scenario.devices.length)
  | .joinDevice device station =>
    match scenario.device? device with
    | none => (scenario, .done false)
    | some _ =>
      let (hub, joined) := scenario.hub.joinDevice station device
      ({ scenario with hub }, .done joined)
  | .leaveDevice station =>
    ({ scenario with hub := scenario.hub.leaveDevice station }, .nothing)
  | .findDevice station => (scenario, .found (scenario.hub.findDevice station))
  | .keepDevice station => scenario.keepDevice station
  | .requestKept kept command =>
    match scenario.keptLinks[kept]? with
    | some (some link) => scenario.postCommand link command
    | _ => (scenario, .done false)
  | .releaseKept kept => (scenario.releaseKept kept, .nothing)
  | .request device command =>
    match scenario.device? device with
    | none => (scenario, .done false)
    | some _ => scenario.postCommand device command
  | .takeCommand device =>
    let (devices, taken) := takeFrom scenario.hub.devices device
    ({ scenario with hub := { scenario.hub with devices } }, .command taken)
  | .closeCommands device =>
    ({ scenario with
        hub := { scenario.hub with devices := scenario.hub.devices.closeMailbox device } },
      .nothing)
  | .dropDevice device => (scenario.dropDevice device, .nothing)
  | .handleDevice device buffer =>
    match scenario.device? device with
    | some ⟨some engine, _⟩ =>
      let handled := Device.handle scenario.directory scenario.hub engine buffer
      ({ scenario with hub := handled.hub }.setDevice device ⟨some handled.engine, true⟩,
        .handled handled.verdict handled.consumed)
    | _ => (scenario, .nothing)
  | .takeActions device =>
    match scenario.device? device with
    | some ⟨some engine, _⟩ =>
      (scenario.setDevice device ⟨some engine.takeActions, true⟩, .actions engine.actions)
    | _ => (scenario, .nothing)
  | .closeDevice device =>
    match scenario.device? device with
    | some ⟨some engine, _⟩ =>
      let (hub, engine) := Device.close scenario.hub engine
      ({ scenario with hub }.setDevice device ⟨some engine, true⟩, .nothing)
    | _ => (scenario, .nothing)
  | .makeBrowserLink session capacity =>
    (scenario.addBrowser session capacity none, .made scenario.browsers.length)
  | .makeBrowser session flag capacity maxPayload =>
    let link := scenario.hub.browsers.nextId
    let added := scenario.addBrowser session capacity (some ⟨session, flag, maxPayload, []⟩)
    let (hub, joined) := added.hub.joinBrowser session ⟨link, link⟩
    ({ added with hub }, .joined scenario.browsers.length joined)
  | .joinBrowser browser session =>
    match scenario.browser? browser with
    | none => (scenario, .done false)
    | some party =>
      let (hub, joined) := scenario.hub.joinBrowser (session.getD party.session) ⟨browser, browser⟩
      ({ scenario with hub }, .done joined)
  | .leaveBrowser session =>
    ({ scenario with hub := scenario.hub.leaveBrowser session }, .nothing)
  | .notify session reading =>
    match scenario.hub.findNotifier session with
    | none => (scenario, .done false)
    | some notifier => ({ scenario with hub := scenario.hub.notify notifier reading }, .done true)
  | .keepNotifier session =>
    match scenario.hub.findNotifier session with
    | none => (scenario, .found none)
    | some notifier =>
      ({ scenario with keptNotifiers := scenario.keptNotifiers ++ [notifier] },
        .found (some scenario.keptNotifiers.length))
  | .callNotifier kept reading =>
    match scenario.keptNotifiers[kept]? with
    | none => (scenario, .nothing)
    | some notifier => ({ scenario with hub := scenario.hub.notify notifier reading }, .nothing)
  | .deliver browser reading =>
    match scenario.browser? browser with
    | none => (scenario, .done false)
    | some _ =>
      ({ scenario with hub := scenario.hub.postReading browser reading },
        .done (scenario.hub.browsers.accepts browser))
  | .takeReading browser =>
    let (browsers, taken) := takeFrom scenario.hub.browsers browser
    ({ scenario with hub := { scenario.hub with browsers } }, .reading taken)
  | .closeReadings browser =>
    ({ scenario with
        hub := { scenario.hub with browsers := scenario.hub.browsers.closeMailbox browser } },
      .nothing)
  | .dropBrowser browser => (scenario.dropBrowser browser, .nothing)
  | .handleBrowser browser buffer =>
    match scenario.browser? browser with
    | some ⟨session, some engine, _⟩ =>
      let handled := Browser.handle scenario.directory scenario.hub engine buffer
      ({ scenario with hub := handled.hub }.setBrowser browser
          ⟨session, some handled.engine, true⟩,
        .handled handled.verdict handled.consumed)
    | _ => (scenario, .nothing)
  | .takeReplies browser =>
    match scenario.browser? browser with
    | some ⟨session, some engine, _⟩ =>
      (scenario.setBrowser browser ⟨session, some engine.takeReplies, true⟩,
        .replies engine.replies)
    | _ => (scenario, .nothing)
  | .look => (scenario, .nothing)

def run (scenario : Scenario) (steps : List Step) : Scenario :=
  steps.foldl (fun current next => (current.step next).1) scenario

end Scenario

end StationRelay
