import StationRelay.Browser.Protocol
import StationRelay.Proofs.Handling
import StationRelay.Proofs.Mailboxes
import StationRelay.Proofs.PacketFormat

/-!
# What one call of an engine can change

An engine works on a hub that all sessions share.  A call that does not end
well leaves the hub and the engine as they were, whatever it failed at.  A pong
is noted and changes nothing else, and a report changes at most the one mailbox
of the session it names.  `handle_changes_only_named` says so of every call.
-/

namespace StationRelay

namespace Hub

/-- Every session is registered with the notifier of its own link. -/
def NotifiesItself (hub : Hub) : Prop :=
  ∀ {session : Uuid} {entry : BrowserEntry}, hub.entry? session = some entry →
    entry.notifier = entry.link

/-- A reading for a session finds its way behind a link: the session is registered with the link,
somebody holds the link, its receiving end exists, and there is room. -/
structure Reaches (hub : Hub) (session : Uuid) (link : LinkId) : Prop where
  registered : ∃ entry, hub.entry? session = some entry ∧ entry.link = link
  alive : 0 < hub.browsers.holderCount link
  room : ∃ found, hub.browsers.get? link = some found ∧ found.mailbox.isOpen = true ∧
    found.mailbox.items.length < found.mailbox.capacity

def withReading (hub : Hub) (link : LinkId) (reading : Reading) : Hub :=
  { hub with
    browsers := hub.browsers.modify link fun found =>
      { found with mailbox := { found.mailbox with items := found.mailbox.items ++ [reading] } } }

variable {hub : Hub} {session : Uuid} {link : LinkId}

theorem Reaches.accepts (reaches : hub.Reaches session link) {found : Link Reading}
    (there : hub.browsers.get? link = some found) : found.mailbox.Accepts := by
  obtain ⟨other, same, isOpen, room⟩ := reaches.room
  rw [there] at same
  cases same
  exact ⟨isOpen, room⟩

theorem Reaches.notify (reaches : hub.Reaches session link) (reading : Reading) :
    hub.notify link reading = hub.withReading link reading := by
  have alive : hub.browsers.isLive link = true := (Links.isLive_iff ..).mpr reaches.alive
  rw [Hub.notify, if_pos alive]
  have posted : hub.browsers.post link reading = (hub.withReading link reading).browsers :=
    Links.modify_congr fun found there => by rw [Mailbox.post, if_pos (reaches.accepts there)]
  rw [postReading, posted]
  rfl

theorem Reaches.findNotifier (reaches : hub.Reaches session link) (own : hub.NotifiesItself) :
    hub.findNotifier session = some link := by
  obtain ⟨entry, listed, rfl⟩ := reaches.registered
  have alive : hub.browsers.isLive entry.link = true := (Links.isLive_iff ..).mpr reaches.alive
  rw [Hub.findNotifier, liveEntry?, listed, Option.filter_some, if_pos alive, Option.map_some,
    own listed]

/-- A notifier that is found leads to a live link with which the session is registered. -/
theorem registered_of_findNotifier (own : hub.NotifiesItself)
    (found : hub.findNotifier session = some link) :
    (∃ entry, hub.entry? session = some entry ∧ entry.link = link) ∧
      0 < hub.browsers.holderCount link := by
  obtain ⟨entry, live, rfl⟩ := Option.map_eq_some_iff.mp found
  obtain ⟨listed, alive⟩ := Option.filter_eq_some_iff.mp live
  rw [own listed]
  exact ⟨⟨entry, listed, rfl⟩, (Links.isLive_iff ..).mp alive⟩

end Hub

namespace Device

variable {hub : Hub} {station : Station} {report : Report}

theorem onReport_of_reaches {link : LinkId} (own : hub.NotifiesItself)
    (reaches : hub.Reaches report.session link) :
    onReport hub station report = hub.withReading link (readingOf station report) := by
  rw [onReport, reaches.findNotifier own]
  exact reaches.notify _

theorem onReport_of_unreached (own : hub.NotifiesItself)
    (unreached : ∀ link, ¬ hub.Reaches report.session link) :
    onReport hub station report = hub := by
  unfold onReport
  cases found : hub.findNotifier report.session with
  | none => rfl
  | some link =>
      obtain ⟨registered, alive⟩ := Hub.registered_of_findNotifier own found
      have refused (behind : Link Reading) (there : hub.browsers.get? link = some behind) :
          ¬ behind.mailbox.Accepts :=
        fun accepts => unreached link ⟨registered, alive, behind, there, accepts⟩
      dsimp only
      unfold Hub.notify
      split
      · rw [Hub.postReading, Links.post_eq_self _ refused]
      · rfl

end Device

structure Confined (directory : Directory) (hub : Hub) : Prop where
  /-- A call of a device engine that does not end well changes nothing. -/
  deviceFailed : ∀ (engine : Device.Engine) (buffer : Bytes),
    let handled := Device.handle directory hub engine buffer
    handled.verdict ≠ .good → handled.hub = hub ∧ handled.engine = engine
  /-- A call of a browser engine that does not end well changes nothing. -/
  browserFailed : ∀ (engine : Browser.Engine) (buffer : Bytes),
    let handled := Browser.handle directory hub engine buffer
    handled.verdict ≠ .good → handled.hub = hub ∧ handled.engine = engine
  /-- A pong in turn is noted. -/
  pong : ∀ (engine : Device.Engine) (buffer : Bytes) (consumed : Nat),
    let handled := Device.handle directory hub engine buffer
    Uplink.decode buffer = .ok (.pong, consumed) → handled.verdict = .good →
      handled.hub = hub ∧
        handled.engine = { engine with actions := engine.actions ++ [.pongReceived] }
  /-- A report in turn puts one reading behind the link of the session that it names, if there is a
  way, and changes nothing else. -/
  report : hub.NotifiesItself →
    ∀ (engine : Device.Engine) (buffer : Bytes) (report : Report) (consumed : Nat),
      let handled := Device.handle directory hub engine buffer
      Uplink.decode buffer = .ok (.report report, consumed) → handled.verdict = .good →
        handled.engine = engine ∧
          ((∀ link, ¬ hub.Reaches report.session link) → handled.hub = hub) ∧
          ∃ station, engine.state = .authenticated station ∧
            ∀ link, hub.Reaches report.session link →
              handled.hub = hub.withReading link
                ⟨station, report.temperature, report.humidity, report.time⟩
  /-- A closed engine refuses every buffer. -/
  closed : ∀ (engine : Device.Engine) (buffer : Bytes), engine.state = .closed →
    Device.handle directory hub engine buffer = ⟨hub, engine, .bad, 0⟩

theorem Device.unchanged_of_failed {directory : Directory} {hub : Hub} {engine : Engine}
    {buffer : Bytes} (failed : (handle directory hub engine buffer).verdict ≠ .good) :
    (handle directory hub engine buffer).hub = hub ∧
      (handle directory hub engine buffer).engine = engine := by
  have listed := handling_handle directory hub engine buffer
  generalize handle directory hub engine buffer = handled at listed failed ⊢
  cases listed with
  | closed | incomplete | unreadable | outOfTurn => exact ⟨rfl, rfl⟩
  | refused | accepted | pong | report => exact absurd rfl failed

theorem Browser.unchanged_of_failed {directory : Directory} {hub : Hub} {engine : Engine}
    {buffer : Bytes} (failed : (handle directory hub engine buffer).verdict ≠ .good) :
    (handle directory hub engine buffer).hub = hub ∧
      (handle directory hub engine buffer).engine = engine := by
  unfold handle at failed ⊢
  cases decoded : Frame.decode engine.maxPayload buffer with
  | error error => cases error <;> exact ⟨rfl, rfl⟩
  | ok framed =>
      rw [decoded] at failed
      dsimp only at failed ⊢
      cases parsed : Request.parse framed.1 with
      | error error => exact ⟨rfl, rfl⟩
      | ok request =>
          rw [parsed] at failed
          exact absurd rfl failed

/-- One call changes what the item at the front of its buffer names, and a call that fails changes
nothing. -/
theorem handle_changes_only_named (directory : Directory) (hub : Hub) : Confined directory hub := by
  constructor
  case deviceFailed => exact fun engine buffer => Device.unchanged_of_failed
  case browserFailed => exact fun engine buffer => Browser.unchanged_of_failed
  case pong =>
    intro engine buffer consumed handled decoded good
    have listed := Device.handling_handle directory hub engine buffer
    change Device.Handling directory hub engine buffer handled at listed
    clear_value handled
    cases listed with
    | closed | incomplete | unreadable | outOfTurn => cases good
    | refused _ other | accepted _ other | report _ other =>
        rw [decoded] at other
        cases other
    | pong => exact ⟨rfl, rfl⟩
  case report =>
    intro own engine buffer report consumed handled decoded good
    have listed := Device.handling_handle directory hub engine buffer
    change Device.Handling directory hub engine buffer handled at listed
    clear_value handled
    cases listed with
    | closed | incomplete | unreadable | outOfTurn => cases good
    | refused _ other | accepted _ other | pong _ other =>
        rw [decoded] at other
        cases other
    | @report station _ _ held other =>
        rw [decoded] at other
        cases other
        exact ⟨rfl, Device.onReport_of_unreached own,
          station, held, fun link => Device.onReport_of_reaches own⟩
  case closed =>
    intro engine buffer closed
    rw [Device.handle, if_pos closed]

/-- A browser with room for one reading is sent two: the first is put into its mailbox, and the
second, which is good as well, changes nothing. -/
theorem handle_changes_only_named_two_reports :
    let name : Uuid := ⟨List.replicate 16 0x41, rfl⟩
    let directory : Directory := ⟨fun _ => true, Station.defaultName⟩
    let hub : Hub :=
      { Hub.empty with
        browsers := Links.empty.create 1
        sessions := [(name, ⟨0, 0⟩)] }
    let engine : Device.Engine := ⟨0, .authenticated .wf, []⟩
    let report : Report := ⟨name, ⟨0x41ac0000⟩, ⟨0x42480000⟩, 7, .plain⟩
    let first := Device.handle directory hub engine (Uplink.encode (.report report))
    let second := Device.handle directory first.hub engine (Uplink.encode (.report report))
    hub.NotifiesItself ∧
      (first.verdict = .good ∧ first.engine = engine ∧
        first.hub = hub.withReading 0 ⟨.wf, ⟨0x41ac0000⟩, ⟨0x42480000⟩, 7⟩) ∧
      second.verdict = .good ∧ second.engine = engine ∧ second.hub = first.hub := by
  intro name directory hub engine report first second
  have own {other : Hub} (only : other.sessions = [(name, ⟨0, 0⟩)]) : other.NotifiesItself := by
    intro session entry found
    rw [Hub.entry?, only, List.lookup_cons] at found
    split at found <;> cases found
    rfl
  have decoded : Uplink.decode (Uplink.encode (.report report)) = .ok (.report report, 30) := by
    rw [← Uplink.decode_format]
    exact Uplink.lawful.decode_encode (.report report)
  have good : first.verdict = .good := by decide +kernel
  have again : second.verdict = .good := by decide +kernel
  have reaches : hub.Reaches name 0 :=
    ⟨⟨⟨0, 0⟩, by decide +kernel, rfl⟩, by decide, ⟨_, rfl, rfl, by decide⟩⟩
  obtain ⟨same, -, station, held, reached⟩ := (handle_changes_only_named directory hub).report
    (own rfl) engine _ report 30 decoded good
  cases held
  have placed : first.hub = hub.withReading 0 ⟨.wf, ⟨0x41ac0000⟩, ⟨0x42480000⟩, 7⟩ :=
    reached 0 reaches
  have full : ∀ link, ¬ first.hub.Reaches name link := by
    rw [placed]
    rintro link ⟨⟨entry, listed, rfl⟩, -, found, there, -, room⟩
    cases listed
    cases there
    exact absurd room (by decide)
  obtain ⟨sameAgain, unreached, -⟩ := (handle_changes_only_named directory first.hub).report
    (own (placed ▸ rfl)) engine _ report 30 decoded again
  exact ⟨own rfl, ⟨good, same, placed⟩, again, sameAgain, unreached full⟩

end StationRelay
