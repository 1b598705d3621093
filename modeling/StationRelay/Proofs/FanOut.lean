import StationRelay.Browser.Protocol
import StationRelay.Proofs.Ownership
import StationRelay.Proofs.Requests

/-!
# Whom a request for readings reaches

A request names stations in any order and as often as it likes.  Each mention
of a station with a live link posts one command, so a mailbox gets as many
commands as its station is mentioned, up to the room it has: `Mailbox.fill`.
`handle_readings_fanned_out` says that a request does this and nothing else,
and that the count which comes back is that of the commands posted.
-/

namespace StationRelay

namespace Mailbox

variable {α : Type}

def room (mailbox : Mailbox α) : Nat :=
  mailbox.capacity - mailbox.items.length

def withCopies (mailbox : Mailbox α) (count : Nat) (item : α) : Mailbox α :=
  { mailbox with items := mailbox.items ++ List.replicate count item }

def fill (mailbox : Mailbox α) (count : Nat) (item : α) : Mailbox α :=
  if mailbox.isOpen then mailbox.withCopies (min count mailbox.room) item else mailbox

@[simp] theorem withCopies_zero (mailbox : Mailbox α) (item : α) :
    mailbox.withCopies 0 item = mailbox := by
  simp [withCopies]

theorem withCopies_add (mailbox : Mailbox α) (first second : Nat) (item : α) :
    (mailbox.withCopies first item).withCopies second item =
      mailbox.withCopies (first + second) item := by
  simp [withCopies, List.append_assoc]

@[simp] theorem room_withCopies (mailbox : Mailbox α) (count : Nat) (item : α) :
    (mailbox.withCopies count item).room = mailbox.room - count := by
  simp only [room, withCopies, List.length_append, List.length_replicate]
  omega

theorem fill_of_open {mailbox : Mailbox α} (isOpen : mailbox.isOpen = true) (count : Nat)
    (item : α) : mailbox.fill count item = mailbox.withCopies (min count mailbox.room) item :=
  if_pos isOpen

theorem fill_of_closed {mailbox : Mailbox α} (closed : mailbox.isOpen = false) (count : Nat)
    (item : α) : mailbox.fill count item = mailbox := by
  simp [fill, closed]

@[simp] theorem fill_zero (mailbox : Mailbox α) (item : α) : mailbox.fill 0 item = mailbox := by
  simp [fill]

/-- A post is the first of the posts that fill a mailbox. -/
theorem fill_post (mailbox : Mailbox α) (count : Nat) (item : α) :
    (mailbox.post item).fill count item = mailbox.fill (count + 1) item := by
  cases isOpen : mailbox.isOpen with
  | false =>
      have refused : ¬ mailbox.Accepts := by simp [Accepts, isOpen]
      rw [post, if_neg refused, fill_of_closed isOpen, fill_of_closed isOpen]
  | true =>
      rw [fill_of_open isOpen]
      by_cases spare : mailbox.items.length < mailbox.capacity
      · have posted : mailbox.post item = mailbox.withCopies 1 item := if_pos ⟨isOpen, spare⟩
        have stillOpen : (mailbox.withCopies 1 item).isOpen = true := isOpen
        have copies : min (count + 1) mailbox.room = 1 + min count (mailbox.room - 1) := by
          unfold room
          omega
        rw [posted, fill_of_open stillOpen, room_withCopies, withCopies_add, copies]
      · have full : mailbox.room = 0 := by
          unfold room
          omega
        rw [post, if_neg fun accepts => spare accepts.2, fill_of_open isOpen, full, Nat.min_zero,
          Nat.min_zero]

end Mailbox

namespace Links

variable {α : Type}

def waiting (links : Links α) : List α :=
  links.table.flatMap fun link => link.mailbox.items

/-- A post adds to what waits exactly if it is accepted. -/
theorem length_waiting_post (links : Links α) (id : LinkId) (item : α) :
    (links.post id item).waiting.length =
      links.waiting.length + if links.accepts id then 1 else 0 := by
  obtain ⟨table⟩ := links
  induction table generalizing id with
  | nil => simp [post, modify, accepts, get?, waiting]
  | cons link rest ih =>
      cases id with
      | zero =>
          change ((link.mailbox.post item).items ++ waiting ⟨rest⟩).length =
            (link.mailbox.items ++ waiting ⟨rest⟩).length +
              if decide link.mailbox.Accepts then 1 else 0
          simp only [List.length_append, decide_eq_true_eq, Mailbox.post]
          split
          · simp only [List.length_append, List.length_singleton]
            omega
          · omega
      | succ id =>
          have tail := ih id
          change (link.mailbox.items ++ (post ⟨rest⟩ id item).waiting).length =
            (link.mailbox.items ++ waiting ⟨rest⟩).length + if accepts ⟨rest⟩ id then 1 else 0
          rw [List.length_append, List.length_append, tail, Nat.add_assoc]

end Links

namespace Hub

/-- The live link of the station that a byte names. -/
def deviceOf? (hub : Hub) (raw : UInt8) : Option LinkId :=
  (Station.ofByte? raw).bind hub.findDevice

/-- No link is found for two stations. -/
def StationsApart (hub : Hub) : Prop :=
  ∀ {station other : Station} {link : LinkId}, hub.findDevice station = some link →
    hub.findDevice other = some link → station = other

theorem SameClaims.findDevice {hub other : Hub} (same : hub.SameClaims other) :
    other.findDevice = hub.findDevice := by
  have alive : other.devices.isLive = hub.devices.isLive := by
    funext link
    rw [Bool.eq_iff_iff, Links.isLive_iff, Links.isLive_iff, same.holders]
  funext station
  rw [Hub.findDevice, Hub.findDevice, same.stations, alive]

theorem StationsApart.deviceOf?_eq_iff {hub : Hub} (apart : hub.StationsApart) {station : Station}
    {link : LinkId} (found : hub.findDevice station = some link) (raw : UInt8) :
    hub.deviceOf? raw = some link ↔ raw = station.toByte := by
  rw [deviceOf?, Option.bind_eq_some_iff, ← Station.ofByte?_eq_some_iff]
  constructor
  · rintro ⟨other, named, same⟩
    rw [named, apart same found]
  · exact fun named => ⟨station, named, found⟩

end Hub

namespace Browser

variable (hub : Hub) (command : Command)

theorem get?_forwardTo (raw : UInt8) (link : LinkId) :
    (forwardTo hub command raw).1.devices.get? link =
      (hub.devices.get? link).map fun found =>
        if hub.deviceOf? raw = some link then
          { found with mailbox := found.mailbox.post command }
        else found := by
  unfold forwardTo Hub.deviceOf?
  cases (Station.ofByte? raw).bind hub.findDevice with
  | none => simp
  | some target =>
      simp only [Hub.postCommand, Links.post, Links.get?_modify, Option.some.injEq]
      split
      · rfl
      · simp

theorem length_waiting_forwardTo (raw : UInt8) :
    (forwardTo hub command raw).1.devices.waiting.length =
      hub.devices.waiting.length + if (forwardTo hub command raw).2 then 1 else 0 := by
  unfold forwardTo
  split
  · exact hub.devices.length_waiting_post _ command
  · rfl

theorem forwardTo_rest (raw : UInt8) :
    (forwardTo hub command raw).1.browsers = hub.browsers ∧
      (forwardTo hub command raw).1.stations = hub.stations ∧
      (forwardTo hub command raw).1.sessions = hub.sessions := by
  unfold forwardTo
  split <;> exact ⟨rfl, rfl, rfl⟩

theorem forward_rest (stationIds : List UInt8) :
    (forward hub command stationIds).1.browsers = hub.browsers ∧
      (forward hub command stationIds).1.stations = hub.stations ∧
      (forward hub command stationIds).1.sessions = hub.sessions := by
  induction stationIds generalizing hub with
  | nil => exact ⟨rfl, rfl, rfl⟩
  | cons raw rest ih =>
      obtain ⟨browsers, stations, sessions⟩ := ih (forwardTo hub command raw).1
      obtain ⟨sameBrowsers, sameStations, sameSessions⟩ := forwardTo_rest hub command raw
      exact ⟨browsers.trans sameBrowsers, stations.trans sameStations,
        sessions.trans sameSessions⟩

/-- The mailbox behind each link is filled by the bytes that lead to the link.  The induction goes
on because a post changes neither who is found for a station nor any other mailbox. -/
theorem get?_forward (stationIds : List UInt8) (link : LinkId) :
    (forward hub command stationIds).1.devices.get? link =
      (hub.devices.get? link).map fun found =>
        { found with
          mailbox := found.mailbox.fill
            (stationIds.countP fun raw => decide (hub.deviceOf? raw = some link)) command } := by
  induction stationIds generalizing hub with
  | nil => simp [forward, Mailbox.fill_zero]
  | cons raw rest ih =>
      have same : (forwardTo hub command raw).1.deviceOf? = hub.deviceOf? := by
        funext other
        rw [Hub.deviceOf?, Hub.deviceOf?, (Hub.SameClaims.forwardTo hub command raw).findDevice]
      rw [forward, ih, same, get?_forwardTo, Option.map_map, List.countP_cons]
      congr 1
      funext found
      by_cases hit : hub.deviceOf? raw = some link
      · simp only [Function.comp_apply, if_pos hit, decide_eq_true hit, if_true,
          Mailbox.fill_post]
      · simp only [Function.comp_apply, if_neg hit, decide_eq_false hit, Bool.false_eq_true,
          if_false, Nat.add_zero]

theorem length_waiting_forward (stationIds : List UInt8) :
    (forward hub command stationIds).1.devices.waiting.length =
      hub.devices.waiting.length + (forward hub command stationIds).2 := by
  induction stationIds generalizing hub with
  | nil => rfl
  | cons raw rest ih =>
      rw [forward, ih, length_waiting_forwardTo]
      dsimp only
      omega

/-- A command went to the stations that a request lists, and nowhere else. -/
structure FannedOut (before after : Hub) (command : Command) (stationIds : List UInt8) : Prop where
  /-- A mailbox gets a command for each mention of its station, as long as there is room. -/
  served : ∀ {station : Station} {link : LinkId} {found : Link Command},
    before.findDevice station = some link → before.devices.get? link = some found →
    found.mailbox.isOpen = true →
      after.devices.get? link = some { found with
        mailbox := found.mailbox.withCopies
          (min (stationIds.count station.toByte) found.mailbox.room) command }
  /-- A link that no station leads to, or whose receiving end is gone, is as it was. -/
  others : ∀ {link : LinkId},
    (∀ station found, before.findDevice station = some link →
      before.devices.get? link = some found → found.mailbox.isOpen = false) →
      after.devices.get? link = before.devices.get? link
  browsers : after.browsers = before.browsers
  stations : after.stations = before.stations
  sessions : after.sessions = before.sessions

variable {hub}

theorem fannedOut_forward (apart : hub.StationsApart) (stationIds : List UInt8) :
    FannedOut hub (forward hub command stationIds).1 command stationIds := by
  obtain ⟨browsers, stations, sessions⟩ := forward_rest hub command stationIds
  constructor
  case served =>
    intro station link found leads there isOpen
    have mentions : (stationIds.countP fun raw => decide (hub.deviceOf? raw = some link)) =
        stationIds.count station.toByte := by
      rw [List.count_eq_countP]
      congr 1
      funext raw
      rw [Bool.eq_iff_iff, decide_eq_true_iff, beq_iff_eq, apart.deviceOf?_eq_iff leads]
    rw [get?_forward, there, mentions, Option.map_some, Mailbox.fill_of_open isOpen]
  case others =>
    intro link unserved
    rw [get?_forward]
    cases there : hub.devices.get? link with
    | none => rfl
    | some found =>
        rw [Option.map_some]
        by_cases led : ∃ station, hub.findDevice station = some link
        · obtain ⟨station, leads⟩ := led
          rw [Mailbox.fill_of_closed (unserved station found leads there)]
        · have unmentioned : (stationIds.countP fun raw =>
              decide (hub.deviceOf? raw = some link)) = 0 := by
            rw [List.countP_eq_zero]
            intro raw _ hit
            obtain ⟨station, _, leads⟩ := Option.bind_eq_some_iff.mp (of_decide_eq_true hit)
            exact led ⟨station, leads⟩
          rw [unmentioned, Mailbox.fill_zero]
  case browsers => exact browsers
  case stations => exact stations
  case sessions => exact sessions

theorem handle_readings {directory : Directory} {engine : Engine} {buffer payload : Bytes}
    {consumed : Nat} {stationIds : List UInt8}
    (framed : Frame.decode engine.maxPayload buffer = .ok (payload, consumed))
    (asks : Request.parse payload = .ok (.readings stationIds)) :
    handle directory hub engine buffer =
      ⟨(forward hub ⟨engine.session, engine.flag⟩ stationIds).1, engine, .good, consumed⟩ := by
  unfold handle
  rw [framed]
  dsimp only
  rw [asks]
  rfl

/-- A request for readings posts to each station it lists one command for each mention, as long as
there is room, and changes nothing else; the commands are counted. -/
theorem handle_readings_fanned_out {directory : Directory} {engine : Engine}
    {buffer payload : Bytes} {consumed : Nat} {stationIds : List UInt8}
    (framed : Frame.decode engine.maxPayload buffer = .ok (payload, consumed))
    (asks : Request.parse payload = .ok (.readings stationIds)) (apart : hub.StationsApart) :
    let handled := handle directory hub engine buffer
    let command : Command := ⟨engine.session, engine.flag⟩
    handled.verdict = .good ∧ handled.consumed = consumed ∧ handled.engine = engine ∧
      FannedOut hub handled.hub command stationIds ∧
      handled.hub = (forward hub command stationIds).1 ∧
      handled.hub.devices.waiting.length =
        hub.devices.waiting.length + (forward hub command stationIds).2 := by
  intro handled command
  have result : handled = _ := handle_readings framed asks
  clear_value handled
  subst result
  exact ⟨rfl, rfl, rfl, fannedOut_forward command apart stationIds, rfl,
    length_waiting_forward hub command stationIds⟩

/-- One station has room for two commands and is asked three times, the receiving end of another is
gone, a third has left a dead link, and the byte 9 names none. -/
theorem handle_readings_fanned_out_three_mentions :
    let name : Uuid := ⟨List.replicate 16 0x41, rfl⟩
    let directory : Directory := ⟨fun _ => true, Station.defaultName⟩
    let command : Command := ⟨name, .secure⟩
    let earlier : Command := ⟨name, .plain⟩
    let hub : Hub :=
      { Hub.empty with
        devices := ⟨[⟨⟨3, [earlier], true⟩, 2⟩, ⟨⟨3, [], false⟩, 1⟩, ⟨⟨3, [], true⟩, 0⟩]⟩
        stations := ⟨some 0, some 1, some 2⟩ }
    let engine : Engine := ⟨name, .secure, 64, []⟩
    let payload := "\x7b\x22id\x22:0,\x22stationIds\x22:[0,9,0,1,2,0]\x7d".toUTF8.toList
    let buffer := Bytes.littleEndian 2 payload.length ++ payload
    let handled := handle directory hub engine buffer
    hub.StationsApart ∧ handled.verdict = .good ∧ handled.engine = engine ∧
      handled.hub.devices.get? 0 = some ⟨⟨3, [earlier, command, command], true⟩, 2⟩ ∧
      handled.hub.devices.get? 1 = hub.devices.get? 1 ∧
      handled.hub.devices.get? 2 = hub.devices.get? 2 ∧
      handled.hub.devices.waiting.length = 3 := by
  intro name directory command earlier hub engine payload buffer handled
  have framed : Frame.decode engine.maxPayload buffer = .ok (payload, 37) :=
    eq_ok_of_toOption (by decide +kernel)
  have asks : Request.parse payload = .ok (.readings [0, 9, 0, 1, 2, 0]) :=
    eq_ok_of_toOption (by decide +kernel)
  have goe : hub.findDevice .goe = some 0 := rfl
  have wf : hub.findDevice .wf = some 1 := rfl
  have bs : hub.findDevice .bs = none := rfl
  have apart : hub.StationsApart := by
    intro station other link first second
    have same := first.trans second.symm
    cases station <;> cases other <;> simp [goe, wf, bs] at same ⊢
  obtain ⟨good, -, same, fanned, -, total⟩ :=
    @handle_readings_fanned_out hub directory engine buffer payload _ _ framed asks apart
  have gone (station : Station) (found : Link Command) (leads : hub.findDevice station = some 1)
      (there : hub.devices.get? 1 = some found) : found.mailbox.isOpen = false := by
    cases there
    rfl
  have unfound (station : Station) (found : Link Command)
      (leads : hub.findDevice station = some 2) (_ : hub.devices.get? 2 = some found) :
      found.mailbox.isOpen = false := by
    cases station <;> simp [goe, wf, bs] at leads
  exact ⟨apart, good, same, fanned.served goe rfl rfl, fanned.others gone,
    fanned.others unfound, total⟩

end Browser

end StationRelay
