import StationRelay.Proofs.Histories

/-!
# Where readings come from

Whatever a browser is told was reported to its session by a device.
`traceable_run` follows a reading back: what a session told is the beginning of
what its mailbox accepted, each of these readings was posted by a device session
that handled a report naming this very session, and the station in it is the one
the device held.  Once a session has ended, nothing reaches it any more.
-/

namespace StationRelay

namespace Exchange

def Incident.report? : Incident → Option (Nat × Device.Pending × Option (LinkId × Bool))
  | .device index note => note.report?.map fun report => (index, report)
  | .browser .. => none

/-- A device session handles a report, and posts its reading to this link or to none. -/
structure Handles (exchange : Exchange) (next : Exchange × List Incident) (index : Nat)
    (pending : Device.Pending) (posted : Option (LinkId × Bool)) : Prop where
  /-- The device holds the station, and the report is the first packet that it has not handled. -/
  handler : ∃ worker after, exchange.devices[index]? = some worker ∧
    worker.session.engine.state = .authenticated pending.station ∧
    Uplink.decode worker.session.buffer = .ok (.report pending.report, pending.consumed) ∧
    next.1.devices[index]? = some after ∧
    after.session.buffer = worker.session.buffer.drop pending.consumed
  once : next.2.filterMap Incident.report? = [(index, pending, posted)]
  /-- A reading goes nowhere only if no live session has the name, or the one that was found has
  let its link go. -/
  unposted : posted = none →
    next.1.hub.browsers.mailboxes = exchange.hub.browsers.mailboxes ∧
    (exchange.hub.findNotifier pending.report.session = none ∨
      ∃ notifier, exchange.Named notifier pending.report.session ∧
        exchange.hub.browsers.isLive notifier = false)
  /-- Only the mailbox of the session that the report names can change. -/
  addressed : ∀ {link : LinkId} {accepted : Bool}, posted = some (link, accepted) →
    exchange.Named link pending.report.session ∧
    next.1.hub.browsers.mailboxes =
      exchange.hub.browsers.mailboxes.modify link (·.post pending.reading)

/-- Nothing comes to a browser session any more, and nothing from it. -/
structure Silent (exchange : Exchange) (index : Nat) : Prop where
  delivered : ∀ moves, deliveredTo index (exchange.log moves) = []
  noted : ∀ moves note, .browser index note ∉ exchange.log moves
  items : ∀ moves, (exchange.run moves).hub.browsers.items index = []
  /-- A notifier that somebody has kept changes no mailbox. -/
  notify : ∀ reading,
    (exchange.hub.notify index reading).browsers.mailboxes = exchange.hub.browsers.mailboxes

/-- Every reading in an exchange, and in everything that was noted up to now, comes from a report
to the session that is told. -/
structure Traceable (exchange : Exchange) (log : List Incident) : Prop where
  told : ∀ index, toldBy index log ++ exchange.hub.browsers.items index <+:
    (deliveredTo index log).map fun pending =>
      ⟨pending.station, pending.report.temperature, pending.report.humidity,
        pending.report.time⟩
  addressed : ∀ {index : Nat} {worker : Browser.Worker} {pending : Device.Pending},
    exchange.browsers[index]? = some worker → pending ∈ deliveredTo index log →
      pending.report.session = worker.session.engine.session
  handles : ∀ {move : Move} {index : Nat} {pending : Device.Pending}
    {posted : Option (LinkId × Bool)},
    .device index (.reported pending posted) ∈ (exchange.step move).2 →
      exchange.Handles (exchange.step move) index pending posted
  silent : ∀ {index : Nat} {worker : Browser.Worker}, exchange.browsers[index]? = some worker →
    worker.session.outcome ≠ none → exchange.Silent index

theorem mem_deliveredTo {index : Nat} {log : List Incident} {pending : Device.Pending} :
    pending ∈ deliveredTo index log ↔
      ∃ teller, .device teller (.reported pending (some (index, true))) ∈ log := by
  rw [deliveredTo, List.mem_filterMap]
  constructor
  · rintro ⟨incident, member, delivered⟩
    unfold Incident.delivered? at delivered
    split at delivered
    · split at delivered
      · rename_i teller _ link here
        cases delivered
        exact ⟨teller, here ▸ member⟩
      · cases delivered
    · cases delivered
    · cases delivered
  · rintro ⟨teller, member⟩
    exact ⟨_, member, if_pos rfl⟩

section Proofs

variable {exchange : Exchange} {log : List Incident} {next : Exchange × List Incident}

theorem Named.step (steps : exchange.Steps next) {link : LinkId} {name : Uuid}
    (named : exchange.Named link name) : next.1.Named link name := by
  cases steps with
  | idle | connectsDevice => exact named
  | device => exact named
  | @connectsBrowser browsers sessions worker => exact named.concat worker
  | browser found turns => exact Named.browserTurn found turns named

theorem Steps.handles (steps : exchange.Steps next) (wired : exchange.Wired) {index : Nat}
    {pending : Device.Pending} {posted : Option (LinkId × Bool)}
    (noted : .device index (.reported pending posted) ∈ next.2) :
    exchange.Handles next index pending posted := by
  obtain ⟨worker, now, turn, found, turns, listed, rfl⟩ := steps.device_of_mem noted
  have inside : index < exchange.devices.length := (List.getElem?_eq_some_iff.mp found).1
  have reports := turns.reports_of_mem (wired.device found) listed
  obtain ⟨held, decoded⟩ := Device.Session.reportAhead?_eq_some_iff.mp reports.ahead
  constructor
  case handler =>
    exact ⟨worker, turn.worker, found, held, decoded, List.getElem?_set_self inside,
      reports.passed⟩
  case once =>
    rw [List.filterMap_map]
    exact (List.map_filterMap ..).symm.trans (congrArg (List.map (index, ·)) reports.once)
  case unposted =>
    intro nobody
    obtain ⟨same, unheard⟩ := reports.unheard nobody
    refine ⟨congrArg (fun hub => hub.browsers.mailboxes) same, ?_⟩
    cases unheard with
    | unknown draining ahead nobody => exact Or.inl nobody
    | @dead notifier calling gone =>
        refine Or.inr ⟨notifier, wired.target found ?_, gone⟩
        rw [calling]
        rfl
  case addressed =>
    intro link accepted isPosted
    obtain ⟨target, rfl, after⟩ := reports.heard isPosted
    refine ⟨wired.target found target, ?_⟩
    dsimp only
    rw [after]
    exact (Links.mailboxes_release ..).trans (Links.mailboxes_post ..)

/-- Every reading that the mailbox of a session accepted was meant for it. -/
theorem named_run (directory : Directory) (settings : Settings) (moves : List Move) {index : Nat}
    {pending : Device.Pending}
    (delivered : pending ∈ deliveredTo index ((start directory settings).log moves)) :
    ((start directory settings).run moves).Named index pending.report.session := by
  have named := @run_induction
    (fun exchange log => exchange.Wired ∧
      ∀ pending ∈ deliveredTo index log, exchange.Named index pending.report.session)
    (by
      intro exchange log next steps holds
      obtain ⟨wired, named⟩ := holds
      refine ⟨wired.step steps, ?_⟩
      intro pending delivered
      rw [deliveredTo_append] at delivered
      rcases List.mem_append.mp delivered with before | now
      · exact (named pending before).step steps
      · obtain ⟨teller, noted⟩ := mem_deliveredTo.mp now
        exact ((steps.handles wired noted).addressed rfl).1.step steps)
    _ [] ⟨Wired.start directory settings, nofun⟩ moves
  exact named.2 pending delivered

/-! ## Sessions that have ended -/

/-- The browser session with this number has ended. -/
def Ended (exchange : Exchange) (index : Nat) : Prop :=
  ∃ worker, exchange.browsers[index]? = some worker ∧ worker.session.outcome ≠ none

theorem Ended.items_eq_nil {index : Nat} (ended : exchange.Ended index) (wired : exchange.Wired)
    (remembers : Remembers index exchange log) : exchange.hub.browsers.items index = [] := by
  obtain ⟨worker, found, gone⟩ := ended
  obtain ⟨mailbox, behind, isOpen⟩ := wired.browsers.mailbox found
  exact remembers.readings.items_eq_nil behind (Bool.eq_false_iff.mpr (mt isOpen.mp gone))

theorem Ended.step {index : Nat} (ended : exchange.Ended index) (wired : exchange.Wired)
    (steps : exchange.Steps next) :
    next.1.Ended index ∧ deliveredTo index next.2 = [] ∧
      ∀ note, .browser index note ∉ next.2 := by
  obtain ⟨worker, found, gone⟩ := ended
  cases steps with
  | idle | connectsDevice => exact ⟨⟨worker, found, gone⟩, rfl, fun _ => List.not_mem_nil⟩
  | connectsBrowser =>
      exact ⟨⟨worker, kept_concat found, gone⟩, rfl, fun _ => List.not_mem_nil⟩
  | @device number teller now turn there turns =>
      obtain ⟨mailbox, behind, isOpen⟩ := wired.browsers.mailbox found
      have nothing := turns.postsReading.acceptedAt_eq_nil behind
        (Bool.eq_false_iff.mpr (mt isOpen.mp gone))
      rw [← deliveredTo_device index number turn.notes] at nothing
      refine ⟨⟨worker, found, gone⟩, List.map_eq_nil_iff.mp nothing, ?_⟩
      intro note noted
      obtain ⟨other, _, same⟩ := List.mem_map.mp noted
      cases same
  | @browser number other now turn there turns =>
      by_cases own : number = index
      · subst own
        rw [found] at there
        cases there
        cases wired.browser found with
        | running running => exact absurd running.running gone
        | ended link isOver =>
            have inside := (List.getElem?_eq_some_iff.mp found).1
            rw [turns.still_of_ended rfl isOver]
            exact ⟨⟨_, List.getElem?_set_self inside, gone⟩, rfl, fun _ => List.not_mem_nil⟩
      · refine ⟨⟨worker, (List.getElem?_set_ne own).trans found, gone⟩,
          deliveredTo_browser index number turn.notes, ?_⟩
        intro note noted
        obtain ⟨its, _, same⟩ := List.mem_map.mp noted
        cases same
        exact own rfl

theorem Ended.run {index : Nat} (ended : exchange.Ended index) (wired : exchange.Wired)
    (remembers : Remembers index exchange log) (moves : List Move) :
    (exchange.run moves).hub.browsers.items index = [] ∧
      deliveredTo index (exchange.log moves) = [] ∧
      ∀ note, .browser index note ∉ exchange.log moves := by
  -- What was noted before the end is carried along: a mailbox is judged by its whole history.
  have holds := @run_induction
    (fun current later => current.Wired ∧ Remembers index current (log ++ later) ∧
      current.Ended index ∧ deliveredTo index later = [] ∧ ∀ note, .browser index note ∉ later)
    (by
      intro current later next steps holds
      obtain ⟨wired, remembers, ended, nothing, unnoted⟩ := holds
      obtain ⟨stillEnded, nothingNow, unnotedNow⟩ := ended.step wired steps
      refine ⟨wired.step steps, ?_, stillEnded, ?_, ?_⟩
      · rw [← List.append_assoc]
        exact remembers.step wired steps
      · rw [deliveredTo_append, nothing, nothingNow]
        rfl
      · intro note member
        rcases List.mem_append.mp member with before | now
        · exact unnoted note before
        · exact unnotedNow note now)
    exchange [] ⟨wired, by rwa [List.append_nil], ended, rfl, fun _ => List.not_mem_nil⟩ moves
  obtain ⟨wired, remembers, ended, nothing, unnoted⟩ := holds
  exact ⟨ended.items_eq_nil wired remembers, nothing, unnoted⟩

theorem Ended.silent {index : Nat} (ended : exchange.Ended index) (wired : exchange.Wired)
    (remembers : Remembers index exchange log) : exchange.Silent index := by
  constructor
  case delivered => exact fun moves => (ended.run wired remembers moves).2.1
  case noted => exact fun moves => (ended.run wired remembers moves).2.2
  case items => exact fun moves => (ended.run wired remembers moves).1
  case notify =>
    intro reading
    obtain ⟨worker, found, gone⟩ := ended
    obtain ⟨mailbox, behind, isOpen⟩ := wired.browsers.mailbox found
    have refused : exchange.hub.browsers.accepts index = false := by
      rw [remembers.readings.accepts_eq_false_iff behind]
      exact Or.inr (Bool.eq_false_iff.mpr (mt isOpen.mp gone))
    unfold Hub.notify
    split
    · exact Links.mailboxes_post_of_refused refused reading
    · rfl

end Proofs

/-- Whatever sessions do, and in whatever order, a browser is told only what a device reported to
its session. -/
theorem traceable_run (directory : Directory) (settings : Settings) (moves : List Move) :
    ((start directory settings).run moves).Traceable ((start directory settings).log moves) := by
  have wired := wired_run directory settings moves
  have remembers := fun index => remembers_run index directory settings moves
  constructor
  case told => exact fun index => (remembers index).readings.prefixed_items
  case addressed =>
    intro index worker pending found delivered
    obtain ⟨named, there, isName⟩ := named_run directory settings moves delivered
    rw [found] at there
    cases there
    exact isName.symm
  case handles => exact fun noted => (steps_step ..).handles wired noted
  case silent =>
    intro index worker found gone
    exact Ended.silent ⟨worker, found, gone⟩ wired (remembers index)

/-- A device claims a station and reports to the one browser there is, which is told. -/
example :
    let directory : Directory := ⟨fun _ => true, Station.defaultName⟩
    let name : Uuid := ⟨List.replicate 16 0x41, rfl⟩
    let hello := Uplink.encode (.hello ⟨List.replicate 16 0x40, rfl⟩ 1)
    let report := Uplink.encode (.report ⟨name, ⟨1⟩, ⟨2⟩, 3, .plain⟩)
    let moves : List Move :=
      [.connectDevice 0, .device 0 1 (.event .written), .connectBrowser 1 name .plain,
        .device 0 2 (.event (.read (hello ++ report))), .device 0 2 .go,
        .device 0 3 (.event .written), .device 0 3 .go, .device 0 3 .go, .device 0 3 .go,
        .browser 0 4 (.event .reading)]
    toldBy 0 ((start directory {}).log moves) = [⟨.wf, ⟨1⟩, ⟨2⟩, 3⟩] := by
  decide +kernel

end Exchange

end StationRelay
