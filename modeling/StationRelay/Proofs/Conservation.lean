import StationRelay.Proofs.Histories

/-!
# Nothing that was accepted is lost or doubled

Sessions ask one another for things by posting to mailboxes.  `conserved_run`
says that what a mailbox accepted is, as long as its session goes on, exactly
what the session has taken out of it followed by what still waits, whoever
posted in between.  A post is refused for two reasons only, and a refused post
leaves every mailbox as it was.
-/

namespace StationRelay

namespace Links

variable {α : Type} {links after : Links α} {link : LinkId} {item : α} {capacity : Nat}
  {running : Prop}

/-- What a post with this answer says of the mailboxes before and after it; `running` says that the
receiving end exists. -/
structure Answers (links after : Links α) (link : LinkId) (item : α) (capacity : Nat)
    (running : Prop) (accepted : Bool) : Prop where
  refused_iff : accepted = false ↔ (links.items link).length = capacity ∨ ¬ running
  refused : accepted = false → after.mailboxes = links.mailboxes
  taken : accepted = true →
    after.mailboxes = links.mailboxes.modify link fun mailbox =>
      { mailbox with items := mailbox.items ++ [item] }

theorem Answers.running_of_taken
    (answers : links.Answers after link item capacity running true) : running := by
  apply Classical.byContradiction
  intro gone
  cases answers.refused_iff.mpr (Or.inr gone)

/-- The answer to a post tells what the post does. -/
theorem Records.answers {accepted taken : List α}
    (records : Records link capacity links accepted taken) {mailbox : Mailbox α}
    (found : links.mailboxes[link]? = some mailbox) (isOpen : mailbox.isOpen = true ↔ running)
    (posted : after.mailboxes = (links.post link item).mailboxes) :
    links.Answers after link item capacity running (links.accepts link) := by
  constructor
  case refused_iff =>
    rw [records.accepts_eq_false_iff found, ← isOpen, Bool.not_eq_true]
  case refused =>
    intro refused
    rw [posted, mailboxes_post_of_refused refused]
  case taken =>
    intro taken
    rw [accepts_eq, found] at taken
    have accepts : mailbox.Accepts := of_decide_eq_true taken
    rw [posted, mailboxes_post]
    apply List.ext_getElem?
    intro other
    rw [List.getElem?_modify, List.getElem?_modify]
    by_cases same : link = other
    · subst same
      rw [found]
      simp [Mailbox.post, accepts]
    · simp [same]

end Links

namespace Exchange

structure Asks (exchange next : Exchange) (asker : Nat) (station : Station) (link : LinkId)
    (command : Command) (accepted : Bool) : Prop where
  /-- The first request that the asker has not handled lists the station, and the command has the
  asker's name and transport. -/
  asker : ∃ worker payload stationIds consumed, exchange.browsers[asker]? = some worker ∧
    Frame.decode worker.session.engine.maxPayload worker.session.buffer =
      .ok (payload, consumed) ∧
    Request.parse payload = .ok (.readings stationIds) ∧ station.toByte ∈ stationIds ∧
    command = ⟨worker.session.engine.session, worker.session.engine.flag⟩
  device : ∃ worker, exchange.devices[link]? = some worker ∧
    (accepted = true → worker.session.engine.state = .authenticated station) ∧
    exchange.hub.devices.Answers next.hub.devices link command exchange.settings.queueCapacity
      (worker.session.outcome? = none) accepted
  others : next.hub.browsers = exchange.hub.browsers

structure Tells (exchange next : Exchange) (link : LinkId) (reading : Reading)
    (accepted : Bool) : Prop where
  browser : ∃ worker, exchange.browsers[link]? = some worker ∧
    exchange.hub.browsers.Answers next.hub.browsers link reading exchange.settings.queueCapacity
      (worker.session.outcome = none) accepted
  others : next.hub.devices = exchange.hub.devices

/-- What holds of the mailboxes of an exchange, with everything that was noted up to now, and of
every post that may come next. -/
structure Conserved (exchange : Exchange) (log : List Incident) : Prop where
  requests : ∀ {index : Nat} {worker : Device.Worker}, exchange.devices[index]? = some worker →
    worker.session.outcome? = none →
      requestedOf index log = begunBy index log ++ exchange.hub.devices.items index
  readings : ∀ {index : Nat} {worker : Browser.Worker},
    exchange.browsers[index]? = some worker → worker.session.outcome = none →
      (deliveredTo index log).map Device.Pending.reading =
        toldBy index log ++ exchange.hub.browsers.items index
  requests_le : ∀ index : Nat,
    (exchange.hub.devices.items index).length ≤ exchange.settings.queueCapacity
  readings_le : ∀ index : Nat,
    (exchange.hub.browsers.items index).length ≤ exchange.settings.queueCapacity
  asks : ∀ {move : Move} {asker : Nat} {station : Station} {link : LinkId} {command : Command}
    {accepted : Bool},
    .browser asker (.asked station link command accepted) ∈ (exchange.step move).2 →
      exchange.Asks (exchange.step move).1 asker station link command accepted
  tells : ∀ {move : Move} {teller : Nat} {pending : Device.Pending} {link : LinkId}
    {accepted : Bool},
    .device teller (.reported pending (some (link, accepted))) ∈ (exchange.step move).2 →
      exchange.Tells (exchange.step move).1 link pending.reading accepted

section Proofs

variable {exchange : Exchange} {log : List Incident} {next : Exchange × List Incident}

theorem Steps.asks (steps : exchange.Steps next) (wired : exchange.Wired)
    (remembers : ∀ index, Remembers index exchange log) {asker : Nat} {station : Station}
    {link : LinkId} {command : Command} {accepted : Bool}
    (noted : .browser asker (.asked station link command accepted) ∈ next.2) :
    exchange.Asks next.1 asker station link command accepted := by
  obtain ⟨worker, now, turn, found, turns, listed, rfl⟩ := steps.browser_of_mem noted
  rcases turns.asks (wired.browser found) with nothing | asks
  · cases List.filterMap_eq_nil_iff.mp nothing _ listed
  · cases asks with
    | @post station link stationIds rest consumed task ahead lists =>
        cases List.mem_singleton.mp listed
        obtain ⟨payload, decoded, parsed⟩ := Browser.Session.readingsAhead?_eq_some_iff.mp ahead
        obtain ⟨holder, there, state⟩ := wired.holding found task
        obtain ⟨mailbox, behind, isOpen⟩ := wired.devices.mailbox there
        have answers := (remembers link).commands.answers behind isOpen
          (Links.mailboxes_release (exchange.hub.devices.post link worker.session.command) link)
        constructor
        case asker =>
          exact ⟨worker, payload, stationIds, consumed, found, decoded, parsed, lists, rfl⟩
        case device =>
          refine ⟨holder, there, ?_, answers⟩
          -- The device may have closed since it was looked up, but then it accepts nothing.
          intro taken
          rw [taken] at answers
          exact state.resolve_right ((wired.device there).opened answers.running_of_taken)
        case others => rfl

theorem Steps.tells (steps : exchange.Steps next) (wired : exchange.Wired)
    (remembers : ∀ index, Remembers index exchange log) {teller : Nat}
    {pending : Device.Pending} {link : LinkId} {accepted : Bool}
    (noted : .device teller (.reported pending (some (link, accepted))) ∈ next.2) :
    exchange.Tells next.1 link pending.reading accepted := by
  obtain ⟨worker, now, turn, found, turns, listed, rfl⟩ := steps.device_of_mem noted
  have reports := turns.reports_of_mem (wired.device found) listed
  obtain ⟨target, rfl, after⟩ := reports.heard rfl
  obtain ⟨listener, there, -⟩ := wired.target found target
  obtain ⟨mailbox, behind, isOpen⟩ := wired.browsers.mailbox there
  constructor
  case browser =>
    refine ⟨listener, there, (remembers link).readings.answers behind isOpen ?_⟩
    dsimp only
    rw [after]
    exact Links.mailboxes_release ..
  case others =>
    have same := congrArg Hub.devices after
    exact same

theorem conserved (wired : exchange.Wired) (remembers : ∀ index, Remembers index exchange log) :
    exchange.Conserved log := by
  constructor
  case requests =>
    intro index worker found running
    obtain ⟨mailbox, behind, isOpen⟩ := wired.devices.mailbox found
    exact (remembers index).commands.accepted_eq behind (isOpen.mpr running)
  case readings =>
    intro index worker found running
    obtain ⟨mailbox, behind, isOpen⟩ := wired.browsers.mailbox found
    exact (remembers index).readings.accepted_eq behind (isOpen.mpr running)
  case requests_le => exact fun index => (remembers index).commands.length_items_le
  case readings_le => exact fun index => (remembers index).readings.length_items_le
  case asks => exact fun noted => (exchange.steps_step _).asks wired remembers noted
  case tells => exact fun noted => (exchange.steps_step _).tells wired remembers noted

end Proofs

/-- Whatever sessions do, and in whatever order, no mailbox loses or doubles what it accepted. -/
theorem conserved_run (directory : Directory) (settings : Settings) (moves : List Move) :
    ((start directory settings).run moves).Conserved ((start directory settings).log moves) :=
  conserved (wired_run directory settings moves) fun index =>
    remembers_run index directory settings moves

/-- Of two requests for one station the mailbox of its device has room for the first, which the
device session takes up. -/
example :
    let directory : Directory := ⟨fun _ => true, Station.defaultName⟩
    let name : Uuid := ⟨List.replicate 16 0x41, rfl⟩
    let hello := Uplink.encode (.hello ⟨List.replicate 16 0x40, rfl⟩ 1)
    let payload := "\x7b\x22id\x22:0,\x22stationIds\x22:[1]\x7d".toUTF8.toList
    let request := Bytes.littleEndian 2 payload.length ++ payload
    let moves : List Move :=
      [.connectDevice 0, .device 0 1 (.event .written), .connectBrowser 1 name .plain,
        .device 0 2 (.event (.read hello)), .device 0 2 .go, .device 0 3 (.event .written),
        .device 0 3 .go, .browser 0 4 (.event (.data (request ++ request)))] ++
      List.replicate 8 (.browser 0 4 .go) ++ [.device 0 5 (.event .command)]
    let log := (start directory { queueCapacity := 1 }).log moves
    log.filter (· matches .browser ..) =
        [.browser 0 (.asked .wf 0 ⟨name, .plain⟩ true),
          .browser 0 (.asked .wf 0 ⟨name, .plain⟩ false)] ∧
      begunBy 0 log = [⟨name, .plain⟩] := by
  decide +kernel

end Exchange

end StationRelay
