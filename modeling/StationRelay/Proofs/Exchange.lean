import StationRelay.Proofs.Workers

/-!
# Sessions that run at the same time

An exchange is a hub with a worker for every session that was ever made over it.
In a run the workers take turns in any order, each at any instant, so that
between two accesses of one session to the hub the others may have had any
number.  A run in which every session finishes its step before another goes on
is only the simplest kind.  What the workers note on the way is the log of the
run.

`Steps` lists everything that one move can lead to, and `Wired` is what holds
throughout: every station leads to the device that holds it, every entry of a
browser session to the session of that name, and a mailbox is open as long as its
session goes on.
-/

namespace StationRelay

structure Exchange where
  directory : Directory
  settings : Settings
  hub : Hub
  /-- The device sessions, numbered like their links. -/
  devices : List Device.Worker
  /-- The browser sessions, numbered like their links. -/
  browsers : List Browser.Worker

namespace Exchange

inductive Move where
  | connectDevice (now : Instant)
  | connectBrowser (now : Instant) (name : Uuid) (flag : TransportFlag)
  | device (index : Nat) (now : Instant) (stimulus : Device.Stimulus)
  | browser (index : Nat) (now : Instant) (stimulus : Browser.Stimulus)

/-- A note and whose it is. -/
inductive Incident where
  | device (index : Nat) (note : Device.Note)
  | browser (index : Nat) (note : Browser.Note)
  deriving DecidableEq

def start (directory : Directory) (settings : Settings) : Exchange :=
  ⟨directory, settings, Hub.empty, [], []⟩

def afterDevice (exchange : Exchange) (index : Nat) (hub : Hub) (worker : Device.Worker) :
    Exchange :=
  { exchange with hub, devices := exchange.devices.set index worker }

def afterBrowser (exchange : Exchange) (index : Nat) (hub : Hub) (worker : Browser.Worker) :
    Exchange :=
  { exchange with hub, browsers := exchange.browsers.set index worker }

/-- What a move does, and what is noted; a move of a session that does not exist does nothing. -/
def step (exchange : Exchange) : Move → Exchange × List Incident
  | .connectDevice now =>
    let (hub, session) := Device.Session.start exchange.settings now exchange.hub
    ({ exchange with hub, devices := exchange.devices ++ [⟨session, .rest⟩] }, [])
  | .connectBrowser now name flag =>
    let (hub, session) := Browser.Session.start exchange.settings now exchange.hub name flag
    ({ exchange with hub, browsers := exchange.browsers ++ [⟨session, .rest⟩] }, [])
  | .device index now stimulus =>
    match exchange.devices[index]? with
    | some worker =>
      let turn := worker.turn exchange.directory now exchange.hub stimulus
      (exchange.afterDevice index turn.hub turn.worker, turn.notes.map (.device index))
    | none => (exchange, [])
  | .browser index now stimulus =>
    match exchange.browsers[index]? with
    | some worker =>
      let turn := worker.turn exchange.directory now exchange.hub stimulus
      (exchange.afterBrowser index turn.hub turn.worker, turn.notes.map (.browser index))
    | none => (exchange, [])

def run (exchange : Exchange) (moves : List Move) : Exchange :=
  moves.foldl (fun current move => (current.step move).1) exchange

def log (exchange : Exchange) : List Move → List Incident
  | [] => []
  | move :: moves => (exchange.step move).2 ++ (exchange.step move).1.log moves

theorem run_append (exchange : Exchange) (first second : List Move) :
    exchange.run (first ++ second) = (exchange.run first).run second :=
  List.foldl_append ..

theorem log_append (exchange : Exchange) (first second : List Move) :
    exchange.log (first ++ second) = exchange.log first ++ (exchange.run first).log second := by
  induction first generalizing exchange with
  | nil => rfl
  | cons move moves ih =>
      rw [List.cons_append, log, log, ih, List.append_assoc]
      rfl

/-! ## Everything that a move can lead to -/

structure FreshDevice (exchange : Exchange) (devices : Links Command) (worker : Device.Worker) :
    Prop where
  sound : worker.Sound exchange.hub.devices.nextId
  task : worker.task = .rest
  runs : worker.session.outcome? = none
  made : devices.mailboxes =
    exchange.hub.devices.mailboxes ++ [Mailbox.ofCapacity exchange.settings.queueCapacity]

structure FreshBrowser (exchange : Exchange) (browsers : Links Reading)
    (sessions : List (Uuid × BrowserEntry)) (worker : Browser.Worker)
    (mailbox : Mailbox Reading) : Prop where
  sound : worker.Sound exchange.hub.browsers.nextId
  task : worker.task = .rest
  made : browsers.mailboxes = exchange.hub.browsers.mailboxes ++ [mailbox]
  sized : mailbox.capacity = exchange.settings.queueCapacity
  unused : mailbox.Records [] []
  runs : mailbox.isOpen = true ↔ worker.session.outcome = none
  entries : ∀ {name entry}, (name, entry) ∈ sessions →
    (name, entry) ∈ exchange.hub.sessions ∨
      name = worker.session.engine.session ∧ entry.notifier = exchange.hub.browsers.nextId

/-- Everything that a move can lead to. -/
inductive Steps (exchange : Exchange) : Exchange × List Incident → Prop where
  | idle : Steps exchange (exchange, [])
  | connectsDevice {devices : Links Command} {worker : Device.Worker}
      (fresh : exchange.FreshDevice devices worker) :
      Steps exchange
        ({ exchange with
            hub := { exchange.hub with devices }
            devices := exchange.devices ++ [worker] }, [])
  | connectsBrowser {browsers : Links Reading} {sessions : List (Uuid × BrowserEntry)}
      {worker : Browser.Worker} {mailbox : Mailbox Reading}
      (fresh : exchange.FreshBrowser browsers sessions worker mailbox) :
      Steps exchange
        ({ exchange with
            hub := { exchange.hub with browsers, sessions }
            browsers := exchange.browsers ++ [worker] }, [])
  | device {index : Nat} {worker : Device.Worker} {now : Instant}
      {turn : Turn Device.Worker Device.Note} (found : exchange.devices[index]? = some worker)
      (turns : Device.Turns exchange.directory now exchange.hub worker turn) :
      Steps exchange
        (exchange.afterDevice index turn.hub turn.worker, turn.notes.map (.device index))
  | browser {index : Nat} {worker : Browser.Worker} {now : Instant}
      {turn : Turn Browser.Worker Browser.Note}
      (found : exchange.browsers[index]? = some worker)
      (turns : Browser.Turns exchange.directory now exchange.hub worker turn) :
      Steps exchange
        (exchange.afterBrowser index turn.hub turn.worker, turn.notes.map (.browser index))

theorem steps_connectBrowser (exchange : Exchange) (now : Instant) (name : Uuid)
    (flag : TransportFlag) :
    exchange.Steps (exchange.step (.connectBrowser now name flag)) := by
  simp only [step, Browser.Session.start, Hub.joinBrowser]
  cases Hub.liveEntry? { exchange.hub with
      browsers := exchange.hub.browsers.create exchange.settings.queueCapacity } name with
  | none =>
      refine .connectsBrowser ⟨.running ⟨rfl, rfl, fun _ => List.not_mem_nil⟩ ?_, rfl,
        Links.mailboxes_create .., rfl, .ofCapacity _, iff_of_true rfl rfl, ?_⟩
      · rintro _ _ ⟨⟩
      · intro other entry member
        rcases List.mem_cons.mp member with isNew | before
        · cases isNew
          exact Or.inr ⟨rfl, rfl⟩
        · exact Or.inl (List.mem_filter.mp before).1
  | some taken =>
      exact .connectsBrowser ⟨.ended rfl rfl, rfl, Links.mailboxes_closeMailbox_create .., rfl,
        (Mailbox.Records.ofCapacity _).close,
        iff_of_false Bool.false_ne_true (Option.some_ne_none _), Or.inl⟩

theorem steps_step (exchange : Exchange) (move : Move) :
    exchange.Steps (exchange.step move) := by
  cases move with
  | connectDevice now =>
      have sound : Device.Worker.Sound exchange.hub.devices.nextId
          ⟨(Device.Session.start exchange.settings now exchange.hub).2, .rest⟩ := by
        refine .running ⟨rfl, rfl, nofun, rfl, fun _ _ => List.not_mem_nil, ?_⟩ nofun
        rintro packet deadline actions ⟨⟩
      exact .connectsDevice ⟨sound, rfl, rfl, Links.mailboxes_create ..⟩
  | connectBrowser now name flag => exact exchange.steps_connectBrowser now name flag
  | device index now stimulus =>
      unfold step
      dsimp only
      cases found : exchange.devices[index]? with
      | none => exact .idle
      | some worker => exact .device found (Device.turns_turn ..)
  | browser index now stimulus =>
      unfold step
      dsimp only
      cases found : exchange.browsers[index]? with
      | none => exact .idle
      | some worker => exact .browser found (Browser.turns_turn ..)

namespace Steps

variable {exchange : Exchange} {next : Exchange × List Incident} {index : Nat}

theorem device_of_mem (steps : exchange.Steps next) {note : Device.Note}
    (member : .device index note ∈ next.2) :
    ∃ worker now turn, exchange.devices[index]? = some worker ∧
      Device.Turns exchange.directory now exchange.hub worker turn ∧ note ∈ turn.notes ∧
      next =
        (exchange.afterDevice index turn.hub turn.worker, turn.notes.map (.device index)) := by
  cases steps with
  | idle | connectsDevice | connectsBrowser => cases member
  | device found turns =>
      obtain ⟨noted, listed, same⟩ := List.mem_map.mp member
      cases same
      exact ⟨_, _, _, found, turns, listed, rfl⟩
  | browser found turns =>
      obtain ⟨noted, listed, same⟩ := List.mem_map.mp member
      cases same

theorem browser_of_mem (steps : exchange.Steps next) {note : Browser.Note}
    (member : .browser index note ∈ next.2) :
    ∃ worker now turn, exchange.browsers[index]? = some worker ∧
      Browser.Turns exchange.directory now exchange.hub worker turn ∧ note ∈ turn.notes ∧
      next =
        (exchange.afterBrowser index turn.hub turn.worker, turn.notes.map (.browser index)) := by
  cases steps with
  | idle | connectsDevice | connectsBrowser => cases member
  | device found turns =>
      obtain ⟨noted, listed, same⟩ := List.mem_map.mp member
      cases same
  | browser found turns =>
      obtain ⟨noted, listed, same⟩ := List.mem_map.mp member
      cases same
      exact ⟨_, _, _, found, turns, listed, rfl⟩

end Steps

/-- What everything that a move can lead to keeps of an exchange and of its log, a run keeps. -/
theorem run_induction {Holds : Exchange → List Incident → Prop}
    (step : ∀ {exchange log next}, exchange.Steps next → Holds exchange log →
      Holds next.1 (log ++ next.2))
    {exchange : Exchange} {log : List Incident} (holds : Holds exchange log)
    (moves : List Move) : Holds (exchange.run moves) (log ++ exchange.log moves) := by
  induction moves generalizing exchange log with
  | nil =>
      rw [Exchange.log, List.append_nil]
      exact holds
  | cons move moves ih =>
      rw [Exchange.log, ← List.append_assoc]
      exact ih (step (exchange.steps_step move) holds)

/-! ## Who is behind a number -/

def Named (exchange : Exchange) (link : LinkId) (name : Uuid) : Prop :=
  ∃ worker, exchange.browsers[link]? = some worker ∧ worker.session.engine.session = name

/-- The link is that of a device that holds this station, or has been closed. -/
def Serves (exchange : Exchange) (link : LinkId) (station : Station) : Prop :=
  ∃ worker, exchange.devices[link]? = some worker ∧
    (worker.session.engine.state = .authenticated station ∨
      worker.session.engine.state = .closed)

/-- The numbers of an exchange are those of its sessions. -/
structure Wired (exchange : Exchange) : Prop where
  devices : exchange.hub.devices.BelongTo exchange.devices fun worker =>
    worker.session.outcome? = none
  browsers : exchange.hub.browsers.BelongTo exchange.browsers fun worker =>
    worker.session.outcome = none
  device : ∀ {index : Nat} {worker : Device.Worker}, exchange.devices[index]? = some worker →
    worker.Sound index
  browser : ∀ {index : Nat} {worker : Browser.Worker}, exchange.browsers[index]? = some worker →
    worker.Sound index
  /-- A station leads to the device that holds it. -/
  claimed : ∀ {station : Station} {link : LinkId},
    exchange.hub.stations.get station = some link →
      ∃ worker, exchange.devices[link]? = some worker ∧
        worker.session.engine.state = .authenticated station
  /-- The notifier of an entry leads to the session of its name. -/
  entered : ∀ {name : Uuid} {entry : BrowserEntry}, (name, entry) ∈ exchange.hub.sessions →
    exchange.Named entry.notifier name
  /-- A report is on its way to the session that it names. -/
  target : ∀ {index : Nat} {worker : Device.Worker} {pending : Device.Pending} {link : LinkId},
    exchange.devices[index]? = some worker → worker.task.target? = some (pending, link) →
      exchange.Named link pending.report.session
  /-- A request is on its way to the station that it names. -/
  holding : ∀ {index : Nat} {worker : Browser.Worker} {station : Station} {link : LinkId}
    {stationIds : List UInt8} {consumed : Nat}, exchange.browsers[index]? = some worker →
      worker.task = .post station link stationIds consumed → exchange.Serves link station

namespace Wired

theorem start (directory : Directory) (settings : Settings) :
    (start directory settings).Wired := by
  refine ⟨.empty, .empty, nofun, nofun, ?_, nofun, nofun, nofun⟩
  intro station link leads
  cases station <;> cases leads

variable {exchange : Exchange} (wired : exchange.Wired)

include wired

/-- A notifier is that of the session it was looked up for. -/
theorem named_of_found {name : Uuid} {notifier : LinkId}
    (found : exchange.hub.findNotifier name = some notifier) : exchange.Named notifier name := by
  obtain ⟨entry, live, same⟩ := Option.map_eq_some_iff.mp found
  obtain ⟨listed, -⟩ := Option.filter_eq_some_iff.mp live
  obtain ⟨before, after, entries, -⟩ := List.lookup_eq_some_iff.mp listed
  have member : (name, entry) ∈ exchange.hub.sessions := by simp [entries]
  exact same ▸ wired.entered member

/-- A device that is found for a station serves it. -/
theorem serves_of_found {station : Station} {link : LinkId}
    (found : exchange.hub.findDevice station = some link) : exchange.Serves link station := by
  obtain ⟨leads, -⟩ := Option.filter_eq_some_iff.mp found
  obtain ⟨worker, there, held⟩ := wired.claimed leads
  exact ⟨worker, there, Or.inl held⟩

end Wired

theorem Named.concat {exchange : Exchange} {hub : Hub} {link : LinkId} {name : Uuid}
    (named : exchange.Named link name) (worker : Browser.Worker) :
    Named { exchange with hub, browsers := exchange.browsers ++ [worker] } link name := by
  obtain ⟨other, there, isName⟩ := named
  exact ⟨other, kept_concat there, isName⟩

theorem Named.browserTurn {exchange : Exchange} {index : Nat} {worker : Browser.Worker}
    {now : Instant} {turn : Turn Browser.Worker Browser.Note}
    (found : exchange.browsers[index]? = some worker)
    (turns : Browser.Turns exchange.directory now exchange.hub worker turn) {link : LinkId}
    {name : Uuid} (named : exchange.Named link name) :
    (exchange.afterBrowser index turn.hub turn.worker).Named link name := by
  obtain ⟨other, there, isName⟩ := named
  have inside : index < exchange.browsers.length := (List.getElem?_eq_some_iff.mp found).1
  by_cases same : index = link
  · subst same
    rw [found] at there
    cases there
    refine ⟨turn.worker, List.getElem?_set_self inside, ?_⟩
    exact (congrArg Command.session turns.command).trans isName
  · exact ⟨other, (List.getElem?_set_ne same).trans there, isName⟩

namespace Wired

variable {exchange : Exchange} (wired : exchange.Wired)

include wired

/-! ### Turns of devices -/

section Device

variable {index : Nat} {worker : Device.Worker} {now : Instant}
  {turn : Turn Device.Worker Device.Note}

/-- A device that serves a station goes on to serve it, or closes. -/
theorem serves_device (found : exchange.devices[index]? = some worker)
    (turns : Device.Turns exchange.directory now exchange.hub worker turn) {link : LinkId}
    {station : Station} (serves : exchange.Serves link station) :
    (exchange.afterDevice index turn.hub turn.worker).Serves link station := by
  obtain ⟨other, there, state⟩ := serves
  have inside : index < exchange.devices.length := (List.getElem?_eq_some_iff.mp found).1
  by_cases same : index = link
  · subst same
    rw [found] at there
    cases there
    refine ⟨turn.worker, List.getElem?_set_self inside, ?_⟩
    rcases state with held | closed
    · exact turns.state held
    · exact Or.inr (turns.closed (wired.device found) closed)
  · exact ⟨other, (List.getElem?_set_ne same).trans there, state⟩

theorem deviceTurn (found : exchange.devices[index]? = some worker)
    (turns : Device.Turns exchange.directory now exchange.hub worker turn) :
    (exchange.afterDevice index turn.hub turn.worker).Wired := by
  have inside : index < exchange.devices.length := (List.getElem?_eq_some_iff.mp found).1
  have sound := wired.device found
  constructor
  case devices => exact wired.devices.receives found (turns.takesCommand sound)
  case browsers => exact wired.browsers.posts turns.postsReading
  case device =>
    intro other another there
    rcases found_set there with ⟨rfl, rfl⟩ | ⟨_, before⟩
    · exact turns.sound sound
    · exact wired.device before
  case browser => exact wired.browser
  case claimed =>
    intro station link leads
    -- Numbers are not used twice, so whatever leads here was claimed by this very session.
    have claimed : ∀ other, exchange.hub.stations.get other = some index →
        worker.session.engine.state = .authenticated other := by
      intro other leadsHere
      obtain ⟨holder, there, held⟩ := wired.claimed leadsHere
      rw [found] at there
      cases there
      exact held
    rcases turns.claims sound.own claimed leads with ⟨rfl, held⟩ | ⟨other, before⟩
    · exact ⟨turn.worker, List.getElem?_set_self inside, held⟩
    · obtain ⟨holder, there, held⟩ := wired.claimed before
      exact ⟨holder, (List.getElem?_set_ne (Ne.symm other)).trans there, held⟩
  case entered =>
    intro name entry member
    change (name, entry) ∈ turn.hub.sessions at member
    rw [turns.sessions] at member
    exact wired.entered member
  case target =>
    intro other another pending link there isTarget
    rcases found_set there with ⟨rfl, rfl⟩ | ⟨_, before⟩
    · rcases turns.target isTarget with before | foundNow
      · exact wired.target found before
      · exact wired.named_of_found foundNow
    · exact wired.target before isTarget
  case holding =>
    intro other browser station link stationIds consumed there holds
    exact wired.serves_device found turns (wired.holding there holds)

end Device

/-! ### Turns of browsers -/

section Browser

variable {index : Nat} {worker : Browser.Worker} {now : Instant}
  {turn : Turn Browser.Worker Browser.Note}

theorem browserTurn (found : exchange.browsers[index]? = some worker)
    (turns : Browser.Turns exchange.directory now exchange.hub worker turn) :
    (exchange.afterBrowser index turn.hub turn.worker).Wired := by
  have sound := wired.browser found
  constructor
  case devices => exact wired.devices.posts turns.postsCommand
  case browsers => exact wired.browsers.receives found (turns.takesReading sound)
  case device => exact wired.device
  case browser =>
    intro other another there
    rcases found_set there with ⟨rfl, rfl⟩ | ⟨_, before⟩
    · exact turns.sound sound
    · exact wired.browser before
  case claimed =>
    intro station link leads
    change turn.hub.stations.get station = some link at leads
    rw [turns.stations] at leads
    exact wired.claimed leads
  case entered =>
    intro name entry member
    exact Named.browserTurn found turns (wired.entered (turns.mem_sessions member))
  case target =>
    intro other another pending link there isTarget
    exact Named.browserTurn found turns (wired.target there isTarget)
  case holding =>
    intro other another station link stationIds consumed there holds
    rcases found_set there with ⟨rfl, rfl⟩ | ⟨_, before⟩
    · rcases turns.holding holds with before | foundNow
      · exact wired.holding found before
      · exact wired.serves_of_found foundNow
    · exact wired.holding before holds

end Browser

/-! ### New sessions -/

theorem connectsDevice {devices : Links Command} {worker : Device.Worker}
    (fresh : exchange.FreshDevice devices worker) :
    Wired { exchange with
      hub := { exchange.hub with devices }
      devices := exchange.devices ++ [worker] } := by
  have number : exchange.hub.devices.nextId = exchange.devices.length :=
    (Links.length_mailboxes _).symm.trans wired.devices.length
  constructor
  case devices => exact wired.devices.concat fresh.made (iff_of_true rfl fresh.runs)
  case browsers => exact wired.browsers
  case device =>
    intro index other there
    rcases found_concat there with before | ⟨rfl, rfl⟩
    · exact wired.device before
    · exact number ▸ fresh.sound
  case browser => exact wired.browser
  case claimed =>
    intro station link leads
    obtain ⟨other, there, held⟩ := wired.claimed leads
    exact ⟨other, kept_concat there, held⟩
  case entered => exact wired.entered
  case target =>
    intro index other pending link there isTarget
    rcases found_concat there with before | ⟨rfl, rfl⟩
    · exact wired.target before isTarget
    · rw [fresh.task] at isTarget
      cases isTarget
  case holding =>
    intro index browser station link stationIds consumed there holds
    obtain ⟨other, serving, state⟩ := wired.holding there holds
    exact ⟨other, kept_concat serving, state⟩

theorem connectsBrowser {browsers : Links Reading} {sessions : List (Uuid × BrowserEntry)}
    {worker : Browser.Worker} {mailbox : Mailbox Reading}
    (fresh : exchange.FreshBrowser browsers sessions worker mailbox) :
    Wired { exchange with
      hub := { exchange.hub with browsers, sessions }
      browsers := exchange.browsers ++ [worker] } := by
  have number : exchange.hub.browsers.nextId = exchange.browsers.length :=
    (Links.length_mailboxes _).symm.trans wired.browsers.length
  constructor
  case devices => exact wired.devices
  case browsers => exact wired.browsers.concat fresh.made fresh.runs
  case device => exact wired.device
  case browser =>
    intro index other there
    rcases found_concat there with before | ⟨rfl, rfl⟩
    · exact wired.browser before
    · exact number ▸ fresh.sound
  case claimed => exact wired.claimed
  case entered =>
    intro name entry member
    rcases fresh.entries member with before | ⟨rfl, isNew⟩
    · exact (wired.entered before).concat worker
    · rw [isNew, number]
      exact ⟨worker, List.getElem?_concat_length, rfl⟩
  case target => exact fun there isTarget => (wired.target there isTarget).concat worker
  case holding =>
    intro index other station link stationIds consumed there holds
    rcases found_concat there with before | ⟨rfl, rfl⟩
    · exact wired.holding before holds
    · rw [fresh.task] at holds
      cases holds

theorem step {next : Exchange × List Incident} (steps : exchange.Steps next) : next.1.Wired := by
  cases steps with
  | idle => exact wired
  | connectsDevice fresh => exact wired.connectsDevice fresh
  | connectsBrowser fresh => exact wired.connectsBrowser fresh
  | device found turns => exact wired.deviceTurn found turns
  | browser found turns => exact wired.browserTurn found turns

end Wired

theorem wired_run (directory : Directory) (settings : Settings) (moves : List Move) :
    ((start directory settings).run moves).Wired :=
  @run_induction (fun exchange _ => exchange.Wired) (fun steps wired => wired.step steps) _ []
    (Wired.start directory settings) moves

end Exchange

end StationRelay
