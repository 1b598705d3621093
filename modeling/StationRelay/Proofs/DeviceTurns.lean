import StationRelay.Proofs.Deeds
import StationRelay.Proofs.Handling
import StationRelay.Proofs.Mailboxes

/-!
# The turns of a device session

Sessions run at the same time, so one of them may do something between any two
accesses of another to the hub.  A worker is a session that stops at every
access.  To look up the notifier of a report is one turn of a device session, to
call it and find its link alive is another, and to post through that link is a
third.  `reaches_step` says that a worker left alone does what the session does
in one step, and `Turns` lists everything that one turn can lead to.
-/

namespace StationRelay

/-- What becomes of a hub and of a worker in one turn. -/
structure Turn (Worker Note : Type) where
  hub : Hub
  worker : Worker
  /-- What can be seen of the turn, in order. -/
  notes : List Note

/-- A worker takes turns while nobody else does; the notes of all its turns are joined. -/
inductive Settles {Worker Note : Type} (go : Hub → Worker → Turn Worker Note) :
    Hub → Worker → List Note → Hub → Worker → Prop where
  | here {hub : Hub} {worker : Worker} : Settles go hub worker [] hub worker
  | go {hub after : Hub} {worker last : Worker} {later : List Note}
      (settles : Settles go (go hub worker).hub (go hub worker).worker later after last) :
      Settles go hub worker ((go hub worker).notes ++ later) after last

/-- One more turn, given by what it comes to. -/
theorem Settles.step {Worker Note : Type} {go : Hub → Worker → Turn Worker Note}
    {hub next after : Hub} {worker reached last : Worker} {notes later : List Note}
    (result : go hub worker = ⟨next, reached, notes⟩)
    (settles : Settles go next reached later after last) :
    Settles go hub worker (notes ++ later) after last := by
  have turn := @Settles.go Worker Note go hub after worker last later
  rw [result] at turn
  exact turn settles

namespace Device

structure Pending where
  station : Station
  report : Report
  consumed : Nat
  deriving DecidableEq

def Pending.reading (pending : Pending) : Reading :=
  readingOf pending.station pending.report

inductive Task where
  /-- It waits for an event. -/
  | rest
  /-- It looks at the front of the buffer next. -/
  | drain
  /-- It has looked up the notifier for a report, and calls it next. -/
  | call (pending : Pending) (notifier : LinkId)
  /-- The notifier found its link alive and holds it, and posts next. -/
  | post (pending : Pending) (link : LinkId)
  deriving DecidableEq

structure Worker where
  session : Session
  task : Task
  deriving DecidableEq

inductive Note where
  /-- A report was handled, and the reading was posted to this link and accepted or refused, or
  to none. -/
  | reported (pending : Pending) (posted : Option (LinkId × Bool))
  /-- A packet was taken up for writing. -/
  | began (packet : Downlink)
  deriving DecidableEq

def Note.began? : Note → Option Downlink
  | .began packet => some packet
  | .reported .. => none

inductive Stimulus where
  /-- Something happens that the session waits for. -/
  | event (event : Event)
  /-- The session goes on with its task. -/
  | go

namespace Session

def reportAhead? (session : Session) : Option Pending :=
  match Uplink.decode session.buffer with
  | .ok (.report report, consumed) =>
    session.engine.station?.map fun station => ⟨station, report, consumed⟩
  | _ => none

/-- Carries out actions up to the first that writes. -/
def carryOn (now : Instant) (hub : Hub) (session : Session) (actions : List Action) :
    Turn Worker Note :=
  match perform now session.keepalive actions with
  | (keepalive, some (packet, rest)) =>
    ⟨hub, ⟨{ session with keepalive }.write now packet (.resume rest), .rest⟩, [.began packet]⟩
  | (keepalive, none) => ⟨hub, ⟨{ session with keepalive }, .drain⟩, []⟩

def pass (session : Session) (pending : Pending) : Session :=
  { session with
    engine := session.engine.takeActions
    buffer := session.buffer.drop pending.consumed }

def dismiss (now : Instant) (hub : Hub) (session : Session) (pending : Pending)
    (posted : Option (LinkId × Bool)) : Turn Worker Note :=
  let turn := (session.pass pending).carryOn now hub session.engine.actions
  { turn with notes := .reported pending posted :: turn.notes }

/-- Looks at the front of the buffer.  A report is not handled yet if its notifier is found. -/
def look (directory : Directory) (now : Instant) (hub : Hub) (session : Session) :
    Turn Worker Note :=
  if nonempty : session.buffer ≠ [] then
    match session.reportAhead? with
    | some pending =>
      match hub.findNotifier pending.report.session with
      | some notifier => ⟨hub, ⟨session, .call pending notifier⟩, []⟩
      | none => session.dismiss now hub pending none
    | none =>
      let handled := handle directory hub session.engine session.buffer
      if handled.verdict = .good then
        (session.advance handled).carryOn now handled.hub handled.engine.actions
      else if handled.verdict = .indeterminate then
        ⟨hub, ⟨{ session with phase := .waiting }, .rest⟩, []⟩
      else
        let (after, last) := finish hub session (some (.badPacket (session.buffer.head nonempty)))
        ⟨after, ⟨last, .rest⟩, []⟩
  else ⟨hub, ⟨{ session with phase := .waiting }, .rest⟩, []⟩

/-- A whole step of the session, with the packet that it takes up for writing. -/
def stepAtOnce (directory : Directory) (now : Instant) (hub : Hub) (session : Session)
    (event : Event) : Turn Worker Note :=
  let (after, last) := session.step directory now hub event
  ⟨after, ⟨last, .rest⟩,
    ((session.deeds directory now hub event).filterMap Deed.began?).map .began⟩

/-- What an event does to a session that waits for one, up to the first access to the hub that
is made for a packet in the buffer. -/
def begin (directory : Directory) (now : Instant) (hub : Hub) (session : Session)
    (event : Event) : Turn Worker Note :=
  match session.phase, event with
  | .waiting, .read bytes =>
    if bytes = [] then session.stepAtOnce directory now hub event
    else
      ⟨hub,
        ⟨{ session with
            buffer := session.buffer ++ bytes
            readDeadline := now + session.settings.readTimeout }, .drain⟩, []⟩
  | .writing _ _ (.resume actions), .written => session.carryOn now hub actions
  | _, _ => session.stepAtOnce directory now hub event

end Session

namespace Worker

/-- Goes on with the task, up to and with the next access to the hub. -/
def go (directory : Directory) (now : Instant) (hub : Hub) (worker : Worker) :
    Turn Worker Note :=
  match worker.task with
  | .rest => ⟨hub, worker, []⟩
  | .drain => worker.session.look directory now hub
  | .call pending notifier =>
    if hub.browsers.isLive notifier then
      ⟨{ hub with browsers := hub.browsers.hold notifier },
        ⟨worker.session, .post pending notifier⟩, []⟩
    else worker.session.dismiss now hub pending none
  | .post pending link =>
    let posted := hub.postReading link pending.reading
    worker.session.dismiss now { posted with browsers := posted.browsers.release link } pending
      (some (link, hub.browsers.accepts link))

/-- One turn.  An event is noticed only by a worker that waits for one. -/
def turn (directory : Directory) (now : Instant) (hub : Hub) (worker : Worker) :
    Stimulus → Turn Worker Note
  | .event event =>
    if worker.task = .rest then worker.session.begin directory now hub event
    else ⟨hub, worker, []⟩
  | .go => worker.go directory now hub

end Worker

/-! ## Reports -/

section Reports

variable {session : Session} {pending : Pending}

theorem Engine.station?_eq_some_iff {engine : Engine} {station : Station} :
    engine.station? = some station ↔ engine.state = .authenticated station := by
  unfold Engine.station? State.station?
  cases engine.state <;> simp

theorem Session.reportAhead?_eq_some_iff :
    session.reportAhead? = some pending ↔
      session.engine.state = .authenticated pending.station ∧
        Uplink.decode session.buffer = .ok (.report pending.report, pending.consumed) := by
  obtain ⟨station, report, consumed⟩ := pending
  unfold reportAhead?
  split
  · rename_i measured size decoded
    rw [Option.map_eq_some_iff, decoded]
    constructor
    · rintro ⟨held, isHeld, same⟩
      cases same
      exact ⟨Engine.station?_eq_some_iff.mp isHeld, rfl⟩
    · rintro ⟨held, same⟩
      cases same
      exact ⟨station, Engine.station?_eq_some_iff.mpr held, rfl⟩
  · rename_i other
    constructor
    · exact nofun
    · rintro ⟨-, decoded⟩
      exact absurd decoded (other report consumed)

theorem Session.handle_of_reportAhead (directory : Directory) (hub : Hub)
    (ahead : session.reportAhead? = some pending) :
    handle directory hub session.engine session.buffer =
      ⟨onReport hub pending.station pending.report, session.engine, .good, pending.consumed⟩ := by
  obtain ⟨held, decoded⟩ := reportAhead?_eq_some_iff.mp ahead
  have opened : session.engine.state ≠ .closed := by
    rw [held]
    exact nofun
  unfold handle
  rw [if_neg opened, decoded]
  simp only [onPacket, Engine.station?_eq_some_iff.mpr held]

theorem Session.buffer_ne_nil_of_reportAhead (ahead : session.reportAhead? = some pending) :
    session.buffer ≠ [] := by
  intro empty
  obtain ⟨-, decoded⟩ := reportAhead?_eq_some_iff.mp ahead
  rw [empty] at decoded
  cases decoded

end Reports

/-! ## A worker left alone -/

theorem Session.began_performDeeds (now : Instant) (keepalive : Keepalive)
    (actions : List Action) :
    (performDeeds actions).filterMap Deed.began? =
      ((perform now keepalive actions).2.map Prod.fst).toList := by
  induction actions generalizing keepalive with
  | nil => rfl
  | cons action rest ih =>
      cases action with
      | send packet => rfl
      | startKeepalive => exact ih (keepalive.start now)
      | pongReceived => exact ih (keepalive.pongReceived now)

theorem Session.began_frontDeeds (buffer : Bytes) :
    (frontDeeds buffer).filterMap Deed.began? = [] := by
  unfold frontDeeds
  split <;> rfl

section Settles

variable {directory : Directory} {now : Instant} {hub after : Hub} {session : Session}
  {last : Worker} {begun : List Downlink}

/-- A worker that is left alone comes to this, having taken these packets up for writing. -/
def Reaches (directory : Directory) (now : Instant) (hub : Hub) (worker : Worker)
    (begun : List Downlink) (after : Hub) (last : Worker) : Prop :=
  ∃ notes, Settles (Worker.go directory now) hub worker notes after last ∧
    notes.filterMap Note.began? = begun

theorem Reaches.here {worker : Worker} : Reaches directory now hub worker [] hub worker :=
  ⟨[], .here, rfl⟩

theorem Reaches.step {next : Hub} {worker reached : Worker} (notes : List Note)
    (result : worker.go directory now hub = ⟨next, reached, notes⟩)
    (reaches : Reaches directory now next reached begun after last) :
    Reaches directory now hub worker (notes.filterMap Note.began? ++ begun) after last := by
  obtain ⟨later, settles, same⟩ := reaches
  refine ⟨notes ++ later, settles.step result, ?_⟩
  rw [List.filterMap_append, same]

theorem Reaches.of_report {pending : Pending} (ahead : session.reportAhead? = some pending)
    {reached : Worker} (notes : List Note)
    (result : (session.pass pending).carryOn now (onReport hub pending.station pending.report)
      session.engine.actions = ⟨onReport hub pending.station pending.report, reached, notes⟩)
    (reaches : Reaches directory now (onReport hub pending.station pending.report) reached begun
      after last) :
    Reaches directory now hub ⟨session, .drain⟩ (notes.filterMap Note.began? ++ begun) after
      last := by
  have nonempty := Session.buffer_ne_nil_of_reportAhead ahead
  cases found : hub.findNotifier pending.report.session with
  | none =>
      have same : onReport hub pending.station pending.report = hub := by
        rw [onReport, found]
      rw [same] at result reaches
      refine Reaches.step (.reported pending none :: notes) ?_ reaches
      simp only [Worker.go, Session.look, dif_pos nonempty, ahead, found, Session.dismiss, result]
  | some notifier =>
      have looks : (Worker.mk session .drain).go directory now hub =
          ⟨hub, ⟨session, .call pending notifier⟩, []⟩ := by
        simp only [Worker.go, Session.look, dif_pos nonempty, ahead, found]
      apply Reaches.step [] looks
      by_cases live : hub.browsers.isLive notifier = true
      · have same : onReport hub pending.station pending.report =
            hub.postReading notifier pending.reading := by
          rw [onReport, found]
          exact if_pos live
        rw [same] at result reaches
        have calls : (Worker.mk session (.call pending notifier)).go directory now hub =
            ⟨{ hub with browsers := hub.browsers.hold notifier },
              ⟨session, .post pending notifier⟩, []⟩ := by
          simp only [Worker.go, if_pos live]
        apply Reaches.step [] calls
        have posted : { hub with browsers :=
            ((hub.browsers.hold notifier).post notifier pending.reading).release notifier } =
              hub.postReading notifier pending.reading := by
          rw [Links.release_post_hold]
          rfl
        refine Reaches.step (.reported pending
          (some (notifier, (hub.browsers.hold notifier).accepts notifier)) :: notes) ?_ reaches
        simp only [Worker.go, Session.dismiss, Hub.postReading] at result posted ⊢
        rw [posted, result]
      · have same : onReport hub pending.station pending.report = hub := by
          rw [onReport, found]
          exact if_neg live
        rw [same] at result reaches
        refine Reaches.step (.reported pending none :: notes) ?_ reaches
        simp only [Worker.go, if_neg live, Session.dismiss, result]

/-- A worker at the buffer does what the loop over the buffer does. -/
theorem reaches_of_drains {last : Session} {deeds : List Deed}
    (drains : Session.Drains directory now hub session deeds after last) :
    Reaches directory now hub ⟨session, .drain⟩ (deeds.filterMap Deed.began?) after
      ⟨last, .rest⟩ := by
  induction drains with
  | @stop hub session stopped =>
      refine Reaches.step [] ?_ .here
      simp only [Worker.go, Session.look]
      by_cases nonempty : session.buffer ≠ []
      · have verdict := stopped.resolve_left nonempty
        rw [dif_pos nonempty]
        cases ahead : session.reportAhead? with
        | some pending =>
            rw [Session.handle_of_reportAhead directory hub ahead] at verdict
            cases verdict
        | none =>
            dsimp only
            rw [verdict, if_neg nofun, if_pos rfl]
      · rw [dif_neg nonempty]
  | @breach hub session tag rest front notGood complete =>
      refine Reaches.step [] ?_ .here
      have nonempty : session.buffer ≠ [] := by
        rw [front]
        exact nofun
      have head : session.buffer.head nonempty = tag := by simp [front]
      simp only [Worker.go, Session.look, dif_pos nonempty]
      cases ahead : session.reportAhead? with
      | some pending =>
          rw [Session.handle_of_reportAhead directory hub ahead] at notGood
          exact absurd rfl notGood
      | none => simp only [if_neg notGood, if_neg complete, head]
  | @write hub session handled keepalive packet rest nonempty called good performed =>
      have began : (Session.frontDeeds session.buffer ++
          Session.performDeeds handled.engine.actions).filterMap Deed.began? = [packet] := by
        rw [List.filterMap_append, Session.began_frontDeeds,
          Session.began_performDeeds now session.keepalive, performed]
        rfl
      rw [began]
      cases ahead : session.reportAhead? with
      | some pending =>
          rw [Session.handle_of_reportAhead directory hub ahead] at called
          subst called
          refine Reaches.of_report ahead [.began packet] ?_ .here
          simp only [Session.carryOn, Session.pass]
          rw [performed]
          rfl
      | none =>
          refine Reaches.step [.began packet] ?_ .here
          simp only [Worker.go, Session.look, dif_pos nonempty, ahead, called, if_pos good,
            Session.carryOn]
          rw [Session.advance, performed]
  | @next hub after session last handled keepalive later nonempty called good performed goesOn ih =>
      have began : (Session.frontDeeds session.buffer ++
          Session.performDeeds handled.engine.actions ++ later).filterMap Deed.began? =
            later.filterMap Deed.began? := by
        rw [List.filterMap_append, List.filterMap_append, Session.began_frontDeeds,
          Session.began_performDeeds now session.keepalive, performed]
        rfl
      rw [began]
      cases ahead : session.reportAhead? with
      | some pending =>
          rw [Session.handle_of_reportAhead directory hub ahead] at called
          subst called
          refine Reaches.of_report ahead [] ?_ ih
          simp only [Session.carryOn, Session.pass]
          rw [performed]
          rfl
      | none =>
          refine Reaches.step [] ?_ ih
          simp only [Worker.go, Session.look, dif_pos nonempty, ahead, called, if_pos good,
            Session.carryOn]
          rw [Session.advance, performed]

/-- An event that finds nobody else at work leads to what the session does in one step. -/
theorem reaches_step (directory : Directory) (now : Instant) (hub : Hub) (session : Session)
    (event : Event) :
    let turn := session.begin directory now hub event
    ∃ begun, Reaches directory now turn.hub turn.worker begun
        (session.step directory now hub event).1
        ⟨(session.step directory now hub event).2, .rest⟩ ∧
      turn.notes.filterMap Note.began? ++ begun =
        (session.deeds directory now hub event).filterMap Deed.began? := by
  have atOnce : ∃ begun, Reaches directory now (session.step directory now hub event).1
      ⟨(session.step directory now hub event).2, .rest⟩ begun
      (session.step directory now hub event).1
      ⟨(session.step directory now hub event).2, .rest⟩ ∧
      (((session.deeds directory now hub event).filterMap Deed.began?).map Note.began).filterMap
        Note.began? ++ begun = (session.deeds directory now hub event).filterMap Deed.began? := by
    refine ⟨[], .here, ?_⟩
    rw [List.append_nil, List.filterMap_map]
    exact List.filterMap_some
  unfold Session.begin
  split
  · rename_i bytes waiting
    split
    · exact atOnce
    · rename_i nonempty
      exact ⟨_, reaches_of_drains (session.drains_read directory now hub waiting nonempty), rfl⟩
  · rename_i packet deadline actions writing
    simp only [Session.step, Session.deeds, writing, Session.proceed, Session.proceedDeeds,
      Session.carryOn]
    have began := Session.began_performDeeds now session.keepalive actions
    rcases performed : Session.perform now session.keepalive actions with
      ⟨keepalive, _ | ⟨reply, rest⟩⟩
    · rw [performed] at began
      refine ⟨_, reaches_of_drains (Session.drains_drain directory now hub _), ?_⟩
      change _ = ([] : List Downlink) ++ _
      rw [List.filterMap_append, began]
      rfl
    · rw [performed] at began
      refine ⟨[], .here, ?_⟩
      exact began.symm
  · exact atOnce

end Settles

/-! ## Everything that a turn can lead to -/

/-- What carrying out actions leads to: a packet is taken up for writing, or nothing is to be
written and the buffer is looked at next. -/
inductive CarriesOn (now : Instant) (session : Session) (actions : List Action) :
    Worker → List Note → Prop where
  | write {keepalive : Keepalive} {packet : Downlink} {rest : List Action}
      (performed :
        Session.perform now session.keepalive actions = (keepalive, some (packet, rest))) :
      CarriesOn now session actions
        ⟨{ session with keepalive }.write now packet (.resume rest), .rest⟩ [.began packet]
  | drain {keepalive : Keepalive}
      (performed : Session.perform now session.keepalive actions = (keepalive, none)) :
      CarriesOn now session actions ⟨{ session with keepalive }, .drain⟩ []

theorem exists_carriesOn (now : Instant) (hub : Hub) (session : Session)
    (actions : List Action) :
    ∃ last notes, session.carryOn now hub actions = ⟨hub, last, notes⟩ ∧
      CarriesOn now session actions last notes := by
  unfold Session.carryOn
  rcases performed : Session.perform now session.keepalive actions with
    ⟨keepalive, _ | ⟨packet, rest⟩⟩
  · exact ⟨_, _, rfl, .drain performed⟩
  · exact ⟨_, _, rfl, .write performed⟩

theorem exists_dismiss (now : Instant) (hub : Hub) (session : Session) (pending : Pending)
    (posted : Option (LinkId × Bool)) :
    ∃ last notes, session.dismiss now hub pending posted =
        ⟨hub, last, .reported pending posted :: notes⟩ ∧
      CarriesOn now (session.pass pending) session.engine.actions last notes := by
  obtain ⟨last, notes, result, carries⟩ :=
    exists_carriesOn now hub (session.pass pending) session.engine.actions
  refine ⟨last, notes, ?_, carries⟩
  rw [Session.dismiss, result]

/-- Nobody is told of a report: its browser is not found, or has let its link go since. -/
inductive Unheard (hub : Hub) (worker : Worker) (pending : Pending) : Prop where
  | unknown (draining : worker.task = .drain)
      (ahead : worker.session.reportAhead? = some pending)
      (nobody : hub.findNotifier pending.report.session = none)
  | dead {notifier : LinkId} (calling : worker.task = .call pending notifier)
      (gone : hub.browsers.isLive notifier = false)

/-- Everything that a turn of a device session can lead to. -/
inductive Turns (directory : Directory) (now : Instant) (hub : Hub) (worker : Worker) :
    Turn Worker Note → Prop where
  | idle : Turns directory now hub worker ⟨hub, worker, []⟩
  | ends {outcome : Outcome} (ready : worker.task = .rest ∨ worker.task = .drain)
      (running : worker.task = .rest → worker.session.outcome? = none) :
      Turns directory now hub worker
        ⟨(worker.session.finish hub outcome).1, ⟨(worker.session.finish hub outcome).2, .rest⟩, []⟩
  | reads {bytes : Bytes} (resting : worker.task = .rest)
      (waiting : worker.session.phase = .waiting) :
      Turns directory now hub worker
        ⟨hub,
          ⟨{ worker.session with
              buffer := worker.session.buffer ++ bytes
              readDeadline := now + worker.session.settings.readTimeout }, .drain⟩, []⟩
  | requests {command : Command} (resting : worker.task = .rest)
      (waiting : worker.session.phase = .waiting)
      (first : hub.devices.first? worker.session.link = some command) :
      Turns directory now hub worker
        ⟨{ hub with devices := hub.devices.take worker.session.link },
          ⟨worker.session.write now (.request command.session command.flag) .wait, .rest⟩,
          [.began (.request command.session command.flag)]⟩
  | pings (resting : worker.task = .rest) (waiting : worker.session.phase = .waiting) :
      Turns directory now hub worker
        ⟨hub, ⟨worker.session.write now .ping .awaitPong, .rest⟩, [.began .ping]⟩
  | wrote {packet : Downlink} {deadline handshakeDeadline readDeadline : Instant}
      {next : Continuation} {keepalive : Keepalive} (resting : worker.task = .rest)
      (writing : worker.session.phase = .writing packet deadline next) :
      Turns directory now hub worker
        ⟨hub,
          ⟨{ worker.session with
              handshakeDeadline, readDeadline, keepalive, phase := .waiting }, .rest⟩, []⟩
  | resumes {packet : Downlink} {deadline : Instant} {actions : List Action} {last : Worker}
      {notes : List Note} (resting : worker.task = .rest)
      (writing : worker.session.phase = .writing packet deadline (.resume actions))
      (carries : CarriesOn now worker.session actions last notes) :
      Turns directory now hub worker ⟨hub, last, notes⟩
  | stops (draining : worker.task = .drain) (stopped : worker.session.Stopped directory hub) :
      Turns directory now hub worker
        ⟨hub, ⟨{ worker.session with phase := .waiting }, .rest⟩, []⟩
  | handles {handled : Handled} {last : Worker} {notes : List Note}
      (draining : worker.task = .drain) (noReport : worker.session.reportAhead? = none)
      (called : handle directory hub worker.session.engine worker.session.buffer = handled)
      (good : handled.verdict = .good)
      (carries : CarriesOn now (worker.session.advance handled) handled.engine.actions last
        notes) :
      Turns directory now hub worker ⟨handled.hub, last, notes⟩
  | finds {pending : Pending} {notifier : LinkId} (draining : worker.task = .drain)
      (ahead : worker.session.reportAhead? = some pending)
      (found : hub.findNotifier pending.report.session = some notifier) :
      Turns directory now hub worker ⟨hub, ⟨worker.session, .call pending notifier⟩, []⟩
  | drops {pending : Pending} {last : Worker} {notes : List Note}
      (unheard : Unheard hub worker pending)
      (carries : CarriesOn now (worker.session.pass pending) worker.session.engine.actions last
        notes) :
      Turns directory now hub worker ⟨hub, last, .reported pending none :: notes⟩
  | holds {pending : Pending} {notifier : LinkId} (calling : worker.task = .call pending notifier)
      (live : hub.browsers.isLive notifier = true) :
      Turns directory now hub worker
        ⟨{ hub with browsers := hub.browsers.hold notifier },
          ⟨worker.session, .post pending notifier⟩, []⟩
  | posts {pending : Pending} {link : LinkId} {last : Worker} {notes : List Note}
      (posting : worker.task = .post pending link)
      (carries : CarriesOn now (worker.session.pass pending) worker.session.engine.actions last
        notes) :
      Turns directory now hub worker
        ⟨{ hub with browsers := (hub.browsers.post link pending.reading).release link }, last,
          .reported pending (some (link, hub.browsers.accepts link)) :: notes⟩

section Turns

variable {directory : Directory} {now : Instant} {hub : Hub} {worker : Worker}

theorem turns_look (draining : worker.task = .drain) :
    Turns directory now hub worker (worker.session.look directory now hub) := by
  unfold Session.look
  split
  · rename_i nonempty
    cases ahead : worker.session.reportAhead? with
    | some pending =>
        dsimp only
        cases found : hub.findNotifier pending.report.session with
        | some notifier => exact .finds draining ahead found
        | none =>
            obtain ⟨last, notes, result, carries⟩ :=
              exists_dismiss now hub worker.session pending none
            dsimp only
            rw [result]
            exact .drops (.unknown draining ahead found) carries
    | none =>
        dsimp only
        split
        · rename_i good
          obtain ⟨last, notes, result, carries⟩ := exists_carriesOn now
            (handle directory hub worker.session.engine worker.session.buffer).hub _ _
          rw [result]
          exact .handles draining ahead rfl good carries
        · split
          · rename_i incomplete
            exact .stops draining (Or.inr incomplete)
          · exact .ends (Or.inr draining) fun resting => by simp [draining] at resting
  · rename_i empty
    exact .stops draining (Or.inl (Decidable.not_not.mp empty))

theorem turns_stepAtOnce (resting : worker.task = .rest) {event : Event}
    (notRead : ∀ bytes, worker.session.phase = .waiting → event = .read bytes → bytes = [])
    (notResumed : ∀ packet deadline actions,
      worker.session.phase = .writing packet deadline (.resume actions) → event ≠ .written) :
    Turns directory now hub worker (worker.session.stepAtOnce directory now hub event) := by
  obtain ⟨session, task⟩ := worker
  obtain rfl : task = .rest := resting
  have steps := session.steps_step directory now hub event
  unfold Session.stepAtOnce
  dsimp only
  generalize session.deeds directory now hub event = deeds,
    (session.step directory now hub event).1 = after,
    (session.step directory now hub event).2 = last at steps ⊢
  cases steps with
  | idle => exact .idle
  | ends ending =>
      refine .ends (Or.inl rfl) fun _ => ?_
      cases ending <;> simp_all [Session.outcome?]
  | reads waiting nonempty => exact absurd (notRead _ waiting rfl) nonempty
  | requests waiting first => exact .requests rfl waiting first
  | pings waiting => exact .pings rfl waiting
  | listens writing | waits writing | awaits writing => exact .wrote rfl writing
  | replies writing | resumes writing => exact absurd rfl (notResumed _ _ _ writing)

theorem turns_begin (resting : worker.task = .rest) (event : Event) :
    Turns directory now hub worker (worker.session.begin directory now hub event) := by
  unfold Session.begin
  split
  · rename_i bytes waiting
    split
    · rename_i empty
      refine turns_stepAtOnce resting ?_ ?_
      · rintro other - ⟨⟩
        exact empty
      · intro packet deadline actions writing
        rw [waiting] at writing
        cases writing
    · exact .reads resting waiting
  · rename_i packet deadline actions writing
    obtain ⟨last, notes, result, carries⟩ := exists_carriesOn now hub worker.session actions
    rw [result]
    exact .resumes resting writing carries
  · rename_i notRead notResumed
    refine turns_stepAtOnce resting ?_ ?_
    · intro bytes waiting isRead
      exact absurd isRead (notRead bytes waiting)
    · intro packet deadline actions writing isWritten
      exact notResumed packet deadline actions writing isWritten

theorem turns_turn (directory : Directory) (now : Instant) (hub : Hub) (worker : Worker)
    (stimulus : Stimulus) :
    Turns directory now hub worker (worker.turn directory now hub stimulus) := by
  cases stimulus with
  | event event =>
      simp only [Worker.turn]
      by_cases resting : worker.task = .rest
      · rw [if_pos resting]
        exact turns_begin resting event
      · rw [if_neg resting]
        exact .idle
  | go =>
      simp only [Worker.turn, Worker.go]
      cases task : worker.task with
      | rest => exact .idle
      | drain => exact turns_look task
      | call pending notifier =>
          dsimp only
          by_cases live : hub.browsers.isLive notifier = true
          · rw [if_pos live]
            exact .holds task live
          · obtain ⟨last, notes, result, carries⟩ :=
              exists_dismiss now hub worker.session pending none
            rw [if_neg live, result]
            exact .drops (.dead task (Bool.eq_false_iff.mpr live)) carries
      | post pending link =>
          dsimp only
          obtain ⟨last, notes, result, carries⟩ := exists_dismiss now
            { hub with browsers := (hub.browsers.post link pending.reading).release link }
            worker.session pending (some (link, hub.browsers.accepts link))
          rw [Hub.postReading, result]
          exact .posts task carries

end Turns

end Device

end StationRelay
