import StationRelay.Proofs.BrowserSteps
import StationRelay.Proofs.DeviceTurns

/-!
# The turns of a browser session

A request for readings is passed on to one station after another.  To look up
the device of a station and hold its link is one turn of a browser session, and
to post through that link and let it go is another; the requests of other
sessions may come between them.  `reaches_step` says that a worker left alone
does what the session does in one step, and `Turns` lists everything that one
turn can lead to.
-/

namespace StationRelay

namespace Browser

inductive Task where
  /-- It waits for an event. -/
  | rest
  /-- It looks at the front of the buffer next. -/
  | drain
  /-- It looks up the first of these stations next; the request takes so many bytes. -/
  | forward (stationIds : List UInt8) (consumed : Nat)
  /-- It holds the link of a station's device, and posts next; these stations come afterwards. -/
  | post (station : Station) (link : LinkId) (stationIds : List UInt8) (consumed : Nat)
  deriving DecidableEq

structure Worker where
  session : Session
  task : Task
  deriving DecidableEq

inductive Note where
  /-- The device of a station was asked for a reading, and the command accepted or refused. -/
  | asked (station : Station) (link : LinkId) (command : Command) (accepted : Bool)
  /-- A message was put into the outbox. -/
  | enqueued (message : Message)
  deriving DecidableEq

def Note.enqueued? : Note → Option Message
  | .enqueued message => some message
  | .asked .. => none

inductive Stimulus where
  /-- Something happens that the session waits for. -/
  | event (event : Event)
  /-- The session goes on with its task. -/
  | go

/-- A turn that comes to this, with another task. -/
def Progress.turn (progress : Progress) (task : Task) : Turn Worker Note :=
  ⟨progress.hub, ⟨progress.session, task⟩, progress.enqueued.map .enqueued⟩

namespace Session

def command (session : Session) : Command :=
  ⟨session.engine.session, session.engine.flag⟩

/-- The stations that the request at the front of the buffer asks for, and its length. -/
def readingsAhead? (session : Session) : Option (List UInt8 × Nat) :=
  match Frame.decode session.engine.maxPayload session.buffer with
  | .ok (payload, consumed) =>
    match Request.parse payload with
    | .ok (.readings stationIds) => some (stationIds, consumed)
    | _ => none
  | .error _ => none

def dismiss (now : Instant) (session : Session) (handled : Handled) : Turn Worker Note :=
  (((Progress.of handled.hub session).advance handled).enqueueReplies now
    handled.engine.replies).turn .drain

/-- Looks at the front of the buffer.  A request for readings is not handled yet. -/
def look (directory : Directory) (now : Instant) (hub : Hub) (session : Session) :
    Turn Worker Note :=
  let progress := Progress.of hub session
  if session.buffer ≠ [] then
    match session.readingsAhead? with
    | some (stationIds, consumed) => ⟨hub, ⟨session, .forward stationIds consumed⟩, []⟩
    | none =>
      let handled := handle directory hub session.engine session.buffer
      match handled.verdict with
      | .good => session.dismiss now handled
      | .indeterminate => progress.turn .rest
      | .oversize => (progress.beginClose now .oversizeRequest).conclude.turn .rest
      | .bad => (progress.beginClose now .invalidRequest).conclude.turn .rest
  else progress.turn .rest

/-- What an event does to a session that waits for one, up to the first look at the buffer. -/
def begin (directory : Directory) (now : Instant) (hub : Hub) (session : Session)
    (event : Event) : Turn Worker Note :=
  match event with
  | .data bytes =>
    if session.IsOpen ∧ bytes ≠ [] then
      ((Progress.of hub session).extend now bytes).turn .drain
    else (session.step directory now hub event).turn .rest
  | _ => (session.step directory now hub event).turn .rest

end Session

namespace Worker

def go (directory : Directory) (now : Instant) (hub : Hub) (worker : Worker) :
    Turn Worker Note :=
  let session := worker.session
  match worker.task with
  | .rest => ⟨hub, worker, []⟩
  | .drain => session.look directory now hub
  | .forward [] consumed => session.dismiss now ⟨hub, session.engine, .good, consumed⟩
  | .forward (raw :: stationIds) consumed =>
    match Station.ofByte? raw with
    | none => ⟨hub, ⟨session, .forward stationIds consumed⟩, []⟩
    | some station =>
      match hub.findDevice station with
      | none => ⟨hub, ⟨session, .forward stationIds consumed⟩, []⟩
      | some link =>
        ⟨{ hub with devices := hub.devices.hold link },
          ⟨session, .post station link stationIds consumed⟩, []⟩
  | .post station link stationIds consumed =>
    let posted := hub.postCommand link session.command
    ⟨{ posted with devices := posted.devices.release link },
      ⟨session, .forward stationIds consumed⟩,
      [.asked station link session.command (hub.devices.accepts link)]⟩

/-- One turn.  An event is noticed only by a worker that waits for one. -/
def turn (directory : Directory) (now : Instant) (hub : Hub) (worker : Worker) :
    Stimulus → Turn Worker Note
  | .event event =>
    if worker.task = .rest then worker.session.begin directory now hub event
    else ⟨hub, worker, []⟩
  | .go => worker.go directory now hub

end Worker

/-! ## Requests for readings -/

section Requests

variable {session : Session} {stationIds : List UInt8} {consumed : Nat}

theorem Session.readingsAhead?_eq_some_iff :
    session.readingsAhead? = some (stationIds, consumed) ↔
      ∃ payload, Frame.decode session.engine.maxPayload session.buffer = .ok (payload, consumed) ∧
        Request.parse payload = .ok (.readings stationIds) := by
  unfold readingsAhead?
  split
  · rename_i payload size decoded
    rw [decoded]
    split
    · rename_i listed parsed
      constructor
      · rintro ⟨⟩
        exact ⟨payload, rfl, parsed⟩
      · rintro ⟨other, same, readings⟩
        cases same
        rw [parsed] at readings
        cases readings
        rfl
    · rename_i other
      constructor
      · exact nofun
      · rintro ⟨another, same, readings⟩
        cases same
        exact absurd readings (other stationIds)
  · rename_i decoded
    rw [decoded]
    constructor
    · exact nofun
    · rintro ⟨payload, impossible, -⟩
      cases impossible

theorem Session.handle_of_readingsAhead (directory : Directory) (hub : Hub)
    (ahead : session.readingsAhead? = some (stationIds, consumed)) :
    handle directory hub session.engine session.buffer =
      ⟨(Browser.forward hub session.command stationIds).1, session.engine, .good, consumed⟩ := by
  obtain ⟨payload, decoded, parsed⟩ := readingsAhead?_eq_some_iff.mp ahead
  unfold handle
  rw [decoded]
  dsimp only
  rw [parsed]
  rfl

end Requests

/-! ## A worker left alone -/

namespace Progress

variable {progress other : Progress}

/-- What is put into the outbox does not depend on what was put there before. -/
theorem session_enqueueReplies_congr (same : progress.session = other.session) (now : Instant)
    (replies : List Reply) :
    (progress.enqueueReplies now replies).session =
      (other.enqueueReplies now replies).session := by
  induction replies generalizing progress other with
  | nil => exact same
  | cons reply rest ih =>
      apply ih
      simp only [enqueue, same]

theorem enqueued_enqueueReplies (now : Instant) (progress : Progress) (replies : List Reply) :
    (progress.enqueueReplies now replies).enqueued =
      progress.enqueued ++ replies.map .reply := by
  obtain ⟨sender, handed, result⟩ := exists_enqueueReplies now progress replies
  rw [result]

/-- How a session concludes does not depend on what was put into the outbox before. -/
theorem conclude_congr (hub : progress.hub = other.hub)
    (session : progress.session = other.session) :
    progress.conclude.hub = other.conclude.hub ∧
      progress.conclude.session = other.conclude.session := by
  unfold conclude
  rw [session]
  split
  · split
    · simp only [finish, hub, session, and_self]
    · exact ⟨hub, session⟩
  · exact ⟨hub, session⟩

@[simp] theorem enqueued_conclude (progress : Progress) :
    progress.conclude.enqueued = progress.enqueued := by
  unfold conclude
  split
  · split <;> rfl
  · rfl

end Progress

section Settles

variable {directory : Directory} {now : Instant} {hub after : Hub} {session : Session}
  {last : Worker} {messages : List Message}

/-- A worker that is left alone comes to this, having put these messages into the outbox. -/
def Reaches (directory : Directory) (now : Instant) (hub : Hub) (worker : Worker)
    (messages : List Message) (after : Hub) (last : Worker) : Prop :=
  ∃ notes, Settles (Worker.go directory now) hub worker notes after last ∧
    notes.filterMap Note.enqueued? = messages

theorem Reaches.here {worker : Worker} : Reaches directory now hub worker [] hub worker :=
  ⟨[], .here, rfl⟩

theorem Reaches.step {next : Hub} {worker reached : Worker} (notes : List Note)
    (result : worker.go directory now hub = ⟨next, reached, notes⟩)
    (reaches : Reaches directory now next reached messages after last) :
    Reaches directory now hub worker (notes.filterMap Note.enqueued? ++ messages) after last := by
  obtain ⟨later, settles, same⟩ := reaches
  refine ⟨notes ++ later, settles.step result, ?_⟩
  rw [List.filterMap_append, same]

theorem Progress.enqueued_turn (progress : Progress) (task : Task) :
    (progress.turn task).notes.filterMap Note.enqueued? = progress.enqueued := by
  rw [turn, List.filterMap_map]
  exact List.filterMap_some

/-- Looking devices up and posting to them one by one is together what passing a request on is. -/
theorem Reaches.of_forward {consumed : Nat} (stationIds : List UInt8)
    (reaches : Reaches directory now (Browser.forward hub session.command stationIds).1
      ⟨session, .forward [] consumed⟩ messages after last) :
    Reaches directory now hub ⟨session, .forward stationIds consumed⟩ messages after last := by
  induction stationIds generalizing hub with
  | nil => exact reaches
  | cons raw rest ih =>
      rw [Browser.forward] at reaches
      have others := ih reaches
      unfold forwardTo at others
      cases known : Station.ofByte? raw with
      | none =>
          rw [known] at others
          refine Reaches.step [] ?_ others
          simp only [Worker.go, known, Option.bind_none]
      | some station =>
          rw [known] at others
          cases found : hub.findDevice station with
          | none =>
              simp only [Option.bind_some, found] at others
              refine Reaches.step [] ?_ others
              simp only [Worker.go, known, found]
          | some link =>
              simp only [Option.bind_some, found] at others
              have looks : (Worker.mk session (.forward (raw :: rest) consumed)).go directory now
                  hub = ⟨{ hub with devices := hub.devices.hold link },
                    ⟨session, .post station link rest consumed⟩, []⟩ := by
                simp only [Worker.go, known, found]
              apply Reaches.step [] looks
              refine Reaches.step
                [.asked station link session.command ((hub.devices.hold link).accepts link)] ?_
                others
              simp only [Worker.go, Hub.postCommand, Links.release_post_hold]

theorem reaches_of_drains {progress last : Progress}
    (drains : Progress.Drains directory now progress last) (isOpen : progress.session.IsOpen) :
    ∃ messages, Reaches directory now progress.hub ⟨progress.session, .drain⟩ messages
        last.conclude.hub ⟨last.conclude.session, .rest⟩ ∧
      last.conclude.enqueued = progress.enqueued ++ messages := by
  induction drains with
  | @stop progress stopped =>
      rw [Progress.conclude_of_isOpen isOpen]
      refine ⟨[], Reaches.step [] ?_ .here, (List.append_nil _).symm⟩
      simp only [Worker.go, Session.look]
      by_cases nonempty : progress.session.buffer ≠ []
      · have verdict := stopped.resolve_left nonempty
        rw [if_pos nonempty]
        cases ahead : progress.session.readingsAhead? with
        | some listed =>
            rw [Session.handle_of_readingsAhead directory progress.hub ahead] at verdict
            cases verdict
        | none =>
            dsimp only
            rw [verdict]
            rfl
      · rw [if_neg nonempty]
        rfl
  | @breach progress breach nonempty verdict =>
      obtain ⟨sameHub, sameSession⟩ := @Progress.conclude_congr
        ((Progress.of progress.hub progress.session).beginClose now breach)
        (progress.beginClose now breach) rfl rfl
      refine ⟨[.close breach], ?_, ?_⟩
      · refine Reaches.step [.enqueued (.close breach)] ?_ .here
        simp only [Worker.go, Session.look, if_pos nonempty]
        cases ahead : progress.session.readingsAhead? with
        | some listed =>
            rw [Session.handle_of_readingsAhead directory progress.hub ahead] at verdict
            cases breach <;> cases verdict
        | none =>
            dsimp only
            rw [verdict]
            cases breach with
            | invalidRequest | oversizeRequest =>
                simp only [Breach.verdict, Progress.turn, sameHub, sameSession,
                  Progress.enqueued_conclude]
                rfl
      · rw [Progress.enqueued_conclude]
        rfl
  | @next progress last handled nonempty called good goesOn ih =>
      have stays : ((progress.advance handled).enqueueReplies now
          handled.engine.replies).session.IsOpen := by
        obtain ⟨sender, handed, result⟩ :=
          Progress.exists_enqueueReplies now (progress.advance handled) handled.engine.replies
        rw [result]
        exact isOpen
      obtain ⟨messages, reaches, enqueued⟩ := ih stays
      rw [Progress.hub_enqueueReplies] at reaches
      rw [Progress.enqueued_enqueueReplies] at enqueued
      have dismissed : progress.session.dismiss now handled =
          ⟨handled.hub, ⟨((progress.advance handled).enqueueReplies now
            handled.engine.replies).session, .drain⟩,
            (handled.engine.replies.map .reply).map .enqueued⟩ := by
        have same : ((Progress.of handled.hub progress.session).advance handled).session =
            (progress.advance handled).session := rfl
        rw [Session.dismiss, Progress.turn, Progress.hub_enqueueReplies,
          Progress.session_enqueueReplies_congr same, Progress.enqueued_enqueueReplies]
        rfl
      have replied : ((handled.engine.replies.map Message.reply).map Note.enqueued).filterMap
          Note.enqueued? = handled.engine.replies.map .reply := by
        rw [List.filterMap_map]
        exact List.filterMap_some
      refine ⟨handled.engine.replies.map .reply ++ messages, ?_, ?_⟩
      · cases ahead : progress.session.readingsAhead? with
        | some listed =>
            obtain ⟨stationIds, consumed⟩ := listed
            rw [Session.handle_of_readingsAhead directory progress.hub ahead] at called
            subst called
            have looks : (Worker.mk progress.session .drain).go directory now progress.hub =
                ⟨progress.hub, ⟨progress.session, .forward stationIds consumed⟩, []⟩ := by
              simp only [Worker.go, Session.look, if_pos nonempty, ahead]
            apply Reaches.step [] looks
            apply Reaches.of_forward
            rw [← replied]
            exact Reaches.step _ dismissed reaches
        | none =>
            rw [← replied]
            refine Reaches.step _ (Eq.trans ?_ dismissed) reaches
            simp only [Worker.go, Session.look, if_pos nonempty, ahead, called, good]
      · rw [enqueued, List.append_assoc]
        rfl

/-- An event that finds nobody else at work leads to what the session does in one step. -/
theorem reaches_step (directory : Directory) (now : Instant) (hub : Hub) (session : Session)
    (event : Event) :
    let turn := session.begin directory now hub event
    let progress := session.step directory now hub event
    ∃ messages, Reaches directory now turn.hub turn.worker messages progress.hub
        ⟨progress.session, .rest⟩ ∧
      turn.notes.filterMap Note.enqueued? ++ messages = progress.enqueued := by
  have atOnce : ∃ messages,
      Reaches directory now ((session.step directory now hub event).turn .rest).hub
        ((session.step directory now hub event).turn .rest).worker messages
        (session.step directory now hub event).hub
        ⟨(session.step directory now hub event).session, .rest⟩ ∧
      ((session.step directory now hub event).turn .rest).notes.filterMap Note.enqueued? ++
        messages = (session.step directory now hub event).enqueued := by
    refine ⟨[], .here, ?_⟩
    rw [List.append_nil, Progress.enqueued_turn]
  unfold Session.begin
  cases event with
  | data bytes =>
      dsimp only
      by_cases drained : session.IsOpen ∧ bytes ≠ []
      · obtain ⟨isOpen, nonempty⟩ := drained
        rw [if_pos ⟨isOpen, nonempty⟩]
        obtain ⟨messages, reaches, enqueued⟩ := reaches_of_drains
          (Progress.drains_drain directory now ((Progress.of hub session).extend now bytes)) isOpen
        have fed : session.step directory now hub (.data bytes) =
            (((Progress.of hub session).extend now bytes).drain directory now).conclude := by
          simp only [Session.step, isOpen.1, if_pos isOpen, Session.onOpen, Progress.feed,
            if_neg nonempty]
          rfl
        refine ⟨messages, ?_, ?_⟩
        · rw [fed]
          exact reaches
        · rw [fed, enqueued]
          rfl
      · rw [if_neg drained]
        exact atOnce
  | _ => exact atOnce

end Settles

/-! ## Everything that a turn can lead to -/

/-- The request at the front of the buffer is done with, and these replies are to be sent: it asked
for the connected stations, or it was passed on to the last of its stations. -/
inductive Answered (directory : Directory) (hub : Hub) (worker : Worker) :
    List Reply → Nat → Prop where
  | stations {payload : Bytes} {consumed : Nat} (draining : worker.task = .drain)
      (decoded : Frame.decode worker.session.engine.maxPayload worker.session.buffer =
        .ok (payload, consumed))
      (parsed : Request.parse payload = .ok .stations) :
      Answered directory hub worker
        (worker.session.engine.replies ++ [.stations (stationEntries directory hub)]) consumed
  | readings {consumed : Nat} (forwarded : worker.task = .forward [] consumed) :
      Answered directory hub worker worker.session.engine.replies consumed

/-- Everything that a turn of a browser session can lead to. -/
inductive Turns (directory : Directory) (now : Instant) (hub : Hub) (worker : Worker) :
    Turn Worker Note → Prop where
  | idle : Turns directory now hub worker ⟨hub, worker, []⟩
  | changes {keepalive : Keepalive} {sender : Sender} {pings : List Message}
      (resting : worker.task = .rest) (running : worker.session.outcome = none)
      (allPings : ∀ message ∈ pings, message = .ping) :
      Turns directory now hub worker
        ⟨hub, ⟨{ worker.session with keepalive, sender }, .rest⟩, pings.map .enqueued⟩
  | delivers {reading : Reading} {sender : Sender} (resting : worker.task = .rest)
      (isOpen : worker.session.IsOpen)
      (first : hub.browsers.first? worker.session.link = some reading) :
      Turns directory now hub worker
        ⟨{ hub with browsers := hub.browsers.take worker.session.link },
          ⟨{ worker.session with sender }, .rest⟩, [.enqueued (.reply (.reading reading))]⟩
  | ends {sender : Sender} {outcome : Outcome} (resting : worker.task = .rest)
      (running : worker.session.outcome = none) :
      Turns directory now hub worker
        ⟨(worker.session.finish hub outcome).1,
          ⟨{ (worker.session.finish hub outcome).2 with sender }, .rest⟩, []⟩
  | reads {bytes : Bytes} {readDeadline : Instant} (resting : worker.task = .rest)
      (isOpen : worker.session.IsOpen) :
      Turns directory now hub worker
        ⟨hub,
          ⟨{ worker.session with
              buffer := worker.session.buffer ++ bytes
              readDeadline }, .drain⟩, []⟩
  | stops (draining : worker.task = .drain)
      (stopped : (Progress.of hub worker.session).Stopped directory) :
      Turns directory now hub worker ⟨hub, ⟨worker.session, .rest⟩, []⟩
  | breaches {breach : Breach} {sender : Sender} (draining : worker.task = .drain)
      (verdict : (handle directory hub worker.session.engine worker.session.buffer).verdict =
        breach.verdict) :
      Turns directory now hub worker
        ⟨hub, ⟨{ worker.session with buffer := [], sender, closing := some breach }, .rest⟩,
          [.enqueued (.close breach)]⟩
  | answers {replies : List Reply} {consumed : Nat} {sender : Sender}
      (answered : Answered directory hub worker replies consumed) :
      Turns directory now hub worker
        ⟨hub,
          ⟨{ worker.session with
              engine := worker.session.engine.takeReplies
              buffer := worker.session.buffer.drop consumed
              sender }, .drain⟩, (replies.map .reply).map .enqueued⟩
  | begins {stationIds : List UInt8} {consumed : Nat} (draining : worker.task = .drain)
      (ahead : worker.session.readingsAhead? = some (stationIds, consumed)) :
      Turns directory now hub worker ⟨hub, ⟨worker.session, .forward stationIds consumed⟩, []⟩
  | skips {raw : UInt8} {stationIds : List UInt8} {consumed : Nat}
      (forwarding : worker.task = .forward (raw :: stationIds) consumed)
      (nobody : (Station.ofByte? raw).bind hub.findDevice = none) :
      Turns directory now hub worker ⟨hub, ⟨worker.session, .forward stationIds consumed⟩, []⟩
  | finds {station : Station} {link : LinkId} {stationIds : List UInt8} {consumed : Nat}
      (forwarding : worker.task = .forward (station.toByte :: stationIds) consumed)
      (found : hub.findDevice station = some link) :
      Turns directory now hub worker
        ⟨{ hub with devices := hub.devices.hold link },
          ⟨worker.session, .post station link stationIds consumed⟩, []⟩
  | posts {station : Station} {link : LinkId} {stationIds : List UInt8} {consumed : Nat}
      (posting : worker.task = .post station link stationIds consumed) :
      Turns directory now hub worker
        ⟨{ hub with devices := (hub.devices.post link worker.session.command).release link },
          ⟨worker.session, .forward stationIds consumed⟩,
          [.asked station link worker.session.command (hub.devices.accepts link)]⟩

section Turns

variable {directory : Directory} {now : Instant} {hub : Hub} {worker : Worker}

/-- A session concludes by ending, or has nothing to conclude. -/
theorem Progress.conclude_cases (progress : Progress) :
    progress.conclude = progress ∨
      progress.session.outcome = none ∧ ∃ outcome, progress.conclude = progress.finish outcome := by
  unfold conclude
  split
  · rename_i running _
    split
    · exact Or.inr ⟨running, _, rfl⟩
    · exact Or.inl rfl
  · exact Or.inl rfl

theorem Progress.conclude_beginClose (now : Instant) (progress : Progress) (breach : Breach) :
    (progress.beginClose now breach).conclude = progress.beginClose now breach := by
  have waits : (progress.beginClose now breach).session.sender.outbox.isEmpty = false := by
    simp only [beginClose, enqueue, Outbox.isEmpty, Sender.waiting_enqueue]
    simp
  unfold conclude
  split
  · rw [waits]
    rfl
  · rfl

theorem turns_dismiss {handled : Handled} {replies : List Reply} {consumed : Nat}
    (answered : Answered directory hub worker replies consumed)
    (result : handled =
      ⟨hub, { worker.session.engine with replies }, .good, consumed⟩) :
    Turns directory now hub worker (worker.session.dismiss now handled) := by
  subst result
  obtain ⟨sender, handed, replied⟩ := Progress.exists_enqueueReplies now
    ((Progress.of hub worker.session).advance
      ⟨hub, { worker.session.engine with replies }, .good, consumed⟩) replies
  rw [Session.dismiss, replied]
  exact .answers answered

theorem turns_look (draining : worker.task = .drain) :
    Turns directory now hub worker (worker.session.look directory now hub) := by
  unfold Session.look
  split
  · cases ahead : worker.session.readingsAhead? with
    | some listed =>
        obtain ⟨stationIds, consumed⟩ := listed
        exact .begins draining ahead
    | none =>
        dsimp only
        split
        · rename_i good
          unfold Session.readingsAhead? at ahead
          unfold handle at good ⊢
          split
          · rename_i payload consumed decoded
            rw [decoded] at ahead good
            dsimp only at ahead good
            split
            · rename_i request parsed
              rw [parsed] at ahead
              cases request with
              | readings stationIds => cases ahead
              | stations => exact turns_dismiss (.stations draining decoded parsed) rfl
            · rename_i parsed
              rw [parsed] at good
              cases good
          · simp_all
          · simp_all
          · simp_all
        · rename_i incomplete
          exact .stops draining (Or.inr incomplete)
        · rename_i oversize
          rw [Progress.conclude_beginClose]
          exact .breaches draining oversize
        · rename_i bad
          rw [Progress.conclude_beginClose]
          exact .breaches draining bad
  · rename_i empty
    exact .stops draining (Or.inl (Decidable.not_not.mp empty))

theorem turns_begin (resting : worker.task = .rest) (event : Event) :
    Turns directory now hub worker (worker.session.begin directory now hub event) := by
  obtain ⟨session, task⟩ := worker
  obtain rfl : task = .rest := resting
  have atOnce (notFed : ∀ bytes, event = .data bytes → ¬ (session.IsOpen ∧ bytes ≠ [])) :
      Turns directory now hub ⟨session, .rest⟩
        ((session.step directory now hub event).turn .rest) := by
    rcases session.step_cases directory now hub event with
      ⟨_, same⟩ | ⟨acted, running, acts, result⟩
    · rw [same]
      exact .idle
    · rw [result]
      cases acts with
      | idle =>
          rcases Progress.conclude_cases (Progress.of hub session) with same | ⟨_, outcome, same⟩
          · rw [same]
            exact .idle
          · rw [same]
            exact .ends rfl running
      | feeds isOpen nonempty => exact absurd ⟨isOpen, nonempty⟩ (notFed _ rfl)
      | hears isOpen =>
          rw [Progress.conclude_of_isOpen (by exact isOpen)]
          exact .changes rfl running nofun
      | delivers isOpen first =>
          rw [Progress.conclude_of_isOpen (by exact isOpen)]
          exact .delivers rfl isOpen first
      | pings isOpen =>
          rw [Progress.conclude_of_isOpen (by exact isOpen)]
          refine .changes rfl running ?_
          rintro message member
          exact List.mem_singleton.mp member
      | ends isOpen ending =>
          rcases Progress.conclude_cases ((Progress.of hub session).finish _) with
            same | ⟨ended, _⟩
          · rw [same]
            exact .ends rfl running
          · cases ended
      | sends inFlight =>
          rcases Progress.conclude_cases ((Progress.of hub session).onSent now) with
            same | ⟨_, outcome, same⟩
          · rw [same]
            exact .changes rfl running nofun
          · rw [same]
            exact .ends rfl running
      | fails inFlight failure =>
          rcases Progress.conclude_cases ((Progress.of hub session).onSendFailed _) with
            same | ⟨ended, _⟩
          · rw [same]
            exact .ends rfl running
          · cases ended
  unfold Session.begin
  cases event with
  | data bytes =>
      dsimp only
      by_cases fed : session.IsOpen ∧ bytes ≠ []
      · rw [if_pos fed]
        exact .reads rfl fed.1
      · rw [if_neg fed]
        apply atOnce
        rintro other ⟨⟩
        exact fed
  | _ => exact atOnce nofun

theorem turns_turn (directory : Directory) (now : Instant) (hub : Hub) (worker : Worker)
    (stimulus : Stimulus) :
    Turns directory now hub worker (worker.turn directory now hub stimulus) := by
  cases stimulus with
  | event event =>
      simp only [Worker.turn]
      by_cases resting : worker.task = .rest
      · rw [if_pos resting]
        exact turns_begin resting event
      · rw [if_neg resting]
        exact .idle
  | go =>
      simp only [Worker.turn, Worker.go]
      cases task : worker.task with
      | rest => exact .idle
      | drain => exact turns_look task
      | post station link stationIds consumed => exact .posts task
      | forward stationIds consumed =>
          cases stationIds with
          | nil => exact turns_dismiss (.readings task) rfl
          | cons raw stationIds =>
              dsimp only
              cases known : Station.ofByte? raw with
              | none => exact .skips task (by rw [known]; rfl)
              | some station =>
                  dsimp only
                  cases found : hub.findDevice station with
                  | none => exact .skips task (by rw [known, Option.bind_some, found])
                  | some link =>
                      obtain rfl := Station.ofByte?_eq_some_iff.mp known
                      exact .finds task found

end Turns

end Browser

end StationRelay
