import StationRelay.Proofs.BrowserTurns
import StationRelay.Proofs.Neighbours

/-!
# What holds of a worker between its turns

A worker that stands before an access to the hub still has the packet or the
request it is busy with at the front of its buffer: nobody else can touch a
session.  `Sound` says so, together with what the session cannot do: a device
session writes no request on its own account, and a browser session tells no
reading on its own.  Every turn keeps it.
-/

namespace StationRelay

/-! ## Devices -/

namespace Device

/-- None of the actions writes a request for a reading. -/
def Unasked (actions : List Action) : Prop :=
  ∀ session flag, Action.send (.request session flag) ∉ actions

theorem Unasked.append {first second : List Action} (left : Unasked first)
    (right : Unasked second) : Unasked (first ++ second) := by
  intro session flag member
  rcases List.mem_append.mp member with inFirst | inSecond
  · exact left session flag inFirst
  · exact right session flag inSecond

/-- What is written is one of the actions, and what comes afterwards is among them. -/
theorem Session.mem_of_perform {now : Instant} {keepalive after : Keepalive}
    {actions rest : List Action} {packet : Downlink}
    (performed : perform now keepalive actions = (after, some (packet, rest))) :
    .send packet ∈ actions ∧ rest ⊆ actions := by
  induction actions generalizing keepalive with
  | nil => cases performed
  | cons action others ih =>
      cases action with
      | send written =>
          cases performed
          exact ⟨List.mem_cons_self, List.subset_cons_self ..⟩
      | startKeepalive | pongReceived =>
          obtain ⟨member, subset⟩ := ih performed
          exact ⟨List.mem_cons_of_mem _ member, fun other inRest =>
            List.mem_cons_of_mem _ (subset inRest)⟩

def Task.target? : Task → Option (Pending × LinkId)
  | .call pending notifier => some (pending, notifier)
  | .post pending link => some (pending, link)
  | .rest | .drain => none

/-- A session that goes on, with this number. -/
structure Session.Running (index : Nat) (session : Session) : Prop where
  link : session.link = index
  own : session.engine.link = index
  opened : session.engine.state ≠ .closed
  running : session.outcome? = none
  unasked : Unasked session.engine.actions
  resumes : ∀ {packet deadline actions},
    session.phase = .writing packet deadline (.resume actions) → Unasked actions

/-- What holds of a worker between its turns. -/
inductive Worker.Sound (index : Nat) : Worker → Prop where
  | running {session : Session} {task : Task} (running : session.Running index)
      (ahead : ∀ {pending link}, task.target? = some (pending, link) →
        session.reportAhead? = some pending) : Sound index ⟨session, task⟩
  | ended {session : Session} {outcome : Outcome} (link : session.link = index)
      (own : session.engine.link = index) (closed : session.engine.state = .closed)
      (ended : session.phase = .ended outcome) : Sound index ⟨session, .rest⟩

section Turns

variable {directory : Directory} {now : Instant} {hub : Hub} {index : Nat} {worker : Worker}
  {turn : Turn Worker Note}

theorem Worker.Sound.own (sound : worker.Sound index) :
    worker.session.engine.link = index := by
  cases sound with
  | running running => exact running.own
  | ended link own => exact own

theorem Worker.Sound.opened (sound : worker.Sound index)
    (runs : worker.session.outcome? = none) : worker.session.engine.state ≠ .closed := by
  cases sound with
  | running running => exact running.opened
  | ended link own closed ended =>
      rw [Session.outcome?, ended] at runs
      cases runs

theorem Session.Running.advance {session : Session} (running : session.Running index)
    {handled : Handled} (good : handled.verdict = .good)
    (called : handle directory hub session.engine session.buffer = handled) :
    (session.advance handled).Running index ∧ Unasked handled.engine.actions := by
  have listed := handling_handle directory hub session.engine session.buffer
  rw [called] at listed
  have others : ∀ {packet deadline actions},
      session.phase = .writing packet deadline (.resume actions) → Unasked actions :=
    running.resumes
  have nothing : Unasked [] := fun _ _ => List.not_mem_nil
  cases listed with
  | closed | incomplete | unreadable | outOfTurn => cases good
  | @refused _ _ _ reason opened =>
      have refusal : Unasked [.send (.refusal reason)] := by simp [Unasked]
      exact ⟨⟨running.link, running.own, opened, running.running, nothing, others⟩,
        running.unasked.append refusal⟩
  | accepted =>
      have welcome : Unasked [.send .welcome, .startKeepalive] := by simp [Unasked]
      exact ⟨⟨running.link, running.own, nofun, running.running, nothing, others⟩,
        running.unasked.append welcome⟩
  | pong =>
      have pong : Unasked [.pongReceived] := by simp [Unasked]
      exact ⟨⟨running.link, running.own, running.opened, running.running, nothing, others⟩,
        running.unasked.append pong⟩
  | report =>
      exact ⟨⟨running.link, running.own, running.opened, running.running, nothing, others⟩,
        running.unasked⟩

theorem Session.Running.pass {session : Session} (running : session.Running index)
    (pending : Pending) : (session.pass pending).Running index :=
  ⟨running.link, running.own, running.opened, running.running, fun _ _ => List.not_mem_nil,
    running.resumes⟩

theorem CarriesOn.sound {session : Session} {actions : List Action} {last : Worker}
    {notes : List Note} (carries : CarriesOn now session actions last notes)
    (running : session.Running index) (unasked : Unasked actions) : last.Sound index := by
  cases carries with
  | @write keepalive packet rest performed =>
      refine .running ⟨running.link, running.own, running.opened, rfl, running.unasked, ?_⟩ nofun
      rintro other deadline later ⟨⟩ session flag member
      exact unasked session flag ((Session.mem_of_perform performed).2 member)
  | drain performed =>
      exact .running ⟨running.link, running.own, running.opened, running.running,
        running.unasked, running.resumes⟩ nofun

/-- A session that has ended does nothing. -/
theorem Turns.still_of_ended (turns : Turns directory now hub worker turn)
    (resting : worker.task = .rest) {outcome : Outcome}
    (ended : worker.session.phase = .ended outcome) : turn = ⟨hub, worker, []⟩ := by
  cases turns with
  | idle => rfl
  | ends _ running =>
      have goesOn := running resting
      rw [Session.outcome?, ended] at goesOn
      cases goesOn
  | reads _ other | requests _ other | pings _ other | wrote _ other | resumes _ other =>
      rw [ended] at other
      cases other
  | stops draining | handles draining | finds draining =>
      rw [resting] at draining
      cases draining
  | drops unheard =>
      cases unheard with
      | unknown draining | dead draining =>
          rw [resting] at draining
          cases draining
  | holds calling | posts calling =>
      rw [resting] at calling
      cases calling

theorem Turns.sound (turns : Turns directory now hub worker turn) (sound : worker.Sound index) :
    turn.worker.Sound index := by
  cases sound with
  | @ended session outcome link own closed ended =>
      rw [turns.still_of_ended rfl ended]
      exact .ended link own closed ended
  | @running session task running ahead =>
      obtain ⟨link, own, opened, goesOn, unasked, resumes⟩ := running
      cases turns with
      | idle => exact .running ⟨link, own, opened, goesOn, unasked, resumes⟩ ahead
      | ends => exact .ended link own rfl rfl
      | reads => exact .running ⟨link, own, opened, goesOn, unasked, resumes⟩ nofun
      | requests | pings => exact .running ⟨link, own, opened, rfl, unasked, nofun⟩ nofun
      | wrote | stops => exact .running ⟨link, own, opened, rfl, unasked, nofun⟩ nofun
      | resumes resting writing carries =>
          exact carries.sound ⟨link, own, opened, goesOn, unasked, resumes⟩ (resumes writing)
      | handles draining noReport called good carries =>
          obtain ⟨advanced, quiet⟩ := Session.Running.advance
            ⟨link, own, opened, goesOn, unasked, resumes⟩ good called
          exact carries.sound advanced quiet
      | finds draining reported =>
          refine .running ⟨link, own, opened, goesOn, unasked, resumes⟩ ?_
          rintro _ _ ⟨⟩
          exact reported
      | @drops pending _ _ unheard carries | @posts pending _ _ _ posting carries =>
          exact carries.sound
            (Session.Running.pass ⟨link, own, opened, goesOn, unasked, resumes⟩ pending) unasked
      | @holds pending notifier calling live =>
          refine .running ⟨link, own, opened, goesOn, unasked, resumes⟩ ?_
          rintro _ _ ⟨⟩
          obtain rfl : task = .call pending notifier := calling
          exact ahead rfl

/-! ### What others can tell of a turn -/

def Note.posted? : Note → Option (LinkId × Reading × Bool)
  | .reported pending (some (link, accepted)) => some (link, pending.reading, accepted)
  | .reported _ none | .began _ => none

def Note.report? : Note → Option (Pending × Option (LinkId × Bool))
  | .reported pending posted => some (pending, posted)
  | .began _ => none

def Note.requested? : Note → Option Command
  | .began (.request session flag) => some ⟨session, flag⟩
  | .began _ | .reported .. => none

/-- A good packet that is no report changes nothing that is shared, unless a station is claimed. -/
theorem Session.handled_of_noReport {session : Session} {handled : Handled}
    (noReport : session.reportAhead? = none)
    (called : handle directory hub session.engine session.buffer = handled)
    (good : handled.verdict = .good) :
    (handled.hub = hub ∧ handled.engine.state = session.engine.state) ∨
      ∃ station, session.engine.state = .connected ∧
        handled.engine.state = .authenticated station ∧
        handled.hub =
          { hub with stations := hub.stations.set station (some session.engine.link) } := by
  have listed := handling_handle directory hub session.engine session.buffer
  rw [called] at listed
  cases listed with
  | closed | incomplete | unreadable | outOfTurn => cases good
  | refused | pong => exact Or.inl ⟨rfl, rfl⟩
  | accepted fresh => exact Or.inr ⟨_, fresh, rfl, rfl⟩
  | @report station report consumed held decoded =>
      have ahead : session.reportAhead? = some ⟨station, report, consumed⟩ :=
        reportAhead?_eq_some_iff.mpr ⟨held, decoded⟩
      rw [noReport] at ahead
      cases ahead

namespace CarriesOn

variable {session : Session} {actions : List Action} {last : Worker} {notes : List Note}

theorem engine (carries : CarriesOn now session actions last notes) :
    last.session.engine = session.engine := by
  cases carries <;> rfl

theorem target? (carries : CarriesOn now session actions last notes) :
    last.task.target? = none := by
  cases carries <;> rfl

theorem outcome? (carries : CarriesOn now session actions last notes)
    (running : session.outcome? = none) : last.session.outcome? = none := by
  cases carries with
  | write => rfl
  | drain => exact running

theorem posted (carries : CarriesOn now session actions last notes) :
    notes.filterMap Note.posted? = [] := by
  cases carries <;> rfl

theorem requested (carries : CarriesOn now session actions last notes)
    (unasked : Unasked actions) : notes.filterMap Note.requested? = [] := by
  cases carries with
  | drain => rfl
  | @write keepalive packet rest performed =>
      obtain ⟨member, -⟩ := Session.mem_of_perform performed
      cases packet with
      | request session flag => exact absurd member (unasked session flag)
      | _ => rfl

theorem report? (carries : CarriesOn now session actions last notes) :
    notes.filterMap Note.report? = [] := by
  cases carries <;> rfl

theorem buffer (carries : CarriesOn now session actions last notes) :
    last.session.buffer = session.buffer := by
  cases carries <;> rfl

end CarriesOn

/-- A turn that handles a report: the report is at the front of the buffer and is taken out of it,
and its reading is posted at most once. -/
structure Reports (hub : Hub) (worker : Worker) (turn : Turn Worker Note) (pending : Pending)
    (posted : Option (LinkId × Bool)) : Prop where
  ahead : worker.session.reportAhead? = some pending
  passed : turn.worker.session.buffer = worker.session.buffer.drop pending.consumed
  once : turn.notes.filterMap Note.report? = [(pending, posted)]
  unheard : posted = none → turn.hub = hub ∧ Unheard hub worker pending
  heard : ∀ {link : LinkId} {accepted : Bool}, posted = some (link, accepted) →
    worker.task.target? = some (pending, link) ∧ accepted = hub.browsers.accepts link ∧
      turn.hub =
        { hub with browsers := (hub.browsers.post link pending.reading).release link }

namespace Turns

variable (turns : Turns directory now hub worker turn)

include turns

theorem sessions : turn.hub.sessions = hub.sessions := by
  cases turns with
  | ends => exact sessions_close hub worker.session.engine
  | handles draining noReport called good carries =>
      rcases Session.handled_of_noReport noReport called good with
        ⟨same, _⟩ | ⟨station, _, _, same⟩
      · dsimp only
        rw [same]
      · dsimp only
        rw [same]
  | _ => rfl

/-- To browsers a turn is at most one post. -/
theorem postsReading :
    hub.browsers.Posts turn.hub.browsers (turn.notes.filterMap Note.posted?) := by
  cases turns with
  | ends =>
      apply Links.Posts.still
      exact congrArg Links.mailboxes (browsers_close hub worker.session.engine)
  | handles draining noReport called good carries =>
      rw [carries.posted]
      apply Links.Posts.still
      rcases Session.handled_of_noReport noReport called good with
        ⟨same, _⟩ | ⟨station, _, _, same⟩
      · dsimp only
        rw [same]
      · dsimp only
        rw [same]
  | resumes resting writing carries =>
      rw [carries.posted]
      exact .still rfl
  | drops unheard carries =>
      rw [List.filterMap_cons_none rfl, carries.posted]
      exact .still rfl
  | holds => exact .still (Links.mailboxes_hold ..)
  | @posts pending link last notes posting carries =>
      simp only [List.filterMap_cons, Note.posted?, carries.posted]
      apply Links.Posts.posts
      rw [Links.mailboxes_release, Links.mailboxes_post]
  | _ => exact .still rfl

/-- Of its own mailbox a session takes at most the request that it takes up for writing. -/
theorem takesCommand (sound : worker.Sound index) :
    hub.devices.Receives index turn.hub.devices (worker.session.outcome? = none)
      (turn.worker.session.outcome? = none) (turn.notes.filterMap Note.requested?) := by
  cases sound with
  | @ended session outcome link own closed ended =>
      rw [turns.still_of_ended rfl ended]
      exact .still rfl Iff.rfl
  | @running session task running ahead =>
      obtain ⟨link, own, opened, goesOn, unasked, resumes⟩ := running
      cases turns with
      | idle | reads | finds | holds => exact .still rfl Iff.rfl
      | ends =>
          refine .closes ?_ nofun
          change ((((close hub session.engine).1.devices.release session.link).closeMailbox
            session.link).mailboxes) = _
          rw [devices_close, Links.mailboxes_closeMailbox, Links.mailboxes_release, link]
      | requests resting waiting first =>
          rw [link] at first
          refine .takes first ?_ (iff_of_true rfl goesOn)
          change (hub.devices.take session.link).mailboxes = _
          rw [Links.mailboxes_take, link]
      | pings | wrote | stops => exact .still rfl (iff_of_true rfl goesOn)
      | resumes resting writing carries =>
          rw [carries.requested (resumes writing)]
          exact .still rfl (iff_of_true (carries.outcome? goesOn) goesOn)
      | handles draining noReport called good carries =>
          obtain ⟨advanced, quiet⟩ := Session.Running.advance
            ⟨link, own, opened, goesOn, unasked, resumes⟩ good called
          rw [carries.requested quiet]
          refine .still ?_ (iff_of_true (carries.outcome? goesOn) goesOn)
          rcases Session.handled_of_noReport noReport called good with
            ⟨same, _⟩ | ⟨station, _, _, same⟩
          · dsimp only
            rw [same]
          · dsimp only
            rw [same]
      | drops unheard carries | posts posting carries =>
          rw [List.filterMap_cons_none rfl, carries.requested unasked]
          exact .still rfl (iff_of_true (carries.outcome? goesOn) goesOn)

theorem state {station : Station} (held : worker.session.engine.state = .authenticated station) :
    turn.worker.session.engine.state = .authenticated station ∨
      turn.worker.session.engine.state = .closed := by
  cases turns with
  | ends => exact Or.inr rfl
  | handles draining noReport called good carries =>
      rw [carries.engine]
      rcases Session.handled_of_noReport noReport called good with
        ⟨_, same⟩ | ⟨other, fresh, _, _⟩
      · exact Or.inl (same.trans held)
      · rw [held] at fresh
        cases fresh
  | resumes resting writing carries | drops unheard carries | posts posting carries =>
      rw [carries.engine]
      exact Or.inl held
  | _ => exact Or.inl held

theorem closed (sound : worker.Sound index) (closed : worker.session.engine.state = .closed) :
    turn.worker.session.engine.state = .closed := by
  cases sound with
  | running running => exact absurd closed running.opened
  | ended link own isClosed ended =>
      rw [turns.still_of_ended rfl ended]
      exact isClosed

/-- A station that leads to somebody else did so before, and one that leads to this session is the
one it holds. -/
theorem claims (own : worker.session.engine.link = index)
    (claimed : ∀ station, hub.stations.get station = some index →
      worker.session.engine.state = .authenticated station) {station : Station} {link : LinkId}
    (leads : turn.hub.stations.get station = some link) :
    (link = index ∧ turn.worker.session.engine.state = .authenticated station) ∨
      (link ≠ index ∧ hub.stations.get station = some link) := by
  -- Unless a station is claimed or given up, the map and the state are as before.
  have unchanged (same : hub.stations.get station = some link)
      (state : turn.worker.session.engine.state = worker.session.engine.state) :
      (link = index ∧ turn.worker.session.engine.state = .authenticated station) ∨
        (link ≠ index ∧ hub.stations.get station = some link) := by
    by_cases isOwn : link = index
    · subst isOwn
      exact Or.inl ⟨rfl, state.trans (claimed station same)⟩
    · exact Or.inr ⟨isOwn, same⟩
  cases turns with
  | ends =>
      change (close hub worker.session.engine).1.stations.get station = some link at leads
      unfold close at leads
      cases state : worker.session.engine.state with
      | authenticated held =>
          simp only [state, Hub.leaveDevice, PerStation.get_set] at leads
          by_cases given : station = held
          · rw [if_pos given] at leads
            cases leads
          · rw [if_neg given] at leads
            refine Or.inr ⟨?_, leads⟩
            rintro rfl
            have other := claimed station leads
            rw [state] at other
            cases other
            exact given rfl
      | connected | closed =>
          simp only [state] at leads
          refine Or.inr ⟨?_, leads⟩
          rintro rfl
          have other := claimed station leads
          rw [state] at other
          cases other
  | handles draining noReport called good carries =>
      rcases Session.handled_of_noReport noReport called good with
        ⟨same, state⟩ | ⟨held, fresh, accepted, same⟩
      · rw [same] at leads
        exact unchanged leads (by rw [carries.engine]; exact state)
      · simp only [same, PerStation.get_set] at leads
        by_cases given : station = held
        · rw [if_pos given] at leads
          cases leads
          rw [carries.engine, given]
          exact Or.inl ⟨own, accepted⟩
        · rw [if_neg given] at leads
          refine Or.inr ⟨?_, leads⟩
          rintro rfl
          have other := claimed station leads
          rw [fresh] at other
          cases other
  | resumes resting writing carries =>
      exact unchanged leads (congrArg Engine.state carries.engine)
  | drops unheard carries | posts posting carries =>
      apply unchanged leads
      rw [carries.engine]
      rfl
  | _ => exact unchanged leads rfl

/-- The notifier that a session is about to use was used before, or is found right now. -/
theorem target {pending : Pending} {link : LinkId}
    (target : turn.worker.task.target? = some (pending, link)) :
    worker.task.target? = some (pending, link) ∨
      hub.findNotifier pending.report.session = some link := by
  cases turns with
  | idle => exact Or.inl target
  | finds draining ahead found =>
      cases target
      exact Or.inr found
  | holds calling =>
      cases target
      rw [calling]
      exact Or.inl rfl
  | resumes resting writing carries | handles draining noReport called good carries
  | drops unheard carries | posts posting carries =>
      rw [carries.target?] at target
      cases target
  | _ => cases target

/-- A turn handles no report, or one. -/
theorem reports (sound : worker.Sound index) :
    turn.notes.filterMap Note.report? = [] ∨
      ∃ pending posted, Reports hub worker turn pending posted := by
  cases sound with
  | @ended session outcome link own closed ended =>
      rw [turns.still_of_ended rfl ended]
      exact Or.inl rfl
  | @running session task running ahead =>
      cases turns with
      | resumes resting writing carries | handles draining noReport called good carries =>
          exact Or.inl carries.report?
      | @drops pending last notes unheard carries =>
          refine Or.inr ⟨pending, none, ?_, carries.buffer, ?_, fun _ => ⟨rfl, unheard⟩, nofun⟩
          · cases unheard with
            | unknown draining isAhead => exact isAhead
            | @dead notifier calling =>
                obtain rfl : task = .call pending notifier := calling
                exact ahead rfl
          · simp only [List.filterMap_cons, Note.report?, carries.report?]
      | @posts pending link last notes posting carries =>
          obtain rfl : task = .post pending link := posting
          refine Or.inr ⟨pending, some (link, hub.browsers.accepts link), ahead rfl,
            carries.buffer, ?_, nofun, ?_⟩
          · simp only [List.filterMap_cons, Note.report?, carries.report?]
          · rintro _ _ ⟨⟩
            exact ⟨rfl, rfl, rfl⟩
      | _ => exact Or.inl rfl

/-- A report that is noted is the only one. -/
theorem reports_of_mem (sound : worker.Sound index) {pending : Pending}
    {posted : Option (LinkId × Bool)} (noted : .reported pending posted ∈ turn.notes) :
    Reports hub worker turn pending posted := by
  rcases turns.reports sound with nothing | ⟨only, answer, reports⟩
  · cases List.filterMap_eq_nil_iff.mp nothing _ noted
  · have member : (pending, posted) ∈ turn.notes.filterMap Note.report? :=
      List.mem_filterMap.mpr ⟨_, noted, rfl⟩
    rw [reports.once] at member
    cases List.mem_singleton.mp member
    exact reports

end Turns

end Turns

end Device

/-! ## Browsers -/

namespace Browser

def Untold (replies : List Reply) : Prop :=
  ∀ reading, Reply.reading reading ∉ replies

/-- The stations that a request for readings is still to be passed on to, with its length. -/
def Task.remaining? : Task → Option (List UInt8 × Nat)
  | .forward stationIds consumed => some (stationIds, consumed)
  | .post station _ stationIds consumed => some (station.toByte :: stationIds, consumed)
  | .rest | .drain => none

structure Session.Running (index : Nat) (session : Session) : Prop where
  link : session.link = index
  running : session.outcome = none
  untold : Untold session.engine.replies

/-- The task is about the request at the front of the buffer. -/
def Session.Awaits (session : Session) (task : Task) : Prop :=
  ∀ {stationIds consumed}, task.remaining? = some (stationIds, consumed) →
    ∃ listed, session.readingsAhead? = some (listed, consumed) ∧ stationIds <:+ listed

inductive Worker.Sound (index : Nat) : Worker → Prop where
  | running {session : Session} {task : Task} (running : session.Running index)
      (awaits : session.Awaits task) : Sound index ⟨session, task⟩
  | ended {session : Session} {outcome : Outcome} (link : session.link = index)
      (ended : session.outcome = some outcome) : Sound index ⟨session, .rest⟩

def Note.posted? : Note → Option (LinkId × Command × Bool)
  | .asked _ link command accepted => some (link, command, accepted)
  | .enqueued _ => none

def Note.told? : Note → Option Reading
  | .enqueued (.reply (.reading reading)) => some reading
  | .enqueued _ | .asked .. => none

theorem posted_enqueued (messages : List Message) :
    (messages.map Note.enqueued).filterMap Note.posted? = [] := by
  rw [List.filterMap_map]
  exact List.filterMap_eq_nil_iff.mpr fun _ _ => rfl

theorem told_replies {replies : List Reply} (untold : Untold replies) :
    ((replies.map Message.reply).map Note.enqueued).filterMap Note.told? = [] := by
  rw [List.filterMap_map, List.filterMap_map]
  apply List.filterMap_eq_nil_iff.mpr
  intro reply member
  cases reply with
  | stations entries => rfl
  | reading reading => exact absurd member (untold reading)

theorem told_pings {pings : List Message} (allPings : ∀ message ∈ pings, message = .ping) :
    (pings.map Note.enqueued).filterMap Note.told? = [] := by
  rw [List.filterMap_map]
  apply List.filterMap_eq_nil_iff.mpr
  intro message member
  obtain rfl := allPings message member
  rfl

section Turns

variable {directory : Directory} {now : Instant} {hub : Hub} {index : Nat} {worker : Worker}
  {turn : Turn Worker Note}

theorem Answered.untold {replies : List Reply} {consumed : Nat}
    (answered : Answered directory hub worker replies consumed)
    (untold : Untold worker.session.engine.replies) : Untold replies := by
  cases answered with
  | readings => exact untold
  | stations =>
      intro reading member
      rcases List.mem_append.mp member with before | last
      · exact untold reading before
      · cases List.mem_singleton.mp last

theorem Turns.still_of_ended (turns : Turns directory now hub worker turn)
    (resting : worker.task = .rest) {outcome : Outcome}
    (ended : worker.session.outcome = some outcome) : turn = ⟨hub, worker, []⟩ := by
  cases turns with
  | idle => rfl
  | changes _ running | ends _ running =>
      rw [ended] at running
      cases running
  | delivers _ isOpen | reads _ isOpen =>
      have running := isOpen.1
      rw [ended] at running
      cases running
  | stops draining | breaches draining | begins draining =>
      rw [resting] at draining
      cases draining
  | answers answered =>
      cases answered with
      | stations draining | readings draining =>
          rw [resting] at draining
          cases draining
  | skips forwarding | finds forwarding =>
      rw [resting] at forwarding
      cases forwarding
  | posts posting =>
      rw [resting] at posting
      cases posting

theorem Turns.sound (turns : Turns directory now hub worker turn) (sound : worker.Sound index) :
    turn.worker.Sound index := by
  cases sound with
  | @ended session outcome link ended =>
      rw [turns.still_of_ended rfl ended]
      exact .ended link ended
  | @running session task running awaits =>
      obtain ⟨link, goesOn, untold⟩ := running
      cases turns with
      | idle => exact .running ⟨link, goesOn, untold⟩ awaits
      | ends => exact .ended link rfl
      | changes | delivers | reads | stops | breaches =>
          exact .running ⟨link, goesOn, untold⟩ nofun
      | answers => exact .running ⟨link, goesOn, fun _ => List.not_mem_nil⟩ nofun
      | @begins listed size draining ahead =>
          refine .running ⟨link, goesOn, untold⟩ ?_
          rintro _ _ ⟨⟩
          exact ⟨listed, ahead, List.suffix_rfl⟩
      | @skips raw stationIds consumed forwarding =>
          refine .running ⟨link, goesOn, untold⟩ ?_
          obtain rfl : task = .forward (raw :: stationIds) consumed := forwarding
          obtain ⟨listed, ahead, suffix⟩ := awaits rfl
          rintro _ _ ⟨⟩
          exact ⟨listed, ahead, (List.suffix_cons ..).trans suffix⟩
      | @finds station found stationIds consumed forwarding =>
          refine .running ⟨link, goesOn, untold⟩ ?_
          obtain rfl : task = .forward (station.toByte :: stationIds) consumed := forwarding
          rintro _ _ ⟨⟩
          exact awaits rfl
      | @posts station target stationIds consumed posting =>
          refine .running ⟨link, goesOn, untold⟩ ?_
          obtain rfl : task = .post station target stationIds consumed := posting
          obtain ⟨listed, ahead, suffix⟩ := awaits rfl
          rintro _ _ ⟨⟩
          exact ⟨listed, ahead, (List.suffix_cons ..).trans suffix⟩

/-! ### What others can tell of a turn -/

/-- A turn that asks the device of a station for a reading: the request at the front of the buffer
lists the station, and the command is posted once. -/
inductive Asks (hub : Hub) (worker : Worker) : Turn Worker Note → Prop where
  | post {station : Station} {link : LinkId} {listed stationIds : List UInt8} {consumed : Nat}
      (task : worker.task = .post station link stationIds consumed)
      (ahead : worker.session.readingsAhead? = some (listed, consumed))
      (lists : station.toByte ∈ listed) :
      Asks hub worker
        ⟨{ hub with devices := (hub.devices.post link worker.session.command).release link },
          ⟨worker.session, .forward stationIds consumed⟩,
          [.asked station link worker.session.command (hub.devices.accepts link)]⟩

namespace Turns

variable (turns : Turns directory now hub worker turn)

include turns

theorem stations : turn.hub.stations = hub.stations := by
  cases turns <;> rfl

/-- A turn of a session that has begun registers no session. -/
theorem mem_sessions {entry : Uuid × BrowserEntry} (member : entry ∈ turn.hub.sessions) :
    entry ∈ hub.sessions := by
  cases turns with
  | ends => exact (List.mem_filter.mp member).1
  | _ => exact member

theorem command : turn.worker.session.command = worker.session.command := by
  cases turns <;> rfl

/-- To devices a turn is at most one post. -/
theorem postsCommand :
    hub.devices.Posts turn.hub.devices (turn.notes.filterMap Note.posted?) := by
  cases turns with
  | changes | answers =>
      rw [posted_enqueued]
      exact .still rfl
  | finds => exact .still (Links.mailboxes_hold ..)
  | posts =>
      apply Links.Posts.posts
      rw [Links.mailboxes_release, Links.mailboxes_post]
  | _ => exact .still rfl

/-- Of its own mailbox a session takes at most the reading that it puts into the outbox. -/
theorem takesReading (sound : worker.Sound index) :
    hub.browsers.Receives index turn.hub.browsers (worker.session.outcome = none)
      (turn.worker.session.outcome = none) (turn.notes.filterMap Note.told?) := by
  cases sound with
  | @ended session outcome link ended =>
      rw [turns.still_of_ended rfl ended]
      exact .still rfl Iff.rfl
  | @running session task running awaits =>
      obtain ⟨link, goesOn, untold⟩ := running
      cases turns with
      | changes _ _ allPings =>
          rw [told_pings allPings]
          exact .still rfl Iff.rfl
      | answers answered =>
          rw [told_replies (answered.untold untold)]
          exact .still rfl Iff.rfl
      | delivers resting isOpen first =>
          rw [link] at first
          refine .takes first ?_ Iff.rfl
          change (hub.browsers.take session.link).mailboxes = _
          rw [Links.mailboxes_take, link]
      | ends =>
          refine .closes ?_ nofun
          change ((hub.browsers.release session.link).closeMailbox session.link).mailboxes = _
          rw [Links.mailboxes_closeMailbox, Links.mailboxes_release, link]
      | _ => exact .still rfl Iff.rfl

/-- The device that a session is about to post to was held before, or is found right now. -/
theorem holding {station : Station} {link : LinkId} {stationIds : List UInt8} {consumed : Nat}
    (holds : turn.worker.task = .post station link stationIds consumed) :
    worker.task = .post station link stationIds consumed ∨
      hub.findDevice station = some link := by
  cases turns with
  | idle => exact Or.inl holds
  | finds forwarding found =>
      cases holds
      exact Or.inr found
  | _ => cases holds

/-- A turn posts nothing, or it asks one device for a reading. -/
theorem asks (sound : worker.Sound index) :
    turn.notes.filterMap Note.posted? = [] ∨ Asks hub worker turn := by
  cases sound with
  | @ended session outcome link ended =>
      rw [turns.still_of_ended rfl ended]
      exact Or.inl rfl
  | @running session task running awaits =>
      cases turns with
      | changes | answers => exact Or.inl (posted_enqueued _)
      | @posts station link stationIds consumed posting =>
          obtain rfl : task = .post station link stationIds consumed := posting
          obtain ⟨listed, ahead, suffix⟩ := awaits rfl
          exact Or.inr (.post rfl ahead (suffix.subset List.mem_cons_self))
      | _ => exact Or.inl rfl

end Turns

end Turns

end Browser

end StationRelay
