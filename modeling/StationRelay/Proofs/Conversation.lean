import StationRelay.Proofs.Language
import StationRelay.Proofs.Switchboard

/-!
# Conversations with devices

`Conversing` is the invariant that ties the log of a device session to its
engine, its keepalive, its pending actions and its mailbox: a session that
waits is `Idle`, and one that writes will be.  `Orderly` is what follows for
every session of every run.
-/

namespace StationRelay

namespace Device

/-! ## The invariant -/

/-- The deeds that stand for a ping, at its beginning and once it is out. -/
def pingMarks : List Deed := [.began .ping, .wrote .ping]

/-- Pings are separated by pongs, and when the next ping is due the last one was answered. -/
def PingsKept (timer : KeepaliveTimer) (log : List Deed) : Prop :=
  ∀ mark ∈ pingMarks, PongBetween mark log ∧ (timer = .ping → Answered mark log)

/-- How far a session without pending work has got. -/
inductive Standing (hub : Hub) (link : LinkId) (engine : Engine) (keepalive : Keepalive)
    (log : List Deed) : Prop where
  | unaccepted {refusals : List Refusal} (connected : engine.state = .connected)
      (stopped : keepalive.pending = none) (unclaimed : hub.Unclaimed link)
      (said : begun log = .greeting :: refusals.map .refusal) :
      Standing hub link engine keepalive log
  | accepted {station : Station} {due : Instant} {timer : KeepaliveTimer}
      {refusals : List Refusal} {served : List Downlink}
      (held : engine.state = .authenticated station)
      (pending : keepalive.pending = some (due, timer))
      (said : begun log = .greeting :: refusals.map .refusal ++ .welcome :: served)
      (all : ∀ packet ∈ served, Served packet) (pings : PingsKept timer log) :
      Standing hub link engine keepalive log

/-- A session that has no pending work, and whose packets are all out. -/
structure Idle (hub : Hub) (link : LinkId) (engine : Engine) (keepalive : Keepalive)
    (log : List Deed) : Prop where
  noActions : engine.actions = []
  allOut : written log = begun log
  standing : Standing hub link engine keepalive log

structure Spoken (log : List Deed) : Prop where
  word : Word (begun log)
  written_prefix_begun : written log <+: begun log
  pongBetween : ∀ mark ∈ pingMarks, PongBetween mark log

namespace Continuation

/-- Nothing is written before the session waits again. -/
def Quiet : Continuation → Prop
  | .resume actions => ∀ packet, .send packet ∉ actions
  | _ => True

/-- The keepalive once the continuation is carried out. -/
def settle (now : Instant) (keepalive : Keepalive) : Continuation → Keepalive
  | .resume actions => (Session.perform now keepalive actions).1
  | .awaitPong => keepalive.pingSent now
  | .listen | .wait => keepalive

def deeds : Continuation → List Deed
  | .resume actions => Session.performDeeds actions
  | _ => []

end Continuation

/-- What holds of a session and its log between two events.  A session that writes will be idle
once the packet is out and its continuation is carried out. -/
inductive Conversing (hub : Hub) (session : Session) (log : List Deed) : Prop where
  | waiting (waiting : session.phase = .waiting)
      (idle : Idle hub session.link session.engine session.keepalive log) :
      Conversing hub session log
  | writing {packet : Downlink} {deadline : Instant} {next : Continuation}
      (writing : session.phase = .writing packet deadline next) (quiet : next.Quiet)
      (out : ∀ now, Idle hub session.link session.engine (next.settle now session.keepalive)
        (log ++ .wrote packet :: next.deeds)) :
      Conversing hub session log
  | ended {outcome : Outcome} (ended : session.phase = .ended outcome)
      (closed : session.engine.state = .closed) (spoken : Spoken log) :
      Conversing hub session log

/-! ## What is known of every log -/

section Spoken

variable {hub : Hub} {link : LinkId} {engine : Engine} {keepalive : Keepalive}
  {log deeds : List Deed}

/-- Before the welcome no ping is begun, nor written. -/
theorem mark_not_mem {refusals : List Refusal}
    (said : begun log = .greeting :: refusals.map .refusal)
    (out : written log = begun log) : ∀ mark ∈ pingMarks, mark ∉ log := by
  have noPing : Downlink.ping ∉ begun log := said ▸ Word.ping_not_mem refusals
  intro mark member inLog
  rcases List.mem_cons.mp member with rfl | member
  · exact noPing (List.mem_filterMap.mpr ⟨_, inLog, rfl⟩)
  · rw [List.mem_singleton.mp member] at inLog
    exact noPing (out ▸ List.mem_filterMap.mpr ⟨_, inLog, rfl⟩)

theorem Idle.spoken (idle : Idle hub link engine keepalive log) : Spoken log := by
  refine ⟨?_, idle.allOut ▸ List.prefix_refl _, ?_⟩
  · cases idle.standing with
    | unaccepted connected stopped unclaimed said =>
        rw [said]
        exact .unaccepted _
    | accepted held pending said all pings =>
        rw [said]
        exact .accepted _ all
  · intro mark member
    cases idle.standing with
    | unaccepted connected stopped unclaimed said =>
        exact .of_not_mem (mark_not_mem said idle.allOut mark member)
    | accepted held pending said all pings => exact (pings mark member).1

/-- Deeds that begin no packet may be taken away from the end. -/
theorem Spoken.of_append (spoken : Spoken (log ++ deeds)) (silent : begun deeds = []) :
    Spoken log := by
  have said : begun (log ++ deeds) = begun log := by
    rw [begun_append, silent, List.append_nil]
  refine ⟨said ▸ spoken.word, ?_, fun mark member => (spoken.pongBetween mark member).of_append⟩
  have inAll : written (log ++ deeds) <+: begun log := said ▸ spoken.written_prefix_begun
  rw [written_append] at inAll
  exact (List.prefix_append _ _).trans inAll

theorem begun_quiet {next : Continuation} (quiet : next.Quiet) : begun next.deeds = [] := by
  cases next with
  | resume actions =>
      change begun (Session.performDeeds actions) = []
      induction actions with
      | nil => rfl
      | cons action rest ih =>
          have quietRest : (Continuation.resume rest).Quiet := fun packet member =>
            quiet packet (List.mem_cons_of_mem _ member)
          cases action with
          | send packet => exact absurd (List.mem_cons_self ..) (quiet packet)
          | startKeepalive => exact ih quietRest
          | pongReceived => exact ih quietRest
  | _ => rfl

theorem perform_quiet {actions : List Action} (quiet : (Continuation.resume actions).Quiet)
    (now : Instant) (keepalive : Keepalive) : (Session.perform now keepalive actions).2 = none := by
  induction actions generalizing keepalive with
  | nil => rfl
  | cons action rest ih =>
      have quietRest : (Continuation.resume rest).Quiet := fun packet member =>
        quiet packet (List.mem_cons_of_mem _ member)
      cases action with
      | send packet => exact absurd (List.mem_cons_self ..) (quiet packet)
      | startKeepalive => exact ih quietRest _
      | pongReceived => exact ih quietRest _

theorem Conversing.idle {session : Session} (conversing : Conversing hub session log)
    (waiting : session.phase = .waiting) :
    Idle hub session.link session.engine session.keepalive log := by
  cases conversing with
  | waiting _ idle => exact idle
  | writing other | ended other =>
      rw [waiting] at other
      cases other

theorem Conversing.whenOut {session : Session} {packet : Downlink} {deadline : Instant}
    {next : Continuation} (conversing : Conversing hub session log)
    (writing : session.phase = .writing packet deadline next) :
    next.Quiet ∧ ∀ now, Idle hub session.link session.engine (next.settle now session.keepalive)
      (log ++ .wrote packet :: next.deeds) := by
  cases conversing with
  | writing other quiet out =>
      rw [writing] at other
      cases other
      exact ⟨quiet, out⟩
  | waiting other | ended other =>
      rw [writing] at other
      cases other

theorem Conversing.spoken {session : Session} (conversing : Conversing hub session log) :
    Spoken log := by
  cases conversing with
  | waiting waiting idle => exact idle.spoken
  | writing writing quiet out => exact (out 0).spoken.of_append (begun_quiet quiet)
  | ended ended closed spoken => exact spoken

end Spoken

/-! ## One packet, one request, one ping -/

section Exchanges

variable {hub after : Hub} {link : LinkId} {engine : Engine} {keepalive later : Keepalive}
  {log deeds : List Deed} {station : Station} {due : Instant} {timer : KeepaliveTimer}

theorem PingsKept.append (kept : PingsKept timer log) (free : ∀ mark ∈ pingMarks, mark ∉ deeds) :
    PingsKept timer (log ++ deeds) := by
  intro mark member
  obtain ⟨separated, answered⟩ := kept mark member
  exact ⟨separated.append (free mark member), fun next => (answered next).append (free mark member)⟩

/-- A pong answers the last ping, whatever is due next. -/
theorem PingsKept.pong (kept : PingsKept timer log) (free : ∀ mark ∈ pingMarks, mark ∉ deeds)
    (pong : .handled .pong ∈ deeds) (next : KeepaliveTimer) : PingsKept next (log ++ deeds) := by
  intro mark member
  exact ⟨(kept mark member).1.append (free mark member),
    fun _ => .of_pong (free mark member) pong⟩

/-- A ping may be sent when the last one was answered. -/
theorem PingsKept.ping (kept : PingsKept .ping log) :
    PingsKept .pongTimeout (log ++ [.began .ping, .wrote .ping]) := by
  intro mark member
  obtain ⟨separated, answered⟩ := kept mark member
  refine ⟨?_, nofun⟩
  rcases List.mem_cons.mp member with rfl | member
  · rw [← List.singleton_append, ← List.append_assoc]
    exact (separated.concat (answered rfl)).append (by decide)
  · rw [List.mem_singleton.mp member] at separated answered ⊢
    rw [← List.singleton_append, ← List.append_assoc]
    exact (separated.append (by decide)).concat ((answered rfl).append (by decide))

theorem Idle.kept (idle : Idle hub link engine keepalive log)
    (held : engine.state = .authenticated station) :
    ∃ due timer, keepalive.pending = some (due, timer) ∧ PingsKept timer log := by
  cases idle.standing with
  | unaccepted connected =>
      rw [held] at connected
      cases connected
  | accepted _ pending _ _ pings => exact ⟨_, _, pending, pings⟩

theorem Idle.extend (idle : Idle hub link engine keepalive log)
    (held : engine.state = .authenticated station) (pending : later.pending = some (due, timer))
    (out : written deeds = begun deeds) (allNew : ∀ packet ∈ begun deeds, Served packet)
    (pings : PingsKept timer (log ++ deeds)) : Idle after link engine later (log ++ deeds) := by
  refine ⟨idle.noActions, ?_, ?_⟩
  · rw [written_append, begun_append, idle.allOut, out]
  · cases idle.standing with
    | unaccepted connected =>
        rw [held] at connected
        cases connected
    | @accepted _ _ _ refusals served _ _ said all _ =>
        have saidAll : begun (log ++ deeds) =
            .greeting :: refusals.map .refusal ++ .welcome :: (served ++ begun deeds) := by
          rw [begun_append, said, List.append_assoc]
          rfl
        refine .accepted held pending saidAll ?_ pings
        intro packet member
        exact (List.mem_append.mp member).elim (all packet) (allNew packet)

theorem Idle.serve (idle : Idle hub link engine keepalive log)
    (held : engine.state = .authenticated station) (out : written deeds = begun deeds)
    (allNew : ∀ packet ∈ begun deeds, Served packet) (free : ∀ mark ∈ pingMarks, mark ∉ deeds) :
    Idle after link engine keepalive (log ++ deeds) := by
  obtain ⟨due, timer, pending, kept⟩ := idle.kept held
  exact idle.extend held pending out allNew (kept.append free)

theorem Idle.pong (idle : Idle hub link engine keepalive log)
    (held : engine.state = .authenticated station) (now : Instant) :
    Idle after link engine (keepalive.pongReceived now)
      (log ++ [.handled .pong, .passedPong]) := by
  obtain ⟨due, timer, pending, kept⟩ := idle.kept held
  have running : ∃ due next, (keepalive.pongReceived now).pending = some (due, next) := by
    unfold Keepalive.pongReceived
    split
    · exact ⟨_, _, rfl⟩
    · exact ⟨due, timer, pending⟩
  obtain ⟨dueNext, next, pendingNext⟩ := running
  exact idle.extend held pendingNext rfl nofun (kept.pong (by decide) (by decide) next)

theorem Idle.ping (idle : Idle hub link engine keepalive log)
    (pending : keepalive.pending = some (due, .ping)) (now : Instant) :
    Idle after link engine (keepalive.pingSent now) (log ++ [.began .ping, .wrote .ping]) := by
  cases idle.standing with
  | unaccepted connected stopped =>
      rw [stopped] at pending
      cases pending
  | accepted held running said all pings =>
      rw [pending] at running
      cases running
      refine idle.extend held rfl rfl ?_ pings.ping
      intro packet member
      rw [List.mem_singleton.mp member]
      exact .ping

theorem Idle.request {command : Command} (idle : Idle hub link engine keepalive log)
    (first : hub.devices.first? link = some command) :
    Idle after link engine keepalive
      (log ++ [.began (.request command.session command.flag),
        .wrote (.request command.session command.flag)]) := by
  cases idle.standing with
  | unaccepted connected stopped unclaimed =>
      rw [Links.first?_eq, unclaimed.items] at first
      cases first
  | accepted held =>
      refine idle.serve held rfl ?_ ?_
      · intro packet member
        rw [List.mem_singleton.mp member]
        exact .request _ _
      · simp [pingMarks]

theorem Idle.refuse {directory : Directory} {device : Uuid} {raw : UInt8} {reason : Refusal}
    (idle : Idle hub link engine keepalive log)
    (refused : Refused directory hub engine device raw reason) :
    Idle hub link engine keepalive
      (log ++ [.handled (.hello device raw), .began (.refusal reason),
        .wrote (.refusal reason)]) := by
  cases idle.standing with
  | @unaccepted refusals connected stopped unclaimed said =>
      refine ⟨idle.noActions, ?_, ?_⟩
      · rw [written_append, begun_append, idle.allOut]
        rfl
      · have saidAll : begun (log ++ [.handled (.hello device raw), .began (.refusal reason),
            .wrote (.refusal reason)]) = .greeting :: (refusals ++ [reason]).map .refusal := by
          rw [begun_append, said, List.map_append]
          rfl
        exact .unaccepted connected stopped unclaimed saidAll
  | @accepted station _ _ _ _ held =>
      have holding : engine.IsAuthenticated := engine.isAuthenticated_iff.mpr ⟨station, held⟩
      have repeated : reason = .stationTaken := by
        cases refused with
        | repeated => rfl
        | outOfRange fresh | malformed fresh | unregistered fresh | taken fresh =>
            exact absurd holding fresh
      subst repeated
      refine idle.serve held rfl ?_ ?_
      · intro packet member
        rw [List.mem_singleton.mp member]
        exact .refusal
      · simp [pingMarks]

theorem Idle.accept (idle : Idle hub link engine keepalive log)
    (connected : engine.state = .connected) (device : Uuid) (raw : UInt8) (now : Instant) :
    Idle after link (engine.accept station).takeActions (keepalive.start now)
      (log ++ [.handled (.hello device raw), .began .welcome, .wrote .welcome,
        .startedKeepalive]) := by
  cases idle.standing with
  | accepted held =>
      rw [held] at connected
      cases connected
  | @unaccepted refusals _ stopped unclaimed said =>
      have free : ∀ mark ∈ pingMarks, mark ∉ log ++ [.handled (.hello device raw),
          .began .welcome, .wrote .welcome, .startedKeepalive] := by
        intro mark member inAll
        refine (List.mem_append.mp inAll).elim (mark_not_mem said idle.allOut mark member) ?_
        rcases List.mem_cons.mp member with rfl | member
        · simp
        · rw [List.mem_singleton.mp member]
          simp
      refine ⟨rfl, ?_, ?_⟩
      · rw [written_append, begun_append, idle.allOut]
        rfl
      · have saidAll : begun (log ++ [.handled (.hello device raw), .began .welcome,
            .wrote .welcome, .startedKeepalive]) =
              .greeting :: refusals.map .refusal ++ .welcome :: [] := by
          rw [begun_append, said]
          rfl
        refine .accepted rfl rfl saidAll nofun ?_
        intro mark member
        exact ⟨.of_not_mem (free mark member), fun _ => .of_not_mem (free mark member)⟩

end Exchanges

/-! ## From one event to the next -/

section Events

variable {directory : Directory} {now : Instant} {hub after : Hub} {session last : Session}
  {log deeds : List Deed}

theorem Idle.taken {link : LinkId} {engine other : Engine} {keepalive : Keepalive}
    (idle : Idle hub link engine keepalive log) (same : other.takeActions = engine.takeActions) :
    Idle hub link other.takeActions keepalive log := by
  have own : engine.takeActions = engine := by rw [Engine.takeActions, ← idle.noActions]
  rw [same, own]
  exact idle

theorem actions_record {engine : Engine} (noActions : engine.actions = [])
    (actions : List Action) : (engine.record actions).actions = actions := by
  rw [Engine.record, noActions]
  rfl

theorem actions_refuse {engine : Engine} (noActions : engine.actions = []) (reason : Refusal) :
    (engine.refuse reason).actions = [.send (.refusal reason)] :=
  actions_record noActions _

theorem actions_accept {engine : Engine} (noActions : engine.actions = []) (station : Station) :
    (engine.accept station).actions = [.send .welcome, .startKeepalive] := by
  rw [Engine.accept, Engine.record]
  change engine.actions ++ _ = _
  rw [noActions]
  rfl

/-- What a good packet leads to: either the session is idle again, or it writes one answer and
is idle once that is out. -/
theorem Idle.front {handled : Handled} {keepalive : Keepalive}
    {reply : Option (Downlink × List Action)}
    (idle : Idle hub session.link session.engine session.keepalive log)
    (called : handle directory hub session.engine session.buffer = handled)
    (good : handled.verdict = .good)
    (performed :
      Session.perform now session.keepalive handled.engine.actions = (keepalive, reply)) :
    let seen := log ++ (Session.frontDeeds session.buffer ++
      Session.performDeeds handled.engine.actions)
    match reply with
    | none => Idle handled.hub session.link handled.engine.takeActions keepalive seen
    | some (packet, rest) => (Continuation.resume rest).Quiet ∧
        ∀ out, Idle handled.hub session.link handled.engine.takeActions
          ((Continuation.resume rest).settle out keepalive)
          (seen ++ .wrote packet :: (Continuation.resume rest).deeds) := by
  have listed := handling_handle directory hub session.engine session.buffer
  rw [called] at listed
  intro seen
  cases listed with
  | closed | incomplete | unreadable | outOfTurn => cases good
  | refused opened decoded refused =>
      have front := Session.frontDeeds_of_decode decoded
      simp only [actions_refuse idle.noActions] at performed
      cases performed
      refine ⟨nofun, fun out => ?_⟩
      simp only [seen, front, actions_refuse idle.noActions, List.append_assoc]
      exact (idle.refuse refused).taken rfl
  | accepted fresh decoded admissible =>
      have front := Session.frontDeeds_of_decode decoded
      simp only [actions_accept idle.noActions] at performed
      cases performed
      refine ⟨by simp [Continuation.Quiet], fun out => ?_⟩
      simp only [seen, front, actions_accept idle.noActions, List.append_assoc]
      exact idle.accept fresh _ _ out
  | pong held decoded =>
      have front := Session.frontDeeds_of_decode decoded
      simp only [actions_record idle.noActions] at performed
      cases performed
      simp only [seen, front, actions_record idle.noActions]
      exact (idle.pong held now).taken rfl
  | report held decoded =>
      have front := Session.frontDeeds_of_decode decoded
      simp only [idle.noActions] at performed
      cases performed
      simp only [seen, front, idle.noActions, Session.performDeeds, List.append_nil]
      refine Idle.taken (idle.serve held rfl ?_ ?_) rfl
      · intro packet member
        cases member
      · simp [pingMarks]

theorem Conversing.drains (drains : Session.Drains directory now hub session deeds after last)
    (idle : Idle hub session.link session.engine session.keepalive log) :
    Conversing after last (log ++ deeds) := by
  induction drains generalizing log with
  | stop =>
      rw [List.append_nil]
      exact .waiting rfl idle
  | breach =>
      rw [List.append_nil]
      exact .ended rfl rfl idle.spoken
  | write nonempty called good performed =>
      obtain ⟨quiet, out⟩ := idle.front called good performed
      exact .writing rfl quiet out
  | next nonempty called good performed goesOn ih =>
      rw [← List.append_assoc]
      exact ih (idle.front called good performed)

theorem Conversing.steps {event : Event} (conversing : Conversing hub session log)
    (steps : Session.Steps directory now hub session event deeds after last) :
    Conversing after last (log ++ deeds) := by
  cases steps with
  | idle =>
      rw [List.append_nil]
      exact conversing
  | ends =>
      rw [List.append_nil]
      exact .ended rfl rfl conversing.spoken
  | reads waiting nonempty drains => exact .drains drains (conversing.idle waiting)
  | requests waiting first =>
      refine .writing rfl trivial fun out => ?_
      rw [List.append_assoc]
      exact (conversing.idle waiting).request first
  | pings waiting pending due =>
      refine .writing rfl trivial fun out => ?_
      rw [List.append_assoc]
      exact (conversing.idle waiting).ping pending out
  | listens writing | waits writing | awaits writing =>
      exact .waiting rfl ((conversing.whenOut writing).2 now)
  | replies writing performed =>
      -- No packet leads to two answers, so nothing is left to write behind the first.
      have nothing := perform_quiet (conversing.whenOut writing).1 now session.keepalive
      rw [performed] at nothing
      cases nothing
  | resumes writing performed drains =>
      have idle := (conversing.whenOut writing).2 now
      rw [Continuation.settle, performed] at idle
      rw [← List.cons_append, ← List.append_assoc]
      exact .drains drains idle

theorem Conversing.start (settings : Settings) (now : Instant) {hub : Hub}
    (unclaimed : hub.Unclaimed hub.devices.nextId) :
    Conversing (Session.start settings now hub).1 (Session.start settings now hub).2
      [.began .greeting] := by
  refine .writing rfl trivial fun out => ⟨rfl, rfl, ?_⟩
  have stillUnclaimed : (Session.start settings now hub).1.Unclaimed hub.devices.nextId :=
    ⟨unclaimed.stations, (hub.devices.items_create ..).trans unclaimed.items⟩
  have said : begun [.began .greeting, .wrote .greeting] =
      .greeting :: ([] : List Refusal).map .refusal := rfl
  exact .unaccepted rfl rfl stillUnclaimed said

theorem Conversing.bystander (conversing : Conversing hub session log)
    (unclaimed : hub.Unclaimed session.link → after.Unclaimed session.link) :
    Conversing after session log := by
  have idles : ∀ {engine : Engine} {keepalive : Keepalive} {log : List Deed},
      Idle hub session.link engine keepalive log →
        Idle after session.link engine keepalive log := by
    intro engine keepalive log idle
    refine ⟨idle.noActions, idle.allOut, ?_⟩
    cases idle.standing with
    | unaccepted connected stopped own said =>
        exact .unaccepted connected stopped (unclaimed own) said
    | accepted held pending said all pings => exact .accepted held pending said all pings
  cases conversing with
  | waiting waiting idle => exact .waiting waiting (idles idle)
  | writing writing quiet out => exact .writing writing quiet fun now => idles (out now)
  | ended ended closed spoken => exact .ended ended closed spoken

end Events

/-! ## The station of a session -/

/-- The state of an engine may go on to this one: a station that is held is kept until the engine
is closed. -/
inductive State.LeadsTo : State → State → Prop where
  | fresh (after : State) : LeadsTo .connected after
  | keeps (station : Station) : LeadsTo (.authenticated station) (.authenticated station)
  | closes (state : State) : LeadsTo state .closed

namespace State.LeadsTo

theorem refl (state : State) : state.LeadsTo state := by
  cases state with
  | connected => exact .fresh _
  | authenticated station => exact .keeps station
  | closed => exact .closes _

theorem trans {first second third : State} (left : first.LeadsTo second)
    (right : second.LeadsTo third) : first.LeadsTo third := by
  cases left with
  | fresh => exact .fresh _
  | keeps => exact right
  | closes =>
      cases right
      exact .closes _

variable {directory : Directory} {now : Instant} {hub after : Hub} {session last : Session}
  {deeds : List Deed}

theorem handle (directory : Directory) (hub : Hub) (engine : Engine) (buffer : Bytes) :
    engine.state.LeadsTo (Device.handle directory hub engine buffer).engine.state := by
  have listed := handling_handle directory hub engine buffer
  generalize Device.handle directory hub engine buffer = handled at listed ⊢
  cases listed with
  | accepted fresh =>
      rw [fresh]
      exact .fresh _
  | _ => exact .refl _

theorem drains (drains : Session.Drains directory now hub session deeds after last) :
    session.engine.state.LeadsTo last.engine.state := by
  induction drains with
  | stop => exact .refl _
  | breach => exact .closes _
  | write nonempty called good performed =>
      subst called
      exact .handle ..
  | next nonempty called good performed goesOn ih =>
      subst called
      exact (handle ..).trans ih

theorem steps {event : Event}
    (steps : Session.Steps directory now hub session event deeds after last) :
    session.engine.state.LeadsTo last.engine.state := by
  cases steps with
  | ends => exact .closes _
  | reads waiting nonempty goesOn | resumes writing performed goesOn =>
      have leads := drains goesOn
      exact leads
  | _ => exact .refl _

end State.LeadsTo

end Device

/-! ## Every session of every run -/

namespace Switchboard

open Device

def deedsOf (index : Nat) (board : Switchboard) : Move → List Deed :=
  ofDevice [.began .greeting] Session.deeds index board

/-- The session with this number converses, or there is none and nothing was said. -/
structure Following (index : Nat) (board : Switchboard) (log : List Deed) : Prop where
  wired : board.Wired
  watched : Watched (Conversing board.hub) board.devices[index]? log

/-- A session stays where it is, and keeps its station until it is closed. -/
theorem Wired.leadsTo_step {board : Switchboard} (wired : board.Wired) {index : Nat}
    {session : Session} (found : board.devices[index]? = some session) (move : Move) :
    ∃ last, (board.step move).devices[index]? = some last ∧
      session.engine.state.LeadsTo last.engine.state := by
  by_cases own : move.isEventOf index
  · cases move with
    | device number now event =>
        subst own
        exact ⟨_, devices_step_device found now event, .steps (session.steps_step ..)⟩
    | _ => cases own
  · exact ⟨session, (wired.bystander found own).1, .refl _⟩

theorem Wired.leadsTo_run {board : Switchboard} (wired : board.Wired) {index : Nat}
    {session : Session} (found : board.devices[index]? = some session) (moves : List Move) :
    ∃ last, (board.run moves).devices[index]? = some last ∧
      session.engine.state.LeadsTo last.engine.state := by
  induction moves generalizing board session with
  | nil => exact ⟨session, found, .refl _⟩
  | cons move moves ih =>
      obtain ⟨next, foundNext, leads⟩ := wired.leadsTo_step found move
      obtain ⟨last, foundLast, leadsLast⟩ := ih (wired.step move) foundNext
      exact ⟨last, foundLast, leads.trans leadsLast⟩

theorem Following.step {index : Nat} {board : Switchboard} {log : List Deed} (move : Move)
    (following : Following index board log) :
    Following index (board.step move) (log ++ deedsOf index board move) := by
  obtain ⟨wired, watched⟩ := following
  refine ⟨wired.step move, ?_⟩
  have fate := deviceFate_step [.began .greeting] Session.deeds index board move
  unfold deedsOf
  generalize found : board.devices[index]? = before, (board.step move).devices[index]? = after,
    ofDevice [.began .greeting] Session.deeds index board move = said at fate watched ⊢
  cases fate with
  | acts session now event =>
      rw [step_device found]
      exact .somebody (watched.holds.steps (session.steps_step ..))
  | stays session other =>
      rw [List.append_nil]
      refine .somebody (watched.holds.bystander ?_)
      rw [(wired.links found).1]
      exact (wired.bystander found other).2
  | begins now =>
      cases watched
      exact .somebody (.start _ _ (wired.unclaimed (Nat.le_of_eq wired.length.symm)))
  | nobody =>
      cases watched
      exact .nobody

theorem following_run (directory : Directory) (settings : Settings) (moves : List Move)
    (index : Nat) :
    Following index ((start directory settings).run moves)
      ((start directory settings).trace (deedsOf index) moves) := by
  have begins : Following index (start directory settings) [] :=
    ⟨Wired.start directory settings, .nobody⟩
  exact run_induction Following.step begins moves

/-- What every run keeps of a device session and of what was done in it. -/
structure Orderly (session : Session) (log : List Deed) : Prop where
  written_prefix_word : ∃ word, Word word ∧ written log <+: word
  /-- No ping and no request goes out before the welcome. -/
  welcome_first : ∀ {before after : List Downlink} {packet : Downlink},
    written log = before ++ packet :: after →
      packet = .ping ∨ (∃ name flag, packet = .request name flag) → .welcome ∈ before
  welcome_once : (written log).count .welcome ≤ 1
  pong_between : ∀ mark ∈ pingMarks, PongBetween mark log
  /-- Whenever the session waits its keepalive runs exactly if the device is accepted. -/
  running_iff : session.phase = .waiting →
    (session.keepalive.IsRunning ↔ session.engine.IsAuthenticated)

theorem orderly_of_conversing {hub : Hub} {session : Session} {log : List Deed}
    (conversing : Conversing hub session log) : Orderly session log := by
  obtain ⟨word, ⟨rest, inWord⟩, pongs⟩ := conversing.spoken
  refine ⟨⟨_, word, rest, inWord⟩, ?_, ?_, pongs, ?_⟩
  · intro before after packet split late
    have splitWord : begun log = before ++ packet :: (after ++ rest) := by
      rw [← inWord, split, List.append_assoc, List.cons_append]
    rcases late with rfl | ⟨name, flag, rfl⟩
    · exact word.welcome_mem splitWord (by decide) (by decide) (fun _ => nofun)
    · exact word.welcome_mem splitWord nofun nofun (fun _ => nofun)
  · have sublist : (written log).Sublist (begun log) := by
      rw [← inWord]
      exact List.sublist_append_left _ rest
    exact Nat.le_trans (sublist.count_le _) word.count_welcome_le
  · intro waiting
    rw [session.engine.isAuthenticated_iff, Keepalive.IsRunning]
    cases (conversing.idle waiting).standing with
    | unaccepted connected stopped => simp [connected, stopped]
    | accepted held pending => simp [held, pending]

/-- In every run every device session keeps to its language, separates its pings by pongs, runs
its keepalive while the device is accepted, and keeps the station until it is closed. -/
theorem orderly_run (directory : Directory) (settings : Settings) (moves : List Move) {index : Nat}
    {session : Session}
    (found : ((start directory settings).run moves).devices[index]? = some session) :
    Orderly session ((start directory settings).trace (deedsOf index) moves) ∧
      ∀ station, session.engine.state = .authenticated station → ∀ more, ∃ last,
        ((start directory settings).run (moves ++ more)).devices[index]? = some last ∧
          (last.engine.state = .authenticated station ∨ last.engine.state = .closed) := by
  have following := following_run directory settings moves index
  have conversing := (found ▸ following.watched).holds
  refine ⟨orderly_of_conversing conversing, ?_⟩
  intro station held more
  obtain ⟨last, foundLast, leads⟩ := following.wired.leadsTo_run found more
  refine ⟨last, by rwa [run_append], ?_⟩
  rw [held] at leads
  generalize last.engine.state = state at leads ⊢
  cases leads with
  | keeps => exact Or.inl rfl
  | closes => exact Or.inr rfl

/-- A device is accepted, answers a ping and is pinged again. -/
theorem orderly_run_two_pings :
    let directory : Directory := ⟨fun _ => true, Station.defaultName⟩
    let hello := Uplink.encode (.hello ⟨List.replicate 16 0x40, rfl⟩ 1)
    let moves : List Move :=
      [.connectDevice 0, .device 0 1 .written, .device 0 2 (.read hello), .device 0 3 .written,
        .device 0 10003 .keepaliveDue, .device 0 10004 .written,
        .device 0 10005 (.read (Uplink.encode .pong)), .device 0 20005 .keepaliveDue,
        .device 0 20006 .written]
    let log := (start directory {}).trace (deedsOf 0) moves
    ∃ session, ((start directory {}).run moves).devices[0]? = some session ∧
      Orderly session log ∧ written log = [.greeting, .welcome, .ping, .ping] := by
  intro directory hello moves log
  have there : ((start directory {}).run moves).devices[0]?.isSome = true := by decide +kernel
  obtain ⟨session, found⟩ := Option.isSome_iff_exists.mp there
  exact ⟨session, found, (orderly_run directory {} moves found).1, by decide +kernel⟩

end Switchboard

end StationRelay
