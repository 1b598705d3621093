import StationRelay.Config
import StationRelay.Proofs.BrowserTurns
import StationRelay.Proofs.Clock

/-!
# The deadlines of a run

A session sets a deadline by adding one of its durations to the current instant,
and in no other way.  So a property that every such sum has at the instants of a
run is a property of every deadline in it.  `Governed` says this of one session,
together with the limits that the session has from its settings, and
`governed_run` says it of all sessions of a run.
-/

namespace StationRelay

/-- Every deadline that can be set now has the property. -/
def Fresh (Holds : Instant → Prop) (settings : Settings) (now : Instant) : Prop :=
  ∀ entry ∈ settings.durations, Holds (now + entry.2)

namespace Keepalive

/-- The keepalive has the durations of the settings, and its deadline has the property. -/
structure Governed (Holds : Instant → Prop) (settings : Settings) (keepalive : Keepalive) :
    Prop where
  pingInterval : keepalive.pingInterval = settings.pingInterval
  pongTimeout : keepalive.pongTimeout = settings.pongTimeout
  pending : ∀ {deadline timer}, keepalive.pending = some (deadline, timer) → Holds deadline

namespace Governed

variable {Holds : Instant → Prop} {settings : Settings} {keepalive : Keepalive} {now : Instant}

theorem stopped :
    (Keepalive.stopped settings.pingInterval settings.pongTimeout).Governed Holds settings :=
  ⟨rfl, rfl, nofun⟩

theorem stop (governed : keepalive.Governed Holds settings) :
    keepalive.stop.Governed Holds settings :=
  ⟨governed.pingInterval, governed.pongTimeout, nofun⟩

variable (fresh : Fresh Holds settings now)

include fresh

theorem start (governed : keepalive.Governed Holds settings) :
    (keepalive.start now).Governed Holds settings := by
  refine ⟨governed.pingInterval, governed.pongTimeout, ?_⟩
  rintro deadline timer ⟨⟩
  rw [governed.pingInterval]
  exact fresh ("ping_interval_ms", settings.pingInterval) (by simp [Settings.durations])

theorem pingSent (governed : keepalive.Governed Holds settings) :
    (keepalive.pingSent now).Governed Holds settings := by
  refine ⟨governed.pingInterval, governed.pongTimeout, ?_⟩
  rintro deadline timer ⟨⟩
  rw [governed.pongTimeout]
  exact fresh ("pong_timeout_ms", settings.pongTimeout) (by simp [Settings.durations])

theorem pongReceived (governed : keepalive.Governed Holds settings) :
    (keepalive.pongReceived now).Governed Holds settings := by
  unfold Keepalive.pongReceived
  split
  · exact governed.start fresh
  · exact governed

end Governed

end Keepalive

/-! ## Devices -/

namespace Device.Session

/-- The session keeps to the settings, and every deadline of it has the property. -/
structure Governed (Holds : Instant → Prop) (settings : Settings) (session : Session) :
    Prop where
  own : session.settings = settings
  keepalive : session.keepalive.Governed Holds settings
  handshake : Holds session.handshakeDeadline
  reading : Holds session.readDeadline
  writing : ∀ {packet deadline next}, session.phase = .writing packet deadline next →
    Holds deadline

section Governed

variable {Holds : Instant → Prop} {settings : Settings} {directory : Directory} {now : Instant}
  {hub after : Hub} {session last : Session} {deeds : List Deed}

theorem Governed.of_waiting (governed : session.Governed Holds settings) :
    Governed Holds settings { session with phase := .waiting } :=
  ⟨governed.own, governed.keepalive, governed.handshake, governed.reading, nofun⟩

theorem Governed.finish (governed : session.Governed Holds settings) (hub : Hub)
    (outcome : Outcome) : (Session.finish hub session outcome).2.Governed Holds settings :=
  ⟨governed.own, governed.keepalive.stop, governed.handshake, governed.reading, nofun⟩

theorem Governed.setKeepalive {keepalive : Keepalive} (governed : session.Governed Holds settings)
    (replaced : keepalive.Governed Holds settings) :
    Governed Holds settings { session with keepalive } :=
  ⟨governed.own, replaced, governed.handshake, governed.reading, governed.writing⟩

variable (fresh : Fresh Holds settings now)

include fresh

theorem governed_perform {keepalive : Keepalive} (governed : keepalive.Governed Holds settings)
    (actions : List Action) : (perform now keepalive actions).1.Governed Holds settings := by
  induction actions generalizing keepalive with
  | nil => exact governed
  | cons action rest ih =>
      cases action with
      | send packet => exact governed
      | startKeepalive => exact ih (governed.start fresh)
      | pongReceived => exact ih (governed.pongReceived fresh)

theorem Governed.perform {keepalive : Keepalive} {actions : List Action}
    {sending : Option (Downlink × List Action)} (governed : session.Governed Holds settings)
    (performed : Session.perform now session.keepalive actions = (keepalive, sending)) :
    Governed Holds settings { session with keepalive } := by
  have replaced := governed_perform fresh governed.keepalive actions
  rw [performed] at replaced
  exact governed.setKeepalive replaced

theorem Governed.write (governed : session.Governed Holds settings) (packet : Downlink)
    (next : Continuation) : (session.write now packet next).Governed Holds settings := by
  refine ⟨governed.own, governed.keepalive, governed.handshake, governed.reading, ?_⟩
  rintro _ _ _ ⟨⟩
  rw [governed.own]
  exact fresh ("write_timeout_ms", settings.writeTimeout) (by simp [Settings.durations])

theorem holds_readTimeout (governed : session.Governed Holds settings) :
    Holds (now + session.settings.readTimeout) := by
  rw [governed.own]
  exact fresh ("read_timeout_ms", settings.readTimeout) (by simp [Settings.durations])

theorem holds_handshakeTimeout (governed : session.Governed Holds settings) :
    Holds (now + session.settings.handshakeTimeout) := by
  rw [governed.own]
  exact fresh ("handshake_timeout_ms", settings.handshakeTimeout) (by simp [Settings.durations])

theorem Governed.drains (governed : session.Governed Holds settings)
    (drains : Drains directory now hub session deeds after last) :
    last.Governed Holds settings := by
  induction drains with
  | stop => exact governed.of_waiting
  | breach => exact governed.finish _ _
  | write nonempty called good performed =>
      have advanced := governed.perform fresh performed
      refine Governed.write fresh ?_ _ _
      exact ⟨advanced.own, advanced.keepalive, advanced.handshake, advanced.reading,
        advanced.writing⟩
  | next nonempty called good performed goesOn ih =>
      have advanced := governed.perform fresh performed
      exact ih ⟨advanced.own, advanced.keepalive, advanced.handshake, advanced.reading,
        advanced.writing⟩

theorem Governed.steps {event : Event} (governed : session.Governed Holds settings)
    (steps : Steps directory now hub session event deeds after last) :
    last.Governed Holds settings := by
  cases steps with
  | idle => exact governed
  | ends => exact governed.finish _ _
  | reads waiting nonempty drains =>
      refine Governed.drains fresh ?_ drains
      exact ⟨governed.own, governed.keepalive, governed.handshake, holds_readTimeout fresh governed,
        governed.writing⟩
  | requests | pings => exact governed.write fresh _ _
  | listens =>
      exact ⟨governed.own, governed.keepalive, holds_handshakeTimeout fresh governed,
        holds_readTimeout fresh governed, nofun⟩
  | waits => exact governed.of_waiting
  | awaits => exact (governed.setKeepalive (governed.keepalive.pingSent fresh)).of_waiting
  | replies writing performed => exact (governed.perform fresh performed).write fresh _ _
  | resumes writing performed drains => exact (governed.perform fresh performed).drains fresh drains

omit session in
theorem Governed.start (hub : Hub) :
    (Session.start settings now hub).2.Governed Holds settings := by
  apply Governed.write fresh
  refine ⟨rfl, .stopped, ?handshake, ?reading, nofun⟩
  case handshake =>
    exact fresh ("handshake_timeout_ms", settings.handshakeTimeout) (by simp [Settings.durations])
  case reading =>
    exact fresh ("read_timeout_ms", settings.readTimeout) (by simp [Settings.durations])

end Governed

end Device.Session

/-! ## Browsers -/

namespace Browser

def Sender.Governed (Holds : Instant → Prop) (sender : Sender) : Prop :=
  ∀ sending ∈ sender.inFlight, Holds sending.2

section Sender

variable {Holds : Instant → Prop} {sender : Sender} {deadline : Instant}

theorem Sender.Governed.dispatch (governed : sender.Governed Holds) (holds : Holds deadline) :
    (sender.dispatch deadline).1.Governed Holds := by
  unfold Sender.dispatch
  split
  · exact governed
  · split
    · exact governed
    · split
      · rintro sending ⟨⟩
        exact holds
      · exact governed

theorem Sender.Governed.enqueue (governed : sender.Governed Holds) (holds : Holds deadline)
    (message : Message) : (sender.enqueue deadline message).1.Governed Holds := by
  unfold Sender.enqueue
  dsimp only
  split
  · exact Sender.Governed.dispatch governed holds
  · exact governed

theorem Sender.Governed.complete (sender : Sender) (holds : Holds deadline) :
    (sender.complete deadline).1.Governed Holds :=
  Sender.Governed.dispatch nofun holds

end Sender

namespace Session

/-- The session keeps to the settings, and every deadline of it has the property; the one of an
incomplete request says nothing while there is none. -/
structure Governed (Holds : Instant → Prop) (settings : Settings) (session : Session) :
    Prop where
  own : session.settings = settings
  limit : session.engine.maxPayload = settings.maxPayload
  keepalive : session.keepalive.Governed Holds settings
  reading : session.buffer ≠ [] → Holds session.readDeadline
  sending : session.sender.Governed Holds

end Session

theorem maxPayload_handle (directory : Directory) (hub : Hub) (engine : Engine) (buffer : Bytes) :
    (handle directory hub engine buffer).engine.maxPayload = engine.maxPayload := by
  unfold handle
  split
  · split
    · rename_i request _
      cases request <;> rfl
    · rfl
  · rfl
  · rfl
  · rfl

section Governed

variable {Holds : Instant → Prop} {settings : Settings} {directory : Directory} {now : Instant}
  {progress last : Progress}

theorem Session.Governed.setKeepalive {keepalive : Keepalive}
    (governed : progress.session.Governed Holds settings)
    (replaced : keepalive.Governed Holds settings) :
    (progress.setKeepalive keepalive).session.Governed Holds settings :=
  ⟨governed.own, governed.limit, replaced, governed.reading, governed.sending⟩

theorem Session.Governed.advance {handled : Handled}
    (governed : progress.session.Governed Holds settings)
    (same : handled.engine.maxPayload = progress.session.engine.maxPayload) :
    (progress.advance handled).session.Governed Holds settings := by
  refine ⟨governed.own, same.trans governed.limit, governed.keepalive, ?_, governed.sending⟩
  intro remaining
  apply governed.reading
  intro empty
  exact remaining (by simp [Progress.advance, empty])

theorem Session.Governed.conclude (governed : progress.session.Governed Holds settings) :
    progress.conclude.session.Governed Holds settings := by
  rcases progress.conclude_cases with same | ⟨_, outcome, same⟩
  · rw [same]
    exact governed
  · rw [same]
    exact ⟨governed.own, governed.limit, governed.keepalive, governed.reading, governed.sending⟩

variable (fresh : Fresh Holds settings now)

include fresh

theorem Session.holds_sendDeadline {session : Session} (own : session.settings = settings) :
    Holds (session.sendDeadline now) := by
  rw [sendDeadline, own]
  exact fresh ("write_timeout_ms", settings.writeTimeout) (by simp [Settings.durations])

theorem Session.Governed.enqueue (governed : progress.session.Governed Holds settings)
    (message : Message) : (progress.enqueue now message).session.Governed Holds settings :=
  ⟨governed.own, governed.limit, governed.keepalive, governed.reading,
    governed.sending.enqueue (holds_sendDeadline fresh governed.own) message⟩

theorem Session.Governed.enqueueReplies (governed : progress.session.Governed Holds settings)
    (replies : List Reply) :
    (progress.enqueueReplies now replies).session.Governed Holds settings := by
  induction replies generalizing progress with
  | nil => exact governed
  | cons reply rest ih => exact ih (governed.enqueue fresh (.reply reply))

theorem Session.Governed.beginClose (governed : progress.session.Governed Holds settings)
    (breach : Breach) : (progress.beginClose now breach).session.Governed Holds settings := by
  let cleared : Progress := { progress with session := { progress.session with buffer := [] } }
  have kept : cleared.session.Governed Holds settings :=
    ⟨governed.own, governed.limit, governed.keepalive, fun nonempty => absurd rfl nonempty,
      governed.sending⟩
  have closing := kept.enqueue fresh (.close breach)
  exact ⟨closing.own, closing.limit, closing.keepalive, closing.reading, closing.sending⟩

theorem Session.Governed.drains (governed : progress.session.Governed Holds settings)
    (drains : Progress.Drains directory now progress last) :
    last.session.Governed Holds settings := by
  induction drains with
  | stop => exact governed
  | breach => exact governed.beginClose fresh _
  | next nonempty called good goesOn ih =>
      have same := called ▸ maxPayload_handle directory _ _ _
      exact ih ((governed.advance same).enqueueReplies fresh _)

theorem Session.Governed.acts {event : Event} {acted : Progress}
    (governed : progress.session.Governed Holds settings)
    (acts : Session.Acts directory now progress event acted) :
    acted.session.Governed Holds settings := by
  cases acts with
  | idle => exact governed
  | feeds isOpen nonempty drains =>
      refine Session.Governed.drains fresh ?_ drains
      refine ⟨governed.own, governed.limit, governed.keepalive, fun _ => ?_, governed.sending⟩
      change Holds (now + progress.session.settings.readTimeout)
      rw [governed.own]
      exact fresh ("read_timeout_ms", settings.readTimeout) (by simp [Settings.durations])
  | hears => exact governed.setKeepalive (governed.keepalive.pongReceived fresh)
  | @delivers reading isOpen first =>
      have told := governed.enqueue fresh (.reply (.reading reading))
      exact ⟨told.own, told.limit, told.keepalive, told.reading, told.sending⟩
  | pings =>
      exact (governed.enqueue fresh .ping).setKeepalive (governed.keepalive.pingSent fresh)
  | ends =>
      exact ⟨governed.own, governed.limit, governed.keepalive, governed.reading, governed.sending⟩
  | sends =>
      exact ⟨governed.own, governed.limit, governed.keepalive, governed.reading,
        .complete _ (holds_sendDeadline fresh governed.own)⟩
  | fails => exact ⟨governed.own, governed.limit, governed.keepalive, governed.reading, nofun⟩

theorem Session.Governed.step {session : Session} (governed : session.Governed Holds settings)
    (hub : Hub) (event : Event) :
    (session.step directory now hub event).session.Governed Holds settings := by
  rcases session.step_cases directory now hub event with
    ⟨_, same⟩ | ⟨acted, running, acts, result⟩
  · rw [same]
    exact governed
  · rw [result]
    have started : (Progress.of hub session).session.Governed Holds settings := governed
    exact (started.acts fresh acts).conclude

theorem Session.Governed.start (hub : Hub) (name : Uuid) (flag : TransportFlag) :
    (Session.start settings now hub name flag).2.Governed Holds settings := by
  have keepalive := Keepalive.Governed.stopped.start fresh
  have idle : Sender.idle.Governed Holds := fun _ sending => absurd sending (Option.not_mem_none _)
  simp only [Session.start]
  split
  · exact ⟨rfl, rfl, keepalive, fun nonempty => absurd rfl nonempty, idle⟩
  · exact ⟨rfl, rfl, keepalive, fun nonempty => absurd rfl nonempty, idle⟩

end Governed

end Browser

/-! ## Runs -/

namespace Switchboard

/-- Every session keeps to the settings, and every deadline has the property. -/
structure Governed (Holds : Instant → Prop) (settings : Settings) (board : Switchboard) :
    Prop where
  own : board.settings = settings
  devices : ∀ session ∈ board.devices, session.Governed Holds settings
  browsers : ∀ session ∈ board.browsers, session.Governed Holds settings

section Governed

variable {Holds : Instant → Prop} {settings : Settings} {board : Switchboard}

theorem Governed.start (Holds : Instant → Prop) (directory : Directory) (settings : Settings) :
    (start directory settings).Governed Holds settings :=
  ⟨rfl, fun _ none => absurd none List.not_mem_nil, fun _ none => absurd none List.not_mem_nil⟩

theorem Governed.step (governed : board.Governed Holds settings) {move : Move}
    (fresh : Fresh Holds settings move.instant) : (board.step move).Governed Holds settings := by
  obtain ⟨own, devices, browsers⟩ := governed
  cases move with
  | connectDevice now =>
      refine ⟨own, fun session member => ?_, browsers⟩
      rcases List.mem_append.mp member with old | new
      · exact devices session old
      · rw [List.mem_singleton.mp new, own]
        exact .start fresh board.hub
  | connectBrowser now name flag =>
      refine ⟨own, devices, fun session member => ?_⟩
      rcases List.mem_append.mp member with old | new
      · exact browsers session old
      · rw [List.mem_singleton.mp new, own]
        exact .start fresh board.hub name flag
  | device index now event =>
      rw [Switchboard.step]
      split
      · rename_i session found
        refine ⟨own, fun other member => ?_, browsers⟩
        rcases List.mem_or_eq_of_mem_set member with old | rfl
        · exact devices other old
        · have steps := session.steps_step board.directory now board.hub event
          exact (devices session (List.mem_of_getElem? found)).steps fresh steps
      · exact ⟨own, devices, browsers⟩
  | browser index now event =>
      rw [Switchboard.step]
      split
      · rename_i session found
        refine ⟨own, devices, fun other member => ?_⟩
        rcases List.mem_or_eq_of_mem_set member with old | rfl
        · exact browsers other old
        · exact (browsers session (List.mem_of_getElem? found)).step fresh board.hub event
      · exact ⟨own, devices, browsers⟩

/-- What every deadline has that can be set at the instants of a run, all of its deadlines have. -/
theorem governed_run (directory : Directory) {moves : List Move}
    (fresh : ∀ move ∈ moves, Fresh Holds settings move.instant) :
    ((start directory settings).run moves).Governed Holds settings := by
  have runs {board : Switchboard} (governed : board.Governed Holds settings) :
      (board.run moves).Governed Holds settings := by
    induction moves generalizing board with
    | nil => exact governed
    | cons move rest ih =>
        have head := fresh move List.mem_cons_self
        exact ih (fun other member => fresh other (List.mem_cons_of_mem move member))
          (governed.step head)
  exact runs (.start Holds directory settings)

end Governed

end Switchboard

end StationRelay
