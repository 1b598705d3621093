import StationRelay.Browser.Session

/-!
# What a browser session does

`Drains` is the loop over the buffer as a relation, round by round, and `Acts`
lists everything that one event can lead to before a closing session is asked
whether it is done.  `step_cases` says that the list is complete, and
`step_of_…` what the single events come to.
-/

namespace StationRelay

namespace Browser

def Breach.verdict : Breach → Verdict
  | .invalidRequest => .bad
  | .oversizeRequest => .oversize

namespace Sender

theorem outbox_dispatch (sender : Sender) (deadline : Instant) :
    (sender.dispatch deadline).1.outbox = sender.outbox := by
  unfold dispatch
  split
  · rfl
  · split
    · rfl
    · split <;> rfl

theorem waiting_enqueue (sender : Sender) (deadline : Instant) (message : Message) :
    (sender.enqueue deadline message).1.outbox.waiting = sender.outbox.waiting ++ [message] := by
  unfold enqueue
  dsimp only
  split
  · rw [outbox_dispatch]
    rfl
  · rfl

end Sender

namespace Session

variable {α : Type}

/-- The end of a session, if it comes between these two. -/
def ending (mark : Outcome → α) (session last : Session) : List α :=
  if session.outcome = none then (last.outcome.map mark).toList else []

@[simp] theorem ending_self (mark : Outcome → α) (session : Session) :
    session.ending mark session = [] := by
  unfold ending
  split
  · rename_i running
    rw [running]
    rfl
  · rfl

theorem ending_of_running {session : Session} (running : session.outcome = none)
    (mark : Outcome → α) (last : Session) :
    session.ending mark last = (last.outcome.map mark).toList :=
  if_pos running

end Session

namespace Progress

def Stopped (directory : Directory) (progress : Progress) : Prop :=
  progress.session.buffer = [] ∨
    (handle directory progress.hub progress.session.engine progress.session.buffer).verdict =
      .indeterminate

/-- The loop over the buffer, request by request. -/
inductive Drains (directory : Directory) (now : Instant) : Progress → Progress → Prop where
  | stop {progress : Progress} (stopped : progress.Stopped directory) :
      Drains directory now progress progress
  | breach {progress : Progress} {breach : Breach} (nonempty : progress.session.buffer ≠ [])
      (verdict : (handle directory progress.hub progress.session.engine
        progress.session.buffer).verdict = breach.verdict) :
      Drains directory now progress (progress.beginClose now breach)
  | next {progress last : Progress} {handled : Handled} (nonempty : progress.session.buffer ≠ [])
      (called :
        handle directory progress.hub progress.session.engine progress.session.buffer = handled)
      (good : handled.verdict = .good)
      (goesOn : Drains directory now
        ((progress.advance handled).enqueueReplies now handled.engine.replies) last) :
      Drains directory now progress last

theorem drains_drain (directory : Directory) (now : Instant) (progress : Progress) :
    Drains directory now progress (progress.drain directory now) := by
  induction length : progress.session.buffer.length using Nat.strongRecOn generalizing progress with
  | _ count ih =>
      rw [drain]
      by_cases nonempty : progress.session.buffer ≠ []
      · rw [if_pos nonempty]
        dsimp only
        cases verdict : (handle directory progress.hub progress.session.engine
            progress.session.buffer).verdict with
        | good =>
            rw [dif_pos rfl]
            have shorter := progress.length_advance_lt verdict
            refine .next nonempty rfl verdict (ih _ ?_ _ rfl)
            rw [buffer_enqueueReplies]
            exact length ▸ shorter
        | indeterminate =>
            rw [dif_neg nofun, if_pos rfl]
            exact .stop (Or.inr verdict)
        | oversize =>
            rw [dif_neg nofun, if_neg nofun, if_pos rfl]
            exact .breach nonempty verdict
        | bad =>
            rw [dif_neg nofun, if_neg nofun, if_neg nofun]
            exact .breach nonempty verdict
      · rw [if_neg nonempty]
        exact .stop (Or.inl (Decidable.not_not.mp nonempty))

@[simp] theorem hub_enqueueReplies (now : Instant) (progress : Progress) (replies : List Reply) :
    (progress.enqueueReplies now replies).hub = progress.hub := by
  induction replies generalizing progress with
  | nil => rfl
  | cons reply rest ih => exact ih (progress.enqueue now (.reply reply))

/-- Replies change nothing but the sending side. -/
theorem exists_enqueueReplies (now : Instant) (progress : Progress) (replies : List Reply) :
    ∃ sender handed, progress.enqueueReplies now replies =
      { progress with
        session := { progress.session with sender }
        enqueued := progress.enqueued ++ replies.map .reply
        handed } := by
  induction replies generalizing progress with
  | nil => exact ⟨progress.session.sender, progress.handed, by simp [enqueueReplies]⟩
  | cons reply rest ih =>
      obtain ⟨sender, handed, result⟩ := ih (progress.enqueue now (.reply reply))
      refine ⟨sender, handed, ?_⟩
      change (progress.enqueue now (.reply reply)).enqueueReplies now rest = _
      rw [result]
      simp [enqueue]

/-- A session that is open has nothing to conclude. -/
theorem conclude_of_isOpen {progress : Progress} (isOpen : progress.session.IsOpen) :
    progress.conclude = progress := by
  unfold conclude
  rw [isOpen.1, isOpen.2]

def extend (now : Instant) (progress : Progress) (bytes : Bytes) : Progress :=
  { progress with session := { progress.session with
    buffer := progress.session.buffer ++ bytes
    readDeadline := now + progress.session.settings.readTimeout } }

def setKeepalive (progress : Progress) (keepalive : Keepalive) : Progress :=
  { progress with session := { progress.session with keepalive } }

end Progress

/-- What a client sends without ending the stream. -/
inductive Event.IsMessage : Event → Prop where
  | data (bytes : Bytes) : IsMessage (.data bytes)
  | pong : IsMessage .pong
  | control : IsMessage .control

namespace Session

def sent? (session : Session) : Event → Option Message
  | .sent => if session.outcome = none then session.sender.inFlight.map Prod.fst else none
  | _ => none

/-- The reasons for which an event ends an open session, with the outcome. -/
inductive Ending (session : Session) (now : Instant) : Event → Outcome → Prop where
  | endOfStream : Ending session now .streamEnded none
  | fault (fault : MessageFault) :
      Ending session now (.streamFailed fault) (some (.message fault))
  | noPong {deadline : Instant}
      (pending : session.keepalive.pending = some (deadline, .pongTimeout))
      (due : deadline ≤ now) :
      Ending session now .keepaliveDue (some (.pongTimeout session.settings.pongTimeout))
  | slowRequest (nonempty : session.buffer ≠ []) (due : session.readDeadline ≤ now) :
      Ending session now .readDue (some (.readTimeout session.settings.readTimeout))

inductive Failure (session : Session) (now deadline : Instant) : Event → SessionError → Prop where
  | fault (fault : MessageFault) :
      Failure session now deadline (.sendFailed fault) (.message fault)
  | overdue (due : deadline ≤ now) :
      Failure session now deadline .sendOverdue (.writeTimeout session.settings.writeTimeout)

/-- Everything that an event can lead to in a session that has not ended. -/
inductive Acts (directory : Directory) (now : Instant) (progress : Progress) :
    Event → Progress → Prop where
  | idle {event : Event} (quiet : progress.session.sent? event = none) :
      Acts directory now progress event progress
  | feeds {bytes : Bytes} {last : Progress} (isOpen : progress.session.IsOpen)
      (nonempty : bytes ≠ [])
      (drains : Progress.Drains directory now (progress.extend now bytes) last) :
      Acts directory now progress (.data bytes) last
  | hears (isOpen : progress.session.IsOpen) :
      Acts directory now progress .pong
        (progress.setKeepalive (progress.session.keepalive.pongReceived now))
  | delivers {reading : Reading} (isOpen : progress.session.IsOpen)
      (first : progress.hub.browsers.first? progress.session.link = some reading) :
      Acts directory now progress .reading
        ({ progress with
          hub := { progress.hub with
            browsers := progress.hub.browsers.take progress.session.link } }.enqueue now
          (.reply (.reading reading)))
  | pings {deadline : Instant} (isOpen : progress.session.IsOpen)
      (pending : progress.session.keepalive.pending = some (deadline, .ping))
      (due : deadline ≤ now) :
      Acts directory now progress .keepaliveDue
        ((progress.enqueue now .ping).setKeepalive (progress.session.keepalive.pingSent now))
  | ends {event : Event} {outcome : Outcome} (isOpen : progress.session.IsOpen)
      (ending : progress.session.Ending now event outcome) :
      Acts directory now progress event (progress.finish outcome)
  | sends {message : Message} {deadline : Instant}
      (inFlight : progress.session.sender.inFlight = some (message, deadline)) :
      Acts directory now progress .sent (progress.onSent now)
  | fails {event : Event} {message : Message} {deadline : Instant} {error : SessionError}
      (inFlight : progress.session.sender.inFlight = some (message, deadline))
      (failure : progress.session.Failure now deadline event error) :
      Acts directory now progress event (progress.onSendFailed error)

theorem acts_onOpen (directory : Directory) (now : Instant) {progress : Progress}
    (isOpen : progress.session.IsOpen) {event : Event}
    (quiet : progress.session.sent? event = none) :
    Acts directory now progress event (onOpen directory now progress event) := by
  cases event with
  | data bytes =>
      rw [onOpen, Progress.feed]
      by_cases nonempty : bytes = []
      · rw [if_pos nonempty]
        exact .idle quiet
      · rw [if_neg nonempty]
        exact .feeds isOpen nonempty (Progress.drains_drain directory now _)
  | pong => exact .hears isOpen
  | streamEnded => exact .ends isOpen .endOfStream
  | streamFailed fault => exact .ends isOpen (.fault fault)
  | reading =>
      rw [onOpen, Progress.takeReading]
      cases first : progress.hub.browsers.first? progress.session.link with
      | none => exact .idle quiet
      | some reading => exact .delivers isOpen first
  | keepaliveDue =>
      rw [onOpen, Progress.onKeepalive]
      rcases pending : progress.session.keepalive.pending with _ | ⟨deadline, timer⟩
      · exact .idle quiet
      · dsimp only
        by_cases due : deadline ≤ now
        · rw [if_pos due]
          cases timer with
          | ping => exact .pings isOpen pending due
          | pongTimeout => exact .ends isOpen (.noPong pending due)
        · rw [if_neg due]
          exact .idle quiet
  | readDue =>
      rw [onOpen]
      by_cases due : progress.session.buffer ≠ [] ∧ progress.session.readDeadline ≤ now
      · rw [if_pos due]
        exact .ends isOpen (.slowRequest due.1 due.2)
      · rw [if_neg due]
        exact .idle quiet
  | control | sent | sendFailed | sendOverdue => exact .idle quiet

theorem acts_onSend (directory : Directory) (now : Instant) {progress : Progress}
    {message : Message} {deadline : Instant}
    (inFlight : progress.session.sender.inFlight = some (message, deadline)) (event : Event) :
    Acts directory now progress event (onSend now progress deadline event) := by
  cases event with
  | sent => exact .sends inFlight
  | sendFailed fault => exact .fails inFlight (.fault fault)
  | sendOverdue =>
      rw [onSend]
      by_cases due : deadline ≤ now
      · rw [if_pos due]
        exact .fails inFlight (.overdue due)
      · rw [if_neg due]
        exact .idle rfl
  | _ => exact .idle rfl

/-- An event finds the session ended, or unable to act, or leads to one of the acts. -/
theorem step_cases (directory : Directory) (now : Instant) (hub : Hub) (session : Session)
    (event : Event) :
    (session.sent? event = none ∧
      session.step directory now hub event = Progress.of hub session) ∨
      ∃ acted, session.outcome = none ∧
        Acts directory now (Progress.of hub session) event acted ∧
        session.step directory now hub event = acted.conclude := by
  unfold step
  by_cases isOver : session.outcome.isSome = true
  · have quiet : session.sent? event = none := by
      cases event with
      | sent => exact if_neg fun running => by simp [running] at isOver
      | _ => rfl
    exact Or.inl ⟨quiet, if_pos isOver⟩
  have running : session.outcome = none := Option.not_isSome_iff_eq_none.mp isOver
  dsimp only
  rw [if_neg isOver]
  cases event with
  | sent | sendFailed | sendOverdue =>
      rcases inFlight : session.sender.inFlight with _ | ⟨message, deadline⟩
      · exact Or.inl ⟨by simp [sent?, inFlight], rfl⟩
      · exact Or.inr ⟨_, running, acts_onSend directory now inFlight _, rfl⟩
  | _ =>
      by_cases isOpen : session.IsOpen
      · rw [if_pos isOpen]
        exact Or.inr ⟨_, running, acts_onOpen directory now isOpen rfl, rfl⟩
      · exact Or.inl ⟨rfl, if_neg isOpen⟩

/-! ## Single events -/

section Equations

variable {directory : Directory} {now : Instant} {hub : Hub} {session : Session} {event : Event}

theorem step_of_ending {outcome : Outcome} (isOpen : session.IsOpen)
    (ending : session.Ending now event outcome) :
    session.step directory now hub event = (Progress.of hub session).finish outcome := by
  have running : ¬ session.outcome.isSome = true := by simp [isOpen.1]
  unfold step
  rw [if_neg running]
  cases ending with
  | endOfStream | fault => exact if_pos isOpen
  | noPong pending due =>
      dsimp only
      rw [if_pos isOpen, onOpen, Progress.onKeepalive]
      simp only [Progress.of, pending, if_pos due]
      rfl
  | slowRequest part due =>
      dsimp only
      rw [if_pos isOpen, onOpen, if_pos (show (Progress.of hub session).session.buffer ≠ [] ∧
        (Progress.of hub session).session.readDeadline ≤ now from ⟨part, due⟩)]
      rfl

theorem step_of_failure {message : Message} {deadline : Instant} {error : SessionError}
    (running : session.outcome = none)
    (inFlight : session.sender.inFlight = some (message, deadline))
    (failure : session.Failure now deadline event error) :
    session.step directory now hub event = (Progress.of hub session).onSendFailed error := by
  have notEnded : ¬ session.outcome.isSome = true := by simp [running]
  unfold step
  rw [if_neg notEnded]
  cases failure with
  | fault fault =>
      dsimp only
      rw [inFlight]
      rfl
  | overdue due =>
      dsimp only
      rw [inFlight]
      dsimp only
      rw [onSend, if_pos due]
      rfl

theorem step_of_first {reading : Reading} (isOpen : session.IsOpen)
    (first : hub.browsers.first? session.link = some reading) :
    session.step directory now hub .reading =
      (Progress.of { hub with browsers := hub.browsers.take session.link } session).enqueue now
        (.reply (.reading reading)) := by
  have running : ¬ session.outcome.isSome = true := by simp [isOpen.1]
  unfold step
  rw [if_neg running]
  dsimp only
  rw [if_pos isOpen, onOpen, Progress.takeReading]
  simp only [Progress.of, first]
  exact Progress.conclude_of_isOpen isOpen

theorem step_of_ping {deadline : Instant} (isOpen : session.IsOpen)
    (pending : session.keepalive.pending = some (deadline, .ping)) (due : deadline ≤ now) :
    session.step directory now hub .keepaliveDue =
      ((Progress.of hub session).enqueue now .ping).setKeepalive
        (session.keepalive.pingSent now) := by
  have running : ¬ session.outcome.isSome = true := by simp [isOpen.1]
  unfold step
  rw [if_neg running]
  dsimp only
  rw [if_pos isOpen, onOpen, Progress.onKeepalive]
  simp only [Progress.of, pending, if_pos due]
  exact Progress.conclude_of_isOpen isOpen

theorem step_of_message (isOpen : session.IsOpen) (message : event.IsMessage) :
    session.step directory now hub event =
      (onOpen directory now (Progress.of hub session) event).conclude := by
  have running : ¬ session.outcome.isSome = true := by simp [isOpen.1]
  unfold step
  rw [if_neg running]
  cases message <;> exact if_pos isOpen

/-- A session that is not open does not look at what comes in. -/
theorem step_of_shut (shut : ¬ session.IsOpen) (message : event.IsMessage) :
    session.step directory now hub event = Progress.of hub session := by
  unfold step
  cases message <;> dsimp only <;> rw [if_neg shut, ite_self]

theorem step_of_inFlight {message : Message} {deadline : Instant}
    (running : session.outcome = none)
    (inFlight : session.sender.inFlight = some (message, deadline)) :
    session.step directory now hub .sent = ((Progress.of hub session).onSent now).conclude := by
  have notEnded : ¬ session.outcome.isSome = true := by simp [running]
  unfold step
  rw [if_neg notEnded]
  dsimp only
  rw [inFlight]
  rfl

end Equations

end Session

end Browser

end StationRelay
