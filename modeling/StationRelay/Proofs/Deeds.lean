import StationRelay.Device.Session

/-!
# What a device session does

A deed is something a session does that its device or its keepalive can tell.
`Session.deeds` lists the deeds of one event in order.  `Drains` is the loop over
the buffer as a relation, with the deeds of every round; `drains_drain` says that
it is the loop, so that a statement about the loop is an induction over rounds.
-/

namespace StationRelay

namespace Device

inductive Deed where
  /-- A packet of the device was handled. -/
  | handled (packet : Uplink)
  /-- A packet was given to be written. -/
  | began (packet : Downlink)
  /-- The packet is out. -/
  | wrote (packet : Downlink)
  | startedKeepalive
  | passedPong
  deriving DecidableEq

namespace Deed

def began? : Deed → Option Downlink
  | .began packet => some packet
  | _ => none

def wrote? : Deed → Option Downlink
  | .wrote packet => some packet
  | _ => none

/-- The keepalive after it was told of a deed. -/
def tell (now : Instant) (keepalive : Keepalive) : Deed → Keepalive
  | .startedKeepalive => keepalive.start now
  | .passedPong => keepalive.pongReceived now
  | .handled _ | .began _ | .wrote _ => keepalive

end Deed

namespace Session

def performDeeds : List Action → List Deed
  | [] => []
  | .send packet :: _ => [.began packet]
  | .startKeepalive :: rest => .startedKeepalive :: performDeeds rest
  | .pongReceived :: rest => .passedPong :: performDeeds rest

def frontDeeds (buffer : Bytes) : List Deed :=
  match Uplink.decode buffer with
  | .ok (packet, _) => [.handled packet]
  | .error _ => []

def drainDeeds (directory : Directory) (now : Instant) (hub : Hub) (session : Session) :
    List Deed :=
  if session.buffer ≠ [] then
    let handled := handle directory hub session.engine session.buffer
    if good : handled.verdict = .good then
      have _shorter := session.length_advance_lt good
      let own := frontDeeds session.buffer ++ performDeeds handled.engine.actions
      match perform now session.keepalive handled.engine.actions with
      | (_, some _) => own
      | (keepalive, none) =>
        own ++ drainDeeds directory now handled.hub { session.advance handled with keepalive }
    else []
  else []
termination_by session.buffer.length
decreasing_by exact _shorter

def proceedDeeds (directory : Directory) (now : Instant) (hub : Hub) (session : Session) :
    Continuation → List Deed
  | .resume actions =>
    match perform now session.keepalive actions with
    | (_, some _) => performDeeds actions
    | (keepalive, none) =>
      performDeeds actions ++ drainDeeds directory now hub { session with keepalive }
  | .listen | .wait | .awaitPong => []

/-- The deeds of one event, in order. -/
def deeds (directory : Directory) (now : Instant) (hub : Hub) (session : Session)
    (event : Event) : List Deed :=
  match session.phase, event with
  | .waiting, .read bytes =>
    if bytes = [] then []
    else
      drainDeeds directory now hub { session with
        buffer := session.buffer ++ bytes
        readDeadline := now + session.settings.readTimeout }
  | .waiting, .command =>
    match hub.devices.first? session.link with
    | some command => [.began (.request command.session command.flag)]
    | none => []
  | .waiting, .keepaliveDue =>
    match session.keepalive.pending with
    | some (deadline, .ping) => if deadline ≤ now then [.began .ping] else []
    | _ => []
  | .writing packet _ next, .written =>
    .wrote packet :: proceedDeeds directory now hub session next
  | _, _ => []

def Stopped (directory : Directory) (hub : Hub) (session : Session) : Prop :=
  session.buffer = [] ∨
    (handle directory hub session.engine session.buffer).verdict = .indeterminate

/-- The loop over the buffer, round by round, with its deeds. -/
inductive Drains (directory : Directory) (now : Instant) :
    Hub → Session → List Deed → Hub → Session → Prop where
  | stop {hub : Hub} {session : Session} (stopped : session.Stopped directory hub) :
      Drains directory now hub session [] hub { session with phase := .waiting }
  | breach {hub : Hub} {session : Session} {tag : UInt8} {rest : Bytes}
      (front : session.buffer = tag :: rest)
      (notGood : (handle directory hub session.engine session.buffer).verdict ≠ .good)
      (complete :
        (handle directory hub session.engine session.buffer).verdict ≠ .indeterminate) :
      Drains directory now hub session [] (finish hub session (some (.badPacket tag))).1
        (finish hub session (some (.badPacket tag))).2
  | write {hub : Hub} {session : Session} {handled : Handled} {keepalive : Keepalive}
      {packet : Downlink} {rest : List Action} (nonempty : session.buffer ≠ [])
      (called : handle directory hub session.engine session.buffer = handled)
      (good : handled.verdict = .good)
      (performed :
        perform now session.keepalive handled.engine.actions = (keepalive, some (packet, rest))) :
      Drains directory now hub session
        (frontDeeds session.buffer ++ performDeeds handled.engine.actions) handled.hub
        ({ session.advance handled with keepalive }.write now packet (.resume rest))
  | next {hub after : Hub} {session last : Session} {handled : Handled} {keepalive : Keepalive}
      {later : List Deed} (nonempty : session.buffer ≠ [])
      (called : handle directory hub session.engine session.buffer = handled)
      (good : handled.verdict = .good)
      (performed : perform now session.keepalive handled.engine.actions = (keepalive, none))
      (goesOn : Drains directory now handled.hub { session.advance handled with keepalive } later
        after last) :
      Drains directory now hub session
        (frontDeeds session.buffer ++ performDeeds handled.engine.actions ++ later) after last

theorem drains_drain (directory : Directory) (now : Instant) (hub : Hub) (session : Session) :
    Drains directory now hub session (drainDeeds directory now hub session)
      (drain directory now hub session).1 (drain directory now hub session).2 := by
  -- A good packet leaves less in the buffer, so the rounds behind it are those of a shorter one.
  induction length : session.buffer.length using Nat.strongRecOn generalizing hub session with
  | _ n ih =>
      rw [drain, drainDeeds]
      by_cases nonempty : session.buffer ≠ []
      · rw [dif_pos nonempty, if_pos nonempty]
        dsimp only
        by_cases good : (handle directory hub session.engine session.buffer).verdict = .good
        · rw [dif_pos good, dif_pos good]
          have shorter := session.length_advance_lt good
          generalize called : handle directory hub session.engine session.buffer = handled at *
          rcases performed : perform now session.keepalive handled.engine.actions with
            ⟨keepalive, _ | ⟨packet, rest⟩⟩
          · exact .next nonempty called good performed (ih _ (length ▸ shorter) _ _ rfl)
          · exact .write nonempty called good performed
        · rw [dif_neg good, dif_neg good]
          obtain ⟨tag, rest, front⟩ := List.exists_cons_of_ne_nil nonempty
          split
          · rename_i incomplete
            exact .stop (Or.inr incomplete)
          · rename_i complete
            have head : session.buffer.head nonempty = tag := by simp [front]
            rw [head]
            exact .breach front good complete
      · rw [dif_neg nonempty, if_neg nonempty]
        exact .stop (Or.inl (Decidable.not_not.mp nonempty))

/-! ## Deeds and steps -/

theorem frontDeeds_of_decode {buffer : Bytes} {packet : Uplink} {consumed : Nat}
    (decoded : Uplink.decode buffer = .ok (packet, consumed)) :
    frontDeeds buffer = [.handled packet] := by
  rw [frontDeeds, decoded]

theorem wrote_frontDeeds (buffer : Bytes) : (frontDeeds buffer).filterMap Deed.wrote? = [] := by
  unfold frontDeeds
  split <;> rfl

theorem wrote_performDeeds (actions : List Action) :
    (performDeeds actions).filterMap Deed.wrote? = [] := by
  induction actions with
  | nil => rfl
  | cons action rest ih =>
      cases action with
      | send packet => rfl
      | startKeepalive => exact ih
      | pongReceived => exact ih

/-- No write ends while packets are handled. -/
theorem Drains.wrote {directory : Directory} {now : Instant} {hub after : Hub}
    {session last : Session} {deeds : List Deed}
    (drains : Drains directory now hub session deeds after last) :
    deeds.filterMap Deed.wrote? = [] := by
  induction drains with
  | stop => rfl
  | breach => rfl
  | write => rw [List.filterMap_append, wrote_frontDeeds, wrote_performDeeds, List.nil_append]
  | next nonempty called good performed goesOn ih =>
      rw [List.filterMap_append, List.filterMap_append, wrote_frontDeeds, wrote_performDeeds, ih]
      rfl

theorem tell_frontDeeds (now : Instant) (keepalive : Keepalive) (buffer : Bytes) :
    (frontDeeds buffer).foldl (Deed.tell now) keepalive = keepalive := by
  unfold frontDeeds
  split <;> rfl

theorem tell_performDeeds (now : Instant) (keepalive : Keepalive) (actions : List Action) :
    (performDeeds actions).foldl (Deed.tell now) keepalive = (perform now keepalive actions).1 := by
  induction actions generalizing keepalive with
  | nil => rfl
  | cons action rest ih =>
      cases action with
      | send packet => rfl
      | startKeepalive => exact ih (keepalive.start now)
      | pongReceived => exact ih (keepalive.pongReceived now)

/-- The deeds are all that the keepalive is told while packets are handled. -/
theorem Drains.keepalive {directory : Directory} {now : Instant} {hub after : Hub}
    {session last : Session} {deeds : List Deed}
    (drains : Drains directory now hub session deeds after last) :
    last.keepalive = deeds.foldl (Deed.tell now) session.keepalive ∨
      ∃ outcome, last.phase = .ended outcome := by
  induction drains with
  | stop => exact Or.inl rfl
  | breach => exact Or.inr ⟨_, rfl⟩
  | write nonempty called good performed =>
      rw [List.foldl_append, tell_frontDeeds, tell_performDeeds, performed]
      exact Or.inl rfl
  | next nonempty called good performed goesOn ih =>
      rw [List.foldl_append, List.foldl_append, tell_frontDeeds, tell_performDeeds, performed]
      exact ih

theorem Drains.link {directory : Directory} {now : Instant} {hub after : Hub}
    {session last : Session} {deeds : List Deed}
    (drains : Drains directory now hub session deeds after last) : last.link = session.link := by
  induction drains with
  | next nonempty called good performed goesOn ih => exact ih
  | _ => rfl

inductive Ending (session : Session) (now : Instant) : Event → Outcome → Prop where
  | endOfStream (waiting : session.phase = .waiting) : Ending session now (.read []) none
  | readFault (waiting : session.phase = .waiting) (fault : TransportFault) :
      Ending session now (.readFailed fault) (some (.transport fault))
  | noPong {deadline : Instant} (waiting : session.phase = .waiting)
      (pending : session.keepalive.pending = some (deadline, .pongTimeout))
      (due : deadline ≤ now) :
      Ending session now .keepaliveDue (some (.pongTimeout session.settings.pongTimeout))
  | silence (waiting : session.phase = .waiting) (due : session.idleDeadline ≤ now) :
      Ending session now .idleDue (some session.idleError)
  | writeFault {packet : Downlink} {deadline : Instant} {next : Continuation}
      (writing : session.phase = .writing packet deadline next) (fault : TransportFault) :
      Ending session now (.writeFailed fault) (some (.transport fault))
  | slowWrite {packet : Downlink} {deadline : Instant} {next : Continuation}
      (writing : session.phase = .writing packet deadline next) (due : deadline ≤ now) :
      Ending session now .writeOverdue (some (.writeTimeout session.settings.writeTimeout))

/-- Everything that an event can lead to, with its deeds. -/
inductive Steps (directory : Directory) (now : Instant) (hub : Hub) (session : Session) :
    Event → List Deed → Hub → Session → Prop where
  | idle {event : Event} (quiet : session.emitted? event = none) :
      Steps directory now hub session event [] hub session
  | ends {event : Event} {outcome : Outcome} (ending : session.Ending now event outcome) :
      Steps directory now hub session event [] (finish hub session outcome).1
        (finish hub session outcome).2
  | reads {bytes : Bytes} {deeds : List Deed} {after : Hub} {last : Session}
      (waiting : session.phase = .waiting) (nonempty : bytes ≠ [])
      (drains : Drains directory now hub
        { session with
          buffer := session.buffer ++ bytes
          readDeadline := now + session.settings.readTimeout } deeds after last) :
      Steps directory now hub session (.read bytes) deeds after last
  | requests {command : Command} (waiting : session.phase = .waiting)
      (first : hub.devices.first? session.link = some command) :
      Steps directory now hub session .command [.began (.request command.session command.flag)]
        { hub with devices := hub.devices.take session.link }
        (session.write now (.request command.session command.flag) .wait)
  | pings {deadline : Instant} (waiting : session.phase = .waiting)
      (pending : session.keepalive.pending = some (deadline, .ping)) (due : deadline ≤ now) :
      Steps directory now hub session .keepaliveDue [.began .ping] hub
        (session.write now .ping .awaitPong)
  | listens {packet : Downlink} {deadline : Instant}
      (writing : session.phase = .writing packet deadline .listen) :
      Steps directory now hub session .written [.wrote packet] hub
        { session with
          handshakeDeadline := now + session.settings.handshakeTimeout
          readDeadline := now + session.settings.readTimeout
          phase := .waiting }
  | waits {packet : Downlink} {deadline : Instant}
      (writing : session.phase = .writing packet deadline .wait) :
      Steps directory now hub session .written [.wrote packet] hub
        { session with phase := .waiting }
  | awaits {packet : Downlink} {deadline : Instant}
      (writing : session.phase = .writing packet deadline .awaitPong) :
      Steps directory now hub session .written [.wrote packet] hub
        { session with keepalive := session.keepalive.pingSent now, phase := .waiting }
  | replies {packet reply : Downlink} {deadline : Instant} {actions rest : List Action}
      {keepalive : Keepalive}
      (writing : session.phase = .writing packet deadline (.resume actions))
      (performed : perform now session.keepalive actions = (keepalive, some (reply, rest))) :
      Steps directory now hub session .written (.wrote packet :: performDeeds actions) hub
        ({ session with keepalive }.write now reply (.resume rest))
  | resumes {packet : Downlink} {deadline : Instant} {actions : List Action}
      {keepalive : Keepalive} {later : List Deed} {after : Hub} {last : Session}
      (writing : session.phase = .writing packet deadline (.resume actions))
      (performed : perform now session.keepalive actions = (keepalive, none))
      (drains : Drains directory now hub { session with keepalive } later after last) :
      Steps directory now hub session .written
        (.wrote packet :: (performDeeds actions ++ later)) after last

theorem steps_written {directory : Directory} {now : Instant} {hub : Hub} {session : Session}
    {packet : Downlink} {deadline : Instant} {next : Continuation}
    (writing : session.phase = .writing packet deadline next) :
    Steps directory now hub session .written
      (.wrote packet :: proceedDeeds directory now hub session next)
      (proceed directory now hub session next).1 (proceed directory now hub session next).2 := by
  cases next with
  | listen => exact .listens writing
  | wait => exact .waits writing
  | awaitPong => exact .awaits writing
  | resume actions =>
      rw [proceed, proceedDeeds]
      rcases performed : perform now session.keepalive actions with
        ⟨keepalive, _ | ⟨reply, rest⟩⟩
      · exact .resumes writing performed (drains_drain directory now hub _)
      · exact .replies writing performed

theorem drains_read (directory : Directory) (now : Instant) (hub : Hub) {session : Session}
    {bytes : Bytes} (waiting : session.phase = .waiting) (nonempty : bytes ≠ []) :
    Drains directory now hub
      { session with
        buffer := session.buffer ++ bytes
        readDeadline := now + session.settings.readTimeout }
      (session.deeds directory now hub (.read bytes))
      (session.step directory now hub (.read bytes)).1
      (session.step directory now hub (.read bytes)).2 := by
  simp only [step, deeds, waiting, receive, if_neg nonempty]
  exact drains_drain directory now hub _

theorem steps_waiting {directory : Directory} {now : Instant} {hub : Hub} {session : Session}
    (waiting : session.phase = .waiting) (event : Event) :
    Steps directory now hub session event (session.deeds directory now hub event)
      (session.step directory now hub event).1 (session.step directory now hub event).2 := by
  have quiet : session.emitted? event = none := by simp [emitted?, waiting]
  cases event with
  | read bytes =>
      by_cases nonempty : bytes = []
      · subst bytes
        simp only [step, deeds, waiting, receive]
        exact .ends (.endOfStream waiting)
      · exact .reads waiting nonempty (drains_read directory now hub waiting nonempty)
  | readFailed fault =>
      simp only [step, deeds, waiting]
      exact .ends (.readFault waiting fault)
  | command =>
      simp only [step, deeds, waiting, takeCommand]
      cases first : hub.devices.first? session.link with
      | none => exact .idle quiet
      | some command => exact .requests waiting first
  | keepaliveDue =>
      simp only [step, deeds, waiting, onKeepalive]
      rcases pending : session.keepalive.pending with _ | ⟨deadline, timer⟩
      · exact .idle quiet
      · dsimp only
        by_cases due : deadline ≤ now
        · cases timer with
          | ping =>
              simp only [if_pos due]
              exact .pings waiting pending due
          | pongTimeout =>
              simp only [if_pos due]
              exact .ends (.noPong waiting pending due)
        · rw [if_neg due]
          cases timer with
          | ping =>
              simp only [if_neg due]
              exact .idle quiet
          | pongTimeout => exact .idle quiet
  | idleDue =>
      simp only [step, deeds, waiting]
      by_cases due : session.idleDeadline ≤ now
      · rw [if_pos due]
        exact .ends (.silence waiting due)
      · rw [if_neg due]
        exact .idle quiet
  | written | writeFailed | writeOverdue =>
      simp only [step, deeds, waiting]
      exact .idle quiet

theorem steps_step (directory : Directory) (now : Instant) (hub : Hub) (session : Session)
    (event : Event) :
    Steps directory now hub session event (session.deeds directory now hub event)
      (session.step directory now hub event).1 (session.step directory now hub event).2 := by
  cases phase : session.phase with
  | waiting => exact steps_waiting phase event
  | ended outcome =>
      simp only [step, deeds, phase]
      exact .idle (by simp [emitted?, phase])
  | writing packet deadline next =>
      cases event with
      | written =>
          simp only [step, deeds, phase]
          exact steps_written phase
      | writeFailed fault =>
          simp only [step, deeds, phase]
          exact .ends (.writeFault phase fault)
      | writeOverdue =>
          simp only [step, deeds, phase]
          by_cases due : deadline ≤ now
          · rw [if_pos due]
            exact .ends (.slowWrite phase due)
          · rw [if_neg due]
            exact .idle (by simp [emitted?, phase])
      | read | readFailed | command | keepaliveDue | idleDue =>
          simp only [step, deeds, phase]
          exact .idle (by simp [emitted?, phase])

theorem Steps.link {directory : Directory} {now : Instant} {hub after : Hub}
    {session last : Session} {event : Event} {deeds : List Deed}
    (steps : Steps directory now hub session event deeds after last) :
    last.link = session.link := by
  cases steps with
  | reads waiting nonempty drains => exact drains.link
  | resumes writing performed drains => exact drains.link
  | _ => rfl

/-- The packets written by deeds are the packets that the steps put out. -/
theorem wrote_deeds (directory : Directory) (now : Instant) (hub : Hub) (session : Session)
    (event : Event) :
    (session.deeds directory now hub event).filterMap Deed.wrote? =
      (session.emitted? event).toList := by
  have steps := steps_step directory now hub session event
  generalize session.deeds directory now hub event = deeds,
    (session.step directory now hub event).1 = after,
    (session.step directory now hub event).2 = last at steps ⊢
  cases steps with
  | idle quiet => rw [quiet]; rfl
  | ends ending => cases ending <;> simp_all [emitted?]
  | reads waiting nonempty drains =>
      rw [drains.wrote]
      simp [emitted?, waiting]
  | requests waiting | pings waiting => simp [emitted?, waiting, Deed.wrote?]
  | listens writing | waits writing | awaits writing => simp [emitted?, writing, Deed.wrote?]
  | replies writing performed =>
      simp [emitted?, writing, Deed.wrote?, wrote_performDeeds]
  | resumes writing performed drains =>
      simp [emitted?, writing, Deed.wrote?, wrote_performDeeds, drains.wrote]

end Session

end Device

end StationRelay
