import StationRelay.Proofs.Clock
import StationRelay.Proofs.Handling
import StationRelay.Proofs.Rhythm

/-!
# The keepalive of a device by the clock

Here the timers of one device session hold the clock once they are due, and its
writes take no time: `OnTime` lets time pass only so far.  `Attuned` ties the
session to a stage of its rhythm and to the beats it has shown, and
`rhythmic_run` is what follows for every run, whatever the other sessions do.
-/

namespace StationRelay

namespace Device

/-! ## What a good packet leads to -/

/-- What a good packet leads to in a session without pending actions: its deeds, the keepalive
behind them, the answer with what is left to do behind it, and the state of the engine. -/
inductive Responds (now : Instant) (keepalive : Keepalive) (state : State) :
    List Deed → Keepalive → Option (Downlink × List Action) → State → Prop where
  | refuses (device : Uuid) (raw : UInt8) (reason : Refusal) :
      Responds now keepalive state [.handled (.hello device raw), .began (.refusal reason)]
        keepalive (some (.refusal reason, [])) state
  | welcomes (fresh : state = .connected) (device : Uuid) (raw : UInt8) (station : Station) :
      Responds now keepalive state [.handled (.hello device raw), .began .welcome]
        keepalive (some (.welcome, [.startKeepalive])) (.authenticated station)
  | hears {station : Station} (held : state = .authenticated station) :
      Responds now keepalive state [.handled .pong, .passedPong]
        (keepalive.pongReceived now) none state
  | reports {station : Station} (held : state = .authenticated station) (report : Report) :
      Responds now keepalive state [.handled (.report report)] keepalive none state

theorem responds_of_good {directory : Directory} {now : Instant} {hub : Hub} {session : Session}
    {handled : Handled} {keepalive : Keepalive} {reply : Option (Downlink × List Action)}
    (noActions : session.engine.actions = [])
    (called : handle directory hub session.engine session.buffer = handled)
    (good : handled.verdict = .good)
    (performed :
      Session.perform now session.keepalive handled.engine.actions = (keepalive, reply)) :
    Responds now session.keepalive session.engine.state
      (Session.frontDeeds session.buffer ++ Session.performDeeds handled.engine.actions)
      keepalive reply handled.engine.state := by
  have listed := handling_handle directory hub session.engine session.buffer
  have recorded (actions : List Action) (engine : Engine) (none : engine.actions = []) :
      (engine.record actions).actions = actions := by
    rw [Engine.record, none]
    rfl
  rw [called] at listed
  cases listed with
  | closed | incomplete | unreadable | outOfTurn => cases good
  | refused opened decoded refused =>
      rw [Session.frontDeeds_of_decode decoded]
      rw [Engine.refuse, recorded _ _ noActions] at performed ⊢
      cases performed
      exact .refuses _ _ _
  | @accepted device raw consumed station fresh decoded admissible =>
      rw [Session.frontDeeds_of_decode decoded]
      have actions : (session.engine.accept station).actions = [.send .welcome, .startKeepalive] :=
        recorded _ { session.engine with state := .authenticated station } noActions
      rw [actions] at performed ⊢
      cases performed
      exact .welcomes fresh _ _ _
  | pong held decoded =>
      rw [Session.frontDeeds_of_decode decoded]
      rw [recorded _ _ noActions] at performed ⊢
      cases performed
      exact .hears held
  | report held decoded =>
      rw [Session.frontDeeds_of_decode decoded]
      rw [noActions] at performed ⊢
      cases performed
      exact .reports held _

/-! ## The beats of a session -/

def Deed.beat? : Deed → Option Beat
  | .wrote .welcome => some .accepted
  | .wrote .ping => some .pinged
  | .handled .pong => some .heardPong
  | _ => none

def shown (now : Instant) (deeds : List Deed) : List (Instant × Beat) :=
  (deeds.filterMap Deed.beat?).map (now, ·)

theorem shown_append (now : Instant) (first second : List Deed) :
    shown now (first ++ second) = shown now first ++ shown now second := by
  rw [shown, List.filterMap_append, List.map_append]
  rfl

theorem shown_silent {now : Instant} {packet : Downlink}
    (silent : (Deed.wrote packet).beat? = none) : shown now [.wrote packet] = [] := by
  rw [shown, List.filterMap_cons, silent]
  rfl

namespace Session

def close? (session : Session) : Option Beat :=
  session.outcome?.map .ended

def beats (directory : Directory) (now : Instant) (hub : Hub) (session : Session)
    (event : Event) : List Beat :=
  (session.deeds directory now hub event).filterMap Deed.beat? ++
    if session.outcome? = none then (session.step directory now hub event).2.close?.toList else []

/-- Time may pass until this instant: no timer that runs is due before, and nothing is being
written. -/
def Lets (session : Session) (now : Instant) : Prop :=
  match session.phase with
  | .waiting =>
    (∀ due ∈ session.keepalive.pending.map Prod.fst, now ≤ due) ∧ now ≤ session.idleDeadline
  | .writing .. => False
  | .ended _ => True

instance (session : Session) (now : Instant) : Decidable (session.Lets now) :=
  match phase : session.phase with
  | .waiting =>
    decidable_of_iff ((∀ due ∈ session.keepalive.pending.map Prod.fst, now ≤ due) ∧
      now ≤ session.idleDeadline) (by rw [Lets, phase])
  | .writing .. => isFalse (by simp [Lets, phase])
  | .ended _ => isTrue (by simp [Lets, phase])

end Session

/-! ## The invariant -/

def Stage.Fits : Stage → State → Prop
  | .unaccepted, state => state = .connected
  | .pinging _, state | .awaiting _, state => ∃ station, state = .authenticated station
  | .finished, _ => False

/-- A session without pending work is at a stage of its rhythm. -/
structure AtStage (settings : Settings) (clock : Instant) (session : Session)
    (log : List (Instant × Beat)) (stage : Stage) : Prop where
  beats : Follows (Stage.Next settings) .unaccepted log stage
  own : session.settings = settings
  noActions : session.engine.actions = []
  fits : stage.Fits session.engine.state
  keepalive : session.keepalive =
    ⟨settings.pingInterval, settings.pongTimeout, stage.timer? settings⟩
  lasts : stage.Lasts settings clock
  /-- The device was heard when the wait for the next ping began, or later. -/
  heard : ∀ {armed}, stage.armed? = some armed →
    armed ≤ clock ∧ armed + settings.readTimeout ≤ session.readDeadline

inductive Plain (settings : Settings) (clock : Instant) (session : Session) :
    Continuation → Prop where
  | listen : Plain settings clock session .listen
  | wait : Plain settings clock session .wait
  | resume (fresh : clock + settings.readTimeout ≤ session.readDeadline) :
      Plain settings clock session (.resume [])

/-- What holds of a session while this packet is being written and this is left to do. -/
inductive Busy (settings : Settings) (clock : Instant) (session : Session)
    (log : List (Instant × Beat)) : Downlink → Continuation → Prop where
  | plain {packet : Downlink} {next : Continuation} {stage : Stage}
      (plain : Plain settings clock session next) (silent : (Deed.wrote packet).beat? = none)
      (here : AtStage settings clock session log stage) :
      Busy settings clock session log packet next
  /-- The engine has accepted the device, and the keepalive is yet to start. -/
  | welcome {station : Station} (fresh : clock + settings.readTimeout ≤ session.readDeadline)
      (held : session.engine.state = .authenticated station)
      (noActions : session.engine.actions = []) (own : session.settings = settings)
      (stopped : session.keepalive = ⟨settings.pingInterval, settings.pongTimeout, none⟩)
      (beats : Follows (Stage.Next settings) .unaccepted log .unaccepted) :
      Busy settings clock session log .welcome (.resume [.startKeepalive])
  | ping {armed : Instant} (due : clock = armed + settings.pingInterval)
      (here : AtStage settings clock session log (.pinging armed)) :
      Busy settings clock session log .ping .awaitPong

/-- What holds of a session and its beats between two events. -/
inductive Attuned (settings : Settings) (clock : Instant) (session : Session)
    (log : List (Instant × Beat)) : Prop where
  | waiting {stage : Stage} (waiting : session.phase = .waiting)
      (here : AtStage settings clock session log stage) : Attuned settings clock session log
  | writing {packet : Downlink} {deadline : Instant} {next : Continuation}
      (writing : session.phase = .writing packet deadline next)
      (busy : Busy settings clock session log packet next) : Attuned settings clock session log
  | ended {outcome : Outcome} {now : Instant} (ended : session.phase = .ended outcome)
      (beats : Follows (Stage.Next settings) .unaccepted log .finished)
      (told : (now, .ended outcome) ∈ log) : Attuned settings clock session log

section Stages

variable {settings : Settings} {clock now : Instant} {session last : Session}
  {log : List (Instant × Beat)} {stage : Stage}

theorem AtStage.goesOn (here : AtStage settings clock session log stage) : stage ≠ .finished := by
  rintro rfl
  exact here.fits

/-- The phase says nothing about the stage. -/
theorem AtStage.phase (here : AtStage settings clock session log stage) (phase : Phase) :
    AtStage settings clock { session with phase } log stage :=
  ⟨here.beats, here.own, here.noActions, here.fits, here.keepalive, here.lasts, here.heard⟩

theorem AtStage.hear (here : AtStage settings clock session log stage) (buffer : Bytes)
    (handshakeDeadline : Instant) :
    AtStage settings clock
      { session with
        buffer
        handshakeDeadline
        readDeadline := clock + session.settings.readTimeout } log stage := by
  refine ⟨here.beats, here.own, here.noActions, here.fits, here.keepalive, here.lasts, ?_⟩
  intro armed isArmed
  have past := (here.heard isArmed).1
  exact ⟨past, here.own ▸ Nat.add_le_add_right past settings.readTimeout⟩

theorem AtStage.timer {due : Instant} {timer : KeepaliveTimer}
    (here : AtStage settings clock session log stage)
    (pending : session.keepalive.pending = some (due, timer)) :
    stage.timer? settings = some (due, timer) := by
  rw [here.keepalive] at pending
  exact pending

theorem AtStage.ends {outcome : Outcome} (here : AtStage settings clock session log stage)
    (other : ∀ limit, outcome ≠ some (.pongTimeout limit))
    (silent : ∀ limit, outcome = some (.readTimeout limit) →
      ∃ armed, stage.armed? = some armed ∧ armed + settings.readTimeout ≤ clock) :
    Follows (Stage.Next settings) .unaccepted (log ++ [(clock, .ended outcome)]) .finished :=
  here.beats.concat (.ends here.goesOn here.lasts other silent)

theorem AtStage.pong {station : Station} (here : AtStage settings clock session log stage)
    (held : session.engine.state = .authenticated station)
    (fresh : clock + settings.readTimeout ≤ session.readDeadline) :
    ∃ next, AtStage settings clock
      { session with keepalive := session.keepalive.pongReceived clock }
      (log ++ [(clock, .heardPong)]) next := by
  cases stage with
  | unaccepted =>
      have connected : session.engine.state = .connected := here.fits
      rw [held] at connected
      cases connected
  | finished => exact here.fits.elim
  | pinging armed =>
      have same : session.keepalive.pongReceived clock = session.keepalive := by
        rw [here.keepalive]
        rfl
      refine ⟨.pinging armed, ?_⟩
      rw [same]
      exact ⟨here.beats.concat (.unasked (here.lasts rfl)), here.own, here.noActions, here.fits,
        here.keepalive, here.lasts, here.heard⟩
  | awaiting armed =>
      have restarted : session.keepalive.pongReceived clock =
          ⟨settings.pingInterval, settings.pongTimeout,
            some (clock + settings.pingInterval, .ping)⟩ := by
        rw [here.keepalive]
        rfl
      refine ⟨.pinging clock, here.beats.concat (.answered (here.lasts rfl)), here.own,
        here.noActions, here.fits, restarted, ?_, ?_⟩
      · rintro due timer ⟨⟩
        exact Nat.le_add_right clock settings.pingInterval
      · rintro since ⟨⟩
        exact ⟨Nat.le_refl clock, fresh⟩

theorem AtStage.pingOut {armed : Instant}
    (here : AtStage settings clock session log (.pinging armed))
    (due : clock = armed + settings.pingInterval) :
    AtStage settings clock { session with keepalive := session.keepalive.pingSent clock }
      (log ++ [(clock, .pinged)]) (.awaiting armed) := by
  have awaiting : session.keepalive.pingSent clock =
      ⟨settings.pingInterval, settings.pongTimeout, (Stage.awaiting armed).timer? settings⟩ := by
    rw [here.keepalive, due]
    rfl
  refine ⟨here.beats.concat (due ▸ .ping armed), here.own, here.noActions, here.fits, awaiting,
    ?_, ?_⟩
  · rintro limit timer ⟨⟩
    exact due ▸ Nat.le_add_right _ settings.pongTimeout
  · rintro since ⟨⟩
    exact here.heard rfl

theorem atStage_of_welcome {station : Station}
    (fresh : clock + settings.readTimeout ≤ session.readDeadline)
    (held : session.engine.state = .authenticated station)
    (noActions : session.engine.actions = []) (own : session.settings = settings)
    (stopped : session.keepalive = ⟨settings.pingInterval, settings.pongTimeout, none⟩)
    (beats : Follows (Stage.Next settings) .unaccepted log .unaccepted) :
    AtStage settings clock { session with keepalive := session.keepalive.start clock }
      (log ++ [(clock, .accepted)]) (.pinging clock) := by
  have restarted : session.keepalive.start clock =
      ⟨settings.pingInterval, settings.pongTimeout, (Stage.pinging clock).timer? settings⟩ := by
    rw [stopped]
    rfl
  refine ⟨beats.concat (.accepted clock), own, noActions, ⟨_, held⟩, restarted, ?_, ?_⟩
  · rintro due timer ⟨⟩
    exact Nat.le_add_right clock settings.pingInterval
  · rintro since ⟨⟩
    exact ⟨Nat.le_refl clock, fresh⟩

/-- The engine has handled a packet, and there is more to do. -/
theorem AtStage.advance {handled : Handled} {other : List (Instant × Beat)}
    (here : AtStage settings clock session other stage)
    (same : handled.engine.state = session.engine.state) :
    AtStage settings clock (session.advance handled) other stage :=
  ⟨here.beats, here.own, rfl, same ▸ here.fits, here.keepalive, here.lasts, here.heard⟩

end Stages

/-! ## From one event to the next -/

section Events

variable {settings : Settings} {directory : Directory} {clock : Instant} {hub after : Hub}
  {session last : Session} {log : List (Instant × Beat)} {deeds : List Deed} {stage : Stage}

def heardOf (clock : Instant) (deeds : List Deed) (last : Session) : List (Instant × Beat) :=
  shown clock deeds ++ last.close?.toList.map (clock, ·)

theorem heardOf_of_goesOn (goesOn : last.outcome? = none) :
    heardOf clock deeds last = shown clock deeds := by
  rw [heardOf, Session.close?, goesOn]
  exact List.append_nil _

theorem append_heardOf_of_silent (goesOn : last.outcome? = none) (silent : shown clock deeds = []) :
    log ++ heardOf clock deeds last = log := by
  rw [heardOf_of_goesOn goesOn, silent, List.append_nil]

theorem heardOf_append (own : List Deed) :
    log ++ heardOf clock (own ++ deeds) last =
      log ++ shown clock own ++ heardOf clock deeds last := by
  rw [heardOf, shown_append, heardOf, List.append_assoc, List.append_assoc]

/-- The loop over the buffer keeps the rhythm. -/
theorem Attuned.drains (drains : Session.Drains directory clock hub session deeds after last)
    (here : AtStage settings clock session log stage)
    (fresh : clock + settings.readTimeout ≤ session.readDeadline) :
    Attuned settings clock last (log ++ heardOf clock deeds last) := by
  induction drains generalizing log stage with
  | stop =>
      rw [append_heardOf_of_silent rfl rfl]
      exact .waiting rfl (here.phase _)
  | @breach hub session tag =>
      have finished : Follows (Stage.Next settings) .unaccepted
          (log ++ [(clock, .ended (some (.badPacket tag)))]) .finished := here.ends nofun nofun
      exact .ended rfl finished (List.mem_append_right _ List.mem_cons_self)
  | @write hub session handled keepalive packet rest nonempty called good performed =>
      have responds := responds_of_good here.noActions called good performed
      generalize Session.frontDeeds session.buffer ++
        Session.performDeeds handled.engine.actions = deeds at responds ⊢
      generalize state : handled.engine.state = reached at responds
      cases responds with
      | refuses =>
          rw [append_heardOf_of_silent rfl rfl]
          exact .writing rfl (.plain (.resume fresh) rfl ((here.advance state).phase _))
      | welcomes connected =>
          cases stage with
          | unaccepted =>
              rw [append_heardOf_of_silent rfl rfl]
              exact .writing rfl (.welcome fresh state rfl here.own here.keepalive here.beats)
          | pinging | awaiting =>
              obtain ⟨station, held⟩ := here.fits
              rw [connected] at held
              cases held
          | finished => exact here.fits.elim
  | @next hub after session last handled keepalive later nonempty called good performed _ ih =>
      have responds := responds_of_good here.noActions called good performed
      rw [heardOf_append]
      generalize Session.frontDeeds session.buffer ++
        Session.performDeeds handled.engine.actions = deeds at responds ⊢
      generalize state : handled.engine.state = reached at responds
      cases responds with
      | hears held =>
          obtain ⟨next, there⟩ := here.pong held fresh
          exact ih (there.advance state) fresh
      | reports =>
          change Attuned settings clock _ (log ++ [] ++ _)
          rw [List.append_nil]
          exact ih (here.advance state) fresh

/-- What one event shows, with the end of the session if it ends now. -/
def showing (clock : Instant) (deeds : List Deed) (session last : Session) :
    List (Instant × Beat) :=
  if session.outcome? = none then heardOf clock deeds last else shown clock deeds

theorem showing_of_goesOn (goesOn : session.outcome? = none) :
    showing clock deeds session last = heardOf clock deeds last :=
  if_pos goesOn

theorem outcome_of_waiting (waiting : session.phase = .waiting) : session.outcome? = none := by
  rw [Session.outcome?, waiting]

theorem outcome_of_writing {packet : Downlink} {deadline : Instant} {next : Continuation}
    (writing : session.phase = .writing packet deadline next) : session.outcome? = none := by
  rw [Session.outcome?, writing]

theorem Attuned.atStage (attuned : Attuned settings clock session log)
    (waiting : session.phase = .waiting) : ∃ stage, AtStage settings clock session log stage := by
  cases attuned with
  | waiting _ here => exact ⟨_, here⟩
  | writing other | ended other =>
      rw [waiting] at other
      cases other

theorem Attuned.busy {packet : Downlink} {deadline : Instant} {next : Continuation}
    (attuned : Attuned settings clock session log)
    (writing : session.phase = .writing packet deadline next) :
    Busy settings clock session log packet next := by
  cases attuned with
  | writing other busy =>
      rw [writing] at other
      cases other
      exact busy
  | waiting other | ended other =>
      rw [writing] at other
      cases other

/-- A session that is being written to ends for a reason that has nothing to do with pongs. -/
theorem Busy.ends {packet : Downlink} {next : Continuation} {outcome : Outcome}
    (busy : Busy settings clock session log packet next)
    (other : ∀ limit, outcome ≠ some (.pongTimeout limit))
    (loud : ∀ limit, outcome ≠ some (.readTimeout limit)) :
    Follows (Stage.Next settings) .unaccepted (log ++ [(clock, .ended outcome)]) .finished := by
  have silent : ∀ {stage : Stage} limit, outcome = some (.readTimeout limit) →
      ∃ armed, stage.armed? = some armed ∧ armed + settings.readTimeout ≤ clock :=
    fun limit isSilence => absurd isSilence (loud limit)
  cases busy with
  | plain _ _ here | ping _ here => exact here.ends other silent
  | welcome _ _ _ _ _ beats => exact beats.concat (.ends nofun nofun other silent)

theorem AtStage.armed_of_held (here : AtStage settings clock session log stage)
    (held : session.engine.IsAuthenticated) : ∃ armed, stage.armed? = some armed := by
  obtain ⟨station, held⟩ := session.engine.isAuthenticated_iff.mp held
  cases stage with
  | unaccepted =>
      have connected : session.engine.state = .connected := here.fits
      rw [held] at connected
      cases connected
  | pinging armed | awaiting armed => exact ⟨armed, rfl⟩
  | finished => exact here.fits.elim

/-- Whatever ends a session, the rhythm allows it now. -/
theorem Attuned.ends {event : Event} {outcome : Outcome}
    (attuned : Attuned settings clock session log) (ending : session.Ending clock event outcome) :
    Follows (Stage.Next settings) .unaccepted (log ++ [(clock, .ended outcome)]) .finished := by
  cases ending with
  | endOfStream waiting | readFault waiting =>
      obtain ⟨stage, here⟩ := attuned.atStage waiting
      exact here.ends nofun nofun
  | noPong waiting pending due =>
      obtain ⟨stage, here⟩ := attuned.atStage waiting
      have timer := here.timer pending
      have inTime := here.lasts timer
      rw [here.own]
      cases stage with
      | awaiting armed =>
          cases timer
          obtain rfl := Nat.le_antisymm inTime due
          exact here.beats.concat (.overdue armed)
      | unaccepted | pinging | finished => cases timer
  | silence waiting due =>
      obtain ⟨stage, here⟩ := attuned.atStage waiting
      rw [Session.idleDeadline] at due
      rw [Session.idleError]
      by_cases held : session.engine.IsAuthenticated
      · rw [if_pos held] at due ⊢
        obtain ⟨armed, isArmed⟩ := here.armed_of_held held
        refine here.ends nofun fun limit _ => ⟨armed, isArmed, ?_⟩
        exact Nat.le_trans (here.heard isArmed).2 due
      · rw [if_neg held]
        exact here.ends nofun nofun
  | writeFault writing | slowWrite writing => exact (attuned.busy writing).ends nofun nofun

theorem outcome_of_ending {event : Event} {outcome : Outcome}
    (ending : session.Ending clock event outcome) : session.outcome? = none := by
  cases ending with
  | endOfStream waiting | readFault waiting | noPong waiting | silence waiting =>
      exact outcome_of_waiting waiting
  | writeFault writing | slowWrite writing => exact outcome_of_writing writing

theorem Attuned.steps {event : Event} (attuned : Attuned settings clock session log)
    (steps : Session.Steps directory clock hub session event deeds after last) :
    Attuned settings clock last (log ++ showing clock deeds session last) := by
  cases steps with
  | idle =>
      have nothing : showing clock [] session session = [] := by
        unfold showing
        split
        · rename_i goesOn
          exact heardOf_of_goesOn goesOn
        · rfl
      rw [nothing, List.append_nil]
      exact attuned
  | @ends event outcome ending =>
      rw [showing_of_goesOn (outcome_of_ending ending)]
      exact .ended rfl (attuned.ends ending) (List.mem_append_right _ List.mem_cons_self)
  | reads waiting nonempty drains =>
      obtain ⟨stage, here⟩ := attuned.atStage waiting
      rw [showing_of_goesOn (outcome_of_waiting waiting)]
      exact .drains drains (here.hear _ _) (here.own ▸ Nat.le_refl _)
  | requests waiting first =>
      obtain ⟨stage, here⟩ := attuned.atStage waiting
      rw [showing_of_goesOn (outcome_of_waiting waiting), append_heardOf_of_silent rfl rfl]
      exact .writing rfl (.plain .wait rfl (here.phase _))
  | pings waiting pending due =>
      obtain ⟨stage, here⟩ := attuned.atStage waiting
      rw [showing_of_goesOn (outcome_of_waiting waiting), append_heardOf_of_silent rfl rfl]
      have timer := here.timer pending
      cases stage with
      | pinging armed =>
          cases timer
          exact .writing rfl (.ping (Nat.le_antisymm (here.lasts rfl) due) (here.phase _))
      | unaccepted | awaiting | finished => cases timer
  | listens writing =>
      rw [showing_of_goesOn (outcome_of_writing writing)]
      cases attuned.busy writing with
      | plain plain silent here =>
          rw [append_heardOf_of_silent rfl (shown_silent silent)]
          exact .waiting rfl ((here.hear session.buffer _).phase _)
  | waits writing =>
      rw [showing_of_goesOn (outcome_of_writing writing)]
      cases attuned.busy writing with
      | plain plain silent here =>
          rw [append_heardOf_of_silent rfl (shown_silent silent)]
          exact .waiting rfl (here.phase _)
  | awaits writing =>
      rw [showing_of_goesOn (outcome_of_writing writing), heardOf_of_goesOn rfl]
      cases attuned.busy writing with
      | plain plain => cases plain
      | ping due here => exact .waiting rfl ((here.pingOut due).phase _)
  | replies writing performed =>
      cases attuned.busy writing with
      | plain plain =>
          cases plain
          cases performed
      | welcome => cases performed
  | @resumes packet deadline actions keepalive later after last writing performed drains =>
      rw [showing_of_goesOn (outcome_of_writing writing)]
      cases attuned.busy writing with
      | plain plain silent here =>
          cases plain with
          | resume fresh =>
              cases performed
              rw [← List.singleton_append, heardOf_append, shown_silent silent, List.append_nil]
              exact .drains drains ⟨here.beats, here.own, here.noActions, here.fits,
                here.keepalive, here.lasts, here.heard⟩ fresh
      | welcome fresh held noActions own stopped beats =>
          cases performed
          have there := atStage_of_welcome fresh held noActions own stopped beats
          rw [← List.singleton_append, ← List.append_assoc, heardOf_append]
          exact .drains drains there fresh

/-- A connection begins with the greeting, which shows nothing. -/
theorem Attuned.start (settings : Settings) (now : Instant) (hub : Hub) :
    Attuned settings now (Session.start settings now hub).2 [] := by
  refine .writing rfl (.plain .listen rfl ⟨.nil Stage.unaccepted, rfl, rfl, rfl, rfl, ?_, ?_⟩)
  · rintro due timer ⟨⟩
  · rintro armed ⟨⟩

/-- Time passes as far as the session lets it. -/
theorem Attuned.passes {now : Instant} (attuned : Attuned settings clock session log)
    (later : clock < now) (lets : session.Lets now) : Attuned settings now session log := by
  rw [Session.Lets] at lets
  cases attuned with
  | @waiting stage waiting here =>
      rw [waiting] at lets
      refine .waiting waiting ⟨here.beats, here.own, here.noActions, here.fits, here.keepalive,
        ?_, ?_⟩
      · intro due timer running
        refine lets.1 due ?_
        rw [here.keepalive, running]
        rfl
      · intro armed isArmed
        obtain ⟨past, heard⟩ := here.heard isArmed
        exact ⟨Nat.le_trans past (Nat.le_of_lt later), heard⟩
  | writing writing =>
      rw [writing] at lets
      exact lets.elim
  | ended ended beats told => exact .ended ended beats told

/-- Whatever the session does, it is at some stage, and the timer of that stage is not overdue. -/
theorem Attuned.beats (attuned : Attuned settings clock session log) :
    ∃ stage, Follows (Stage.Next settings) .unaccepted log stage ∧ stage.Lasts settings clock := by
  cases attuned with
  | waiting _ here => exact ⟨_, here.beats, here.lasts⟩
  | writing _ busy =>
      cases busy with
      | plain _ _ here | ping _ here => exact ⟨_, here.beats, here.lasts⟩
      | welcome _ _ _ _ _ beats => exact ⟨_, beats, nofun⟩
  | ended _ beats => exact ⟨_, beats, nofun⟩

theorem Attuned.told {outcome : Outcome} (attuned : Attuned settings clock session log)
    (ended : session.outcome? = some outcome) : ∃ now, (now, .ended outcome) ∈ log := by
  cases attuned with
  | waiting waiting =>
      rw [outcome_of_waiting waiting] at ended
      cases ended
  | writing writing =>
      rw [outcome_of_writing writing] at ended
      cases ended
  | ended isOver _ told =>
      rw [Session.outcome?, isOver] at ended
      cases ended
      exact ⟨_, told⟩

theorem stamp_beats (event : Event) :
    (session.beats directory clock hub event).map (clock, ·) =
      showing clock (session.deeds directory clock hub event) session
        (session.step directory clock hub event).2 := by
  rw [Session.beats, showing, List.map_append]
  split
  · rfl
  · exact List.append_nil _

end Events

end Device

/-! ## Every session of every run -/

namespace Switchboard

open Device

/-- The timers and writes of this device session hold the clock. -/
def OnTime (index : Nat) (board : Switchboard) (now : Instant) : Prop :=
  ∀ session ∈ board.devices[index]?, session.Lets now

instance (index : Nat) (board : Switchboard) (now : Instant) :
    Decidable (OnTime index board now) :=
  inferInstanceAs (Decidable (∀ session ∈ board.devices[index]?, session.Lets now))

def beatsOf (index : Nat) (board : Switchboard) : Move → List Beat :=
  ofDevice [] Session.beats index board

structure Keeping (index : Nat) (settings : Settings) (board : Switchboard) (clock : Instant)
    (log : List (Instant × Beat)) : Prop where
  own : board.settings = settings
  watched : Watched (Attuned settings clock) board.devices[index]? log

section Keeping

variable {index : Nat} {settings : Settings} {board : Switchboard} {clock : Instant}
  {log : List (Instant × Beat)}

theorem rhythmic_of_watched {session? : Option Session}
    (watched : Watched (Attuned settings clock) session? log) : Rhythmic settings clock log := by
  cases watched with
  | nobody => exact Stage.rhythmic (.nil Stage.unaccepted) nofun
  | somebody attuned =>
      obtain ⟨stage, beats, lasts⟩ := attuned.beats
      exact Stage.rhythmic beats lasts

theorem Keeping.passes {now : Instant} (later : clock < now) (onTime : OnTime index board now)
    (keeping : Keeping index settings board clock log) : Keeping index settings board now log :=
  ⟨keeping.own, keeping.watched.mono fun session found attuned =>
    attuned.passes later (onTime session found)⟩

theorem Keeping.step (move : Move) (keeping : Keeping index settings board move.instant log) :
    Keeping index settings (board.step move) move.instant
      (log ++ stamped (beatsOf index) board move) := by
  obtain ⟨own, watched⟩ := keeping
  refine ⟨(settings_step board move).trans own, ?_⟩
  have fate := deviceFate_step [] Session.beats index board move
  unfold stamped beatsOf
  generalize board.devices[index]? = before, (board.step move).devices[index]? = after,
    ofDevice [] Session.beats index board move = shown at fate watched ⊢
  cases fate with
  | acts session now event =>
      rw [Move.instant, stamp_beats]
      exact .somebody (watched.holds.steps (session.steps_step ..))
  | stays | nobody =>
      rw [List.map_nil, List.append_nil]
      exact watched
  | begins now =>
      cases watched
      rw [own]
      exact .somebody (.start ..)

end Keeping

/-- In every run in which its timers fire when they are due and its writes take no time, a device
session keeps the rhythm of pings and pongs. -/
theorem rhythmic_run (directory : Directory) (settings : Settings) {begins ends : Instant}
    {moves : List Move} {index : Nat}
    (paced : Paced (OnTime index) (start directory settings) begins moves ends) :
    let log := (start directory settings).trace (stamped (beatsOf index)) moves
    Rhythmic settings ends log ∧ (log.map Prod.fst).Pairwise (· ≤ ·) ∧
      ∀ {session : Session} {outcome : Outcome},
        ((start directory settings).run moves).devices[index]? = some session →
          session.outcome? = some outcome → ∃ now, (now, .ended outcome) ∈ log := by
  intro log
  have begun : Keeping index settings (start directory settings) begins [] := ⟨rfl, .nobody⟩
  have keeping : Keeping index settings ((start directory settings).run moves) ends log :=
    @Paced.induction (OnTime index) Beat (beatsOf index) (Keeping index settings)
      (fun later onTime keeping => keeping.passes later onTime)
      (fun move keeping => keeping.step move) _ _ _ [] moves paced begun
  refine ⟨rhythmic_of_watched keeping.watched, paced.sorted.1, ?_⟩
  intro session outcome found ended
  exact (found ▸ keeping.watched).holds.told ended

/-- A device answers a ping, sends a pong that nobody asked for, and then falls silent. -/
theorem rhythmic_run_one_answer :
    let directory : Directory := ⟨fun _ => true, Station.defaultName⟩
    let hello := Uplink.encode (.hello ⟨List.replicate 16 0x40, rfl⟩ 1)
    let pong := Uplink.encode .pong
    let moves : List Move :=
      [.connectDevice 0, .device 0 0 .written, .device 0 5 (.read hello), .device 0 5 .written,
        .device 0 10005 .keepaliveDue, .device 0 10005 .written, .device 0 12000 (.read pong),
        .device 0 13000 (.read pong), .device 0 22000 .keepaliveDue, .device 0 22000 .written,
        .device 0 32000 .keepaliveDue]
    let log := (start directory {}).trace (stamped (beatsOf 0)) moves
    Paced (OnTime 0) (start directory {}) 0 moves 40000 ∧ Rhythmic {} 40000 log ∧
      log = [(5, .accepted), (10005, .pinged), (12000, .heardPong), (13000, .heardPong),
        (22000, .pinged), (32000, .ended (some (.pongTimeout 10000)))] := by
  intro directory hello pong moves log
  have paced : Paced (OnTime 0) (start directory {}) 0 moves 40000 := by decide +kernel
  exact ⟨paced, (rhythmic_run directory {} paced).1, by decide +kernel⟩

end Switchboard

end StationRelay
