import StationRelay.Proofs.Outgoing
import StationRelay.Browser.Connection

/-!
# What can happen to a connection of a browser

`Happens` lists the events that an advance lets happen to a session, each with what
it takes off the wire or out of the channel, and `Moves` is what comes of them.
`moves_of_advanceSession?` says that the list is complete.  A session whose sending
side has come apart from its outbox could be handed events for ever that do nothing;
`Sound` is the invariant that rules this out.
-/

namespace StationRelay

namespace Browser

namespace Connection

def afterMessage (connection : Connection) : Connection :=
  { connection with wire := connection.wire.drop 1 }

def emptied (connection : Connection) : Connection :=
  { connection with channel := { connection.channel with outgoing := [] } }

/-- Everything that can happen to a session that has not ended: the event, and the connection
without what the event takes up. -/
inductive Happens (now : Instant) (hub : Hub) (connection : Connection) (session : Session) :
    Connection → Event → Prop where
  | fails {event : Event} {message : Message} {deadline : Instant} {error : SessionError}
      (inFlight : session.sender.inFlight = some (message, deadline))
      (failure : session.Failure now deadline event error) :
      Happens now hub connection session connection event
  | ends {event : Event} {outcome : Outcome} (accepting : connection.channel.isRefusing = false)
      (isOpen : session.IsOpen) (ending : session.Ending now event outcome) :
      Happens now hub connection session connection event
  | reads {reading : Reading} (accepting : connection.channel.isRefusing = false)
      (isOpen : session.IsOpen) (first : hub.browsers.first? session.link = some reading) :
      Happens now hub connection session connection .reading
  | pings {deadline : Instant} (accepting : connection.channel.isRefusing = false)
      (isOpen : session.IsOpen) (pending : session.keepalive.pending = some (deadline, .ping))
      (due : deadline ≤ now) :
      Happens now hub connection session connection .keepaliveDue
  | sends {message : Message} {deadline : Instant}
      (accepting : connection.channel.isRefusing = false)
      (waits : connection.channel.outgoing ≠ [])
      (inFlight : session.sender.inFlight = some (message, deadline)) :
      Happens now hub connection session connection.emptied .sent
  | data {message : Incoming} {rest : List Incoming} {bytes : Bytes}
      (accepting : connection.channel.isRefusing = false) (isOpen : session.IsOpen)
      (front : connection.wire.incoming = message :: rest)
      (means : message.meaning = .data bytes) :
      Happens now hub connection session connection.afterMessage (.data bytes)
  | pong {message : Incoming} {rest : List Incoming}
      (accepting : connection.channel.isRefusing = false) (isOpen : session.IsOpen)
      (front : connection.wire.incoming = message :: rest) :
      Happens now hub connection session connection.afterMessage .pong
  | answers {message : Incoming} {rest : List Incoming}
      (accepting : connection.channel.isRefusing = false) (isOpen : session.IsOpen)
      (front : connection.wire.incoming = message :: rest) (reply : Outgoing) (isClose : Bool) :
      Happens now hub connection session
        { connection.afterMessage with channel := connection.channel.answer reply isClose } .control
  | violates {message : Incoming} {rest : List Incoming}
      (accepting : connection.channel.isRefusing = false) (isOpen : session.IsOpen)
      (front : connection.wire.incoming = message :: rest) (fault : MessageFault) :
      Happens now hub connection session connection.afterMessage (.streamFailed fault)

/-- What an advance of a session comes to. -/
inductive Moves (directory : Directory) (now : Instant) (hub : Hub) (connection : Connection)
    (session : Session) : Advance → Prop where
  | happens {moved : Connection} {event : Event}
      (happens : Happens now hub connection session moved event)
      (notices : List (Notice Outgoing)) :
      Moves directory now hub connection session
        (moved.happen directory now hub session event notices)
  | flushes (accepting : connection.channel.isRefusing = false)
      (waits : connection.channel.outgoing ≠ []) (notices : List (Notice Outgoing)) :
      Moves directory now hub connection session ⟨hub, connection.emptied, notices⟩

end Connection

/-! ## Steady sessions -/

/-- The sending side goes with the outbox, and a session that closes itself has something left to
send. -/
structure Session.Steady (session : Session) : Prop where
  running : ∃ sent enqueued handed, Running sent enqueued handed session
  closing : session.closing ≠ none → session.sender.outbox.waiting ≠ []

namespace Session.Steady

variable {session : Session} {directory : Directory} {now : Instant} {hub : Hub} {event : Event}

theorem inFlight_of_closing (steady : session.Steady) (closes : session.closing ≠ none) :
    session.sender.inFlight.isSome = true := by
  obtain ⟨_, _, _, _, sending, _⟩ := steady.running
  exact sending.inFlight_iff.mpr (steady.closing closes)

theorem start (settings : Settings) (now : Instant) (hub : Hub) (name : Uuid)
    (flag : TransportFlag)
    (goesOn : (Session.start settings now hub name flag).2.outcome = none) :
    (Session.start settings now hub name flag).2.Steady := by
  cases Disciplined.start settings now hub name flag with
  | running running =>
      refine ⟨⟨_, _, _, running⟩, fun closes => ?_⟩
      obtain ⟨breach, isClosing⟩ := Option.ne_none_iff_exists'.mp closes
      have begun := running.closing
      rw [isClosing] at begun
      obtain ⟨before, nothing⟩ := begun.exists_before
      exact absurd nothing.symm (List.append_ne_nil_of_right_ne_nil before (List.cons_ne_nil _ _))
  | ended ended =>
      rw [goesOn] at ended
      cases ended

/-- A session that closes itself and does not end has something left to send. -/
theorem waiting_of_conclude {progress : Progress}
    (goesOn : progress.conclude.session.outcome = none)
    (closes : progress.conclude.session.closing ≠ none) :
    progress.conclude.session.sender.outbox.waiting ≠ [] := by
  cases running : progress.session.outcome with
  | some outcome =>
      rw [Progress.conclude_of_ended running, running] at goesOn
      cases goesOn
  | none =>
      cases closing : progress.session.closing with
      | none =>
          rw [Progress.conclude_of_isOpen ⟨running, closing⟩] at closes
          exact absurd closing closes
      | some breach =>
          by_cases empty : progress.session.sender.outbox.isEmpty = true
          · rw [Progress.conclude, running, closing] at goesOn
            dsimp only at goesOn
            rw [if_pos empty] at goesOn
            cases goesOn
          · rw [Progress.conclude, running, closing]
            dsimp only
            rw [if_neg empty]
            exact fun nothing => empty (List.isEmpty_iff.mpr nothing)

theorem step (steady : session.Steady)
    (goesOn : (session.step directory now hub event).session.outcome = none) :
    (session.step directory now hub event).session.Steady := by
  obtain ⟨⟨sent, enqueued, handed, running⟩, closing⟩ := steady
  refine ⟨?_, ?_⟩
  · cases (Disciplined.running running).step directory now hub event with
    | running after => exact ⟨_, _, _, after⟩
    | ended ended =>
        rw [goesOn] at ended
        cases ended
  · rcases session.step_cases directory now hub event with ⟨-, same⟩ | ⟨acted, -, -, result⟩
    · rw [same]
      exact closing
    · rw [result] at goesOn ⊢
      exact waiting_of_conclude goesOn

theorem inFlight_of_handed (steady : session.Steady)
    (goesOn : (session.step directory now hub event).session.outcome = none)
    (hands : (session.step directory now hub event).handed ≠ []) :
    (session.step directory now hub event).session.sender.inFlight.isSome = true := by
  obtain ⟨⟨sent, enqueued, handed, running⟩, -⟩ := steady
  have before := congrArg List.length running.sending.handed_eq
  have atMost : (session.sent? event).toList.length ≤
      (session.sender.inFlight.map Prod.fst).toList.length := by
    unfold Session.sent?
    split
    · simp only [if_pos running.running, Nat.le_refl]
    · exact Nat.zero_le _
  have counted := List.length_pos_iff.mpr hands
  cases (Disciplined.running running).step directory now hub event with
  | running after =>
      have later := congrArg List.length after.sending.handed_eq
      simp only [List.length_append] at before later
      cases away : (session.step directory now hub event).session.sender.inFlight with
      | some message => rfl
      | none =>
          rw [away, Option.map_none, Option.toList_none, List.length_nil] at later
          omega
  | ended ended =>
      rw [goesOn] at ended
      cases ended

end Session.Steady

namespace Connection

/-- What holds of a connection between two advances. -/
def Sound (connection : Connection) : Prop :=
  match connection.stage with
  | .upgrading .. => connection.channel.isRefusing = false
  | .rejected => True
  | .serving session =>
    session.outcome = none → session.Steady ∧
      (connection.channel.isRefusing = true → session.sender.inFlight.isSome = true)

inductive Advances (directory : Directory) (now : Instant) (hub : Hub) (connection : Connection) :
    Advance → Prop where
  | rejects {opening : Opening} {deadline : Instant}
      (upgrading : connection.stage = .upgrading opening deadline) (error : SessionError) :
      Advances directory now hub connection (connection.reject hub error)
  | upgrades {opening : Opening} {deadline : Instant}
      (upgrading : connection.stage = .upgrading opening deadline) :
      Advances directory now hub connection (connection.upgrade now hub)
  | moves {session : Session} {advance : Advance} (serving : connection.stage = .serving session)
      (running : session.outcome = none)
      (moves : Moves directory now hub connection session advance) :
      Advances directory now hub connection advance

section Complete

variable {directory : Directory} {now : Instant} {hub : Hub} {connection : Connection}
  {session : Session} {advance : Advance}

theorem moves_of_advanceWrite? (running : session.outcome = none) (steady : session.Steady)
    (refusing : connection.channel.isRefusing = true → session.sender.inFlight.isSome = true)
    (found : connection.advanceWrite? directory now hub session = some advance) :
    Moves directory now hub connection session advance := by
  unfold advanceWrite? at found
  dsimp only at found
  split at found
  · rename_i refuses
    obtain ⟨⟨message, deadline⟩, inFlight⟩ := Option.isSome_iff_exists.mp (refusing refuses)
    cases found
    exact .happens (.fails inFlight (.fault _)) _
  split at found
  · cases found
  rename_i accepts waits
  have accepting : connection.channel.isRefusing = false := Bool.eq_false_iff.mpr accepts
  split at found
  · cases found
  · cases found
    unfold flush
    dsimp only
    split
    · rename_i away
      obtain ⟨⟨message, deadline⟩, inFlight⟩ := Option.isSome_iff_exists.mp away
      exact .happens (.sends accepting waits inFlight) _
    · exact .flushes accepting waits _
  · split at found
    · rename_i away
      obtain ⟨⟨message, deadline⟩, inFlight⟩ := Option.isSome_iff_exists.mp away
      cases found
      exact .happens (.fails inFlight (.fault _)) _
    · rename_i atHome
      have isOpen : session.IsOpen :=
        ⟨running, Decidable.not_not.mp fun closes => atHome (steady.inFlight_of_closing closes)⟩
      cases found
      exact .happens (.ends accepting isOpen (.fault _)) _

theorem moves_takeMessage (accepting : connection.channel.isRefusing = false)
    (isOpen : session.IsOpen) {message : Incoming} {rest : List Incoming}
    (front : connection.wire.incoming = message :: rest) :
    Moves directory now hub connection session
      (connection.takeMessage directory now hub session message) := by
  unfold takeMessage
  dsimp only
  split
  · exact .happens (.violates accepting isOpen front _) _
  split
  · rename_i means
    exact .happens (.data accepting isOpen front means) _
  · exact .happens (.pong accepting isOpen front) _
  · exact .happens (.answers accepting isOpen front _ _) _
  · exact .happens (.violates accepting isOpen front _) _

theorem moves_of_advanceRead? (accepting : connection.channel.isRefusing = false)
    (isOpen : session.IsOpen)
    (found : connection.advanceRead? directory now hub session = some advance) :
    Moves directory now hub connection session advance := by
  unfold advanceRead? at found
  dsimp only at found
  split at found
  · cases found
    exact .happens (.ends accepting isOpen .endOfStream) _
  split at found
  · rename_i message rest front
    cases found
    exact moves_takeMessage accepting isOpen front
  · split at found
    · cases found
      exact .happens (.ends accepting isOpen (.fault _)) _
    · split at found
      · split at found
        · cases found
          exact .happens (.ends accepting isOpen .endOfStream) _
        · cases found
          exact .happens (.ends accepting isOpen (.fault _)) _
      · cases found

theorem happens_of_timer? (accepting : connection.channel.isRefusing = false) {event : Event}
    (found : timer? now session = some event) :
    Happens now hub connection session connection event := by
  unfold timer? at found
  dsimp only at found
  split at found
  · rename_i overdue
    obtain ⟨limit, isLimit, due⟩ := (Option.any_eq_true _ _).mp overdue
    obtain ⟨⟨message, deadline⟩, inFlight, rfl⟩ := Option.map_eq_some_iff.mp isLimit
    cases found
    exact .fails inFlight (.overdue (of_decide_eq_true due))
  split at found
  · rename_i called
    obtain ⟨isOpen, overdue⟩ := called
    obtain ⟨limit, isLimit, due⟩ := (Option.any_eq_true _ _).mp overdue
    obtain ⟨⟨deadline, timer⟩, pending, rfl⟩ := Option.map_eq_some_iff.mp isLimit
    cases found
    cases timer with
    | ping => exact .pings accepting isOpen pending (of_decide_eq_true due)
    | pongTimeout => exact .ends accepting isOpen (.noPong pending (of_decide_eq_true due))
  split at found
  · rename_i slow
    obtain ⟨isOpen, part, due⟩ := slow
    cases found
    exact .ends accepting isOpen (.slowRequest part due)
  · cases found

theorem moves_of_advanceSession? (running : session.outcome = none) (steady : session.Steady)
    (refusing : connection.channel.isRefusing = true → session.sender.inFlight.isSome = true)
    (found : connection.advanceSession? directory now hub session = some advance) :
    Moves directory now hub connection session advance := by
  -- A channel that refuses makes the writing side act, before anything else is looked at.
  have accepting (idle : connection.advanceWrite? directory now hub session = none) :
      connection.channel.isRefusing = false := by
    cases refuses : connection.channel.isRefusing with
    | false => rfl
    | true =>
        rw [advanceWrite?, if_pos refuses] at idle
        cases idle
  unfold advanceSession? at found
  dsimp only at found
  rcases Option.or_eq_some_iff.mp found with found | ⟨idle, timer⟩
  · rcases Option.or_eq_some_iff.mp found with write | ⟨idle, read⟩
    · exact moves_of_advanceWrite? running steady refusing write
    · split at read
      · rename_i isOpen
        rcases Option.or_eq_some_iff.mp read with message | ⟨-, waits⟩
        · exact moves_of_advanceRead? (accepting idle) isOpen message
        · split at waits
          · rename_i some_reading
            obtain ⟨reading, first⟩ := Option.isSome_iff_exists.mp some_reading
            cases waits
            exact .happens (.reads (accepting idle) isOpen first) _
          · cases waits
      · cases read
  · obtain ⟨event, due, comes⟩ := Option.map_eq_some_iff.mp timer
    cases comes
    exact .happens (happens_of_timer? (accepting (Option.or_eq_none_iff.mp idle).1) due) []

theorem advances_of_advanceUpgrade? {opening : Opening} {deadline : Instant}
    (upgrading : connection.stage = .upgrading opening deadline)
    (found : connection.advanceUpgrade? now hub opening deadline = some advance) :
    Advances directory now hub connection advance := by
  have overdue {error : SessionError}
      (due : (if deadline ≤ now then some (connection.reject hub error) else none) = some advance) :
      Advances directory now hub connection advance := by
    split at due
    · cases due
      exact .rejects upgrading _
    · cases due
  unfold advanceUpgrade? at found
  dsimp only at found
  cases opening with
  | invalid =>
      cases found
      exact .rejects upgrading _
  | unfinished =>
      dsimp only at found
      split at found
      · cases found
        exact .rejects upgrading _
      · exact overdue found
  | valid =>
      dsimp only at found
      split at found
      · cases found
        exact .rejects upgrading _
      · cases found
        exact .upgrades upgrading
      · exact overdue found

theorem advances_of_advance? (sound : connection.Sound)
    (found : connection.advance? directory now hub = some advance) :
    Advances directory now hub connection advance := by
  unfold advance? at found
  unfold Sound at sound
  cases stage : connection.stage with
  | upgrading opening deadline =>
      rw [stage] at found
      exact advances_of_advanceUpgrade? stage found
  | rejected =>
      rw [stage] at found
      cases found
  | serving session =>
      rw [stage] at found sound
      dsimp only at found
      split at found
      · cases found
      · rename_i goesOn
        have running := Option.not_isSome_iff_eq_none.mp goesOn
        obtain ⟨steady, refusing⟩ := sound running
        exact .moves stage running (moves_of_advanceSession? running steady refusing found)

/-! ## The invariant -/

theorem Happens.sound {moved : Connection} {event : Event} (running : session.outcome = none)
    (steady : session.Steady) (happens : Happens now hub connection session moved event)
    (notices : List (Notice Outgoing)) :
    (moved.happen directory now hub session event notices).connection.Sound := by
  intro goesOn
  refine ⟨steady.step goesOn, fun refuses => ?_⟩
  -- Nothing but the failure of a send happens while the channel refuses, and that ends the session.
  have accepting : moved.channel.isRefusing = false := by
    cases happens with
    | fails inFlight failure =>
        rw [Session.step_of_failure running inFlight failure] at goesOn
        cases goesOn
    | ends accepting | reads accepting | pings accepting | sends accepting | data accepting
    | pong accepting | answers accepting | violates accepting => exact accepting
  refine steady.inFlight_of_handed goesOn fun nothing => ?_
  simp only [happen, nothing, List.foldl_nil, accepting] at refuses
  cases refuses

theorem sound_upgrade (accepting : connection.channel.isRefusing = false) :
    (connection.upgrade now hub).connection.Sound := by
  intro goesOn
  refine ⟨Session.Steady.start _ _ _ _ _ goesOn, fun refuses => ?_⟩
  have same : (connection.upgrade now hub).connection.channel = connection.channel := rfl
  rw [same, accepting] at refuses
  cases refuses

theorem sound_of_advance? (sound : connection.Sound)
    (found : connection.advance? directory now hub = some advance) : advance.connection.Sound := by
  cases advances_of_advance? sound found with
  | rejects => trivial
  | upgrades upgrading =>
      unfold Sound at sound
      rw [upgrading] at sound
      exact sound_upgrade sound
  | moves serving running moves =>
      unfold Sound at sound
      rw [serving] at sound
      obtain ⟨steady, refusing⟩ := sound running
      cases moves with
      | happens happens notices => exact happens.sound running steady notices
      | flushes =>
          unfold Sound
          dsimp only [emptied]
          rw [serving]
          exact sound

end Complete

end Connection

end Browser

end StationRelay
