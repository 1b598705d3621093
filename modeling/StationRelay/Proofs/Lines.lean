import StationRelay.Device.Connection
import StationRelay.Proofs.Heartbeat

/-!
# One connection by the clock

`Line` is a connection of a device with the clock and the hub, and with a log of
what its device sent and what its session did.  Bytes arrive, writes stall and
others use the hub as they please; of the events that can happen any may be
taken, and time passes only while there is none.  What a connection does by
itself is one of the ways in which a line can go on.
-/

namespace StationRelay

namespace Device

/-! ## Events that can happen -/

namespace Connection

/-- A read can give these bytes now. -/
def readable (wire : Wire UInt8) (bytes : Bytes) : Bool :=
  if bytes = [] then wire.incoming = [] && wire.readFault = none && wire.isOver
  else bytes.isPrefixOf wire.incoming && bytes.length ≤ readSize

/-- The event can happen now; a session that finds several that can takes any of them. -/
def isReady (now : Instant) (hub : Hub) (connection : Connection) (event : Event) : Bool :=
  let session := connection.session
  let wire := connection.wire
  match session.phase, event with
  | .waiting, .read bytes => readable wire bytes
  | .waiting, .readFailed fault => wire.incoming = [] && wire.readFault = some fault
  | .waiting, .command => (hub.devices.first? session.link).isSome
  | .waiting, .keepaliveDue => (session.keepalive.pending.map Prod.fst).any (· ≤ now)
  | .waiting, .idleDue => session.idleDeadline ≤ now
  | .writing .., .written => wire.writeState = .free
  | .writing .., .writeFailed fault => wire.writeState = .failing fault
  | .writing _ deadline _, .writeOverdue => wire.writeState = .blocked && deadline ≤ now
  | _, _ => false

attribute [local simp] isReady

variable {now : Instant} {hub : Hub} {connection : Connection} {event : Event}

theorem waiting_of_isReady_read {bytes : Bytes} (nonempty : bytes ≠ [])
    (ready : connection.isReady now hub (.read bytes) = true) :
    connection.session.phase = .waiting ∧ bytes <+: connection.wire.incoming := by
  cases phase : connection.session.phase with
  | waiting =>
      simp only [isReady, phase, readable, if_neg nonempty, Bool.and_eq_true,
        List.isPrefixOf_iff_prefix] at ready
      exact ⟨rfl, ready.1⟩
  | writing | ended => simp [isReady, phase] at ready

/-- Nothing can happen to a session that has ended. -/
theorem goesOn_of_isReady (ready : connection.isReady now hub event = true) :
    connection.session.outcome? = none := by
  cases phase : connection.session.phase with
  | waiting => exact outcome_of_waiting phase
  | writing => exact outcome_of_writing phase
  | ended => simp [isReady, phase] at ready

theorem quiet_of_read {wire : Wire UInt8} (read : read? wire = none) :
    wire.incoming = [] ∧ wire.readFault = none ∧ wire.isOver = false := by
  unfold read? at read
  split at read
  · cases read
  · rename_i empty
    refine ⟨Decidable.not_not.mp empty, ?_⟩
    split at read
    · cases read
    · rename_i noFault
      split at read
      · cases read
      · rename_i notOver
        exact ⟨noFault, Bool.eq_false_iff.mpr notOver⟩

theorem early_of_timer {session : Session} (timer : timer? now session = none) :
    (∀ due ∈ session.keepalive.pending.map Prod.fst, ¬ due ≤ now) ∧
      ¬ session.idleDeadline ≤ now := by
  unfold timer? at timer
  split at timer
  · rename_i deadline _ pending
    split at timer
    · cases timer
    · rename_i early
      split at timer
      · cases timer
      · rename_i silence
        rw [pending]
        refine ⟨?_, silence⟩
        rintro due ⟨⟩
        exact early
  · rename_i stopped
    split at timer
    · cases timer
    · rename_i silence
      rw [stopped]
      exact ⟨nofun, silence⟩

/-- A session that waits and finds nothing to do has read everything. -/
theorem incoming_eq_nil_of_idle (waiting : connection.session.phase = .waiting)
    (idle : connection.nextEvent? now hub = none) : connection.wire.incoming = [] := by
  simp only [nextEvent?, waiting, Option.or_eq_none_iff] at idle
  exact (quiet_of_read idle.2.1).1

theorem isReady_of_timer (waiting : connection.session.phase = .waiting)
    (timer : timer? now connection.session = some event) :
    connection.isReady now hub event = true := by
  unfold timer? at timer
  split at timer
  · rename_i deadline _ pending
    split at timer
    · rename_i due
      cases timer
      simpa [isReady, waiting, pending] using due
    · split at timer
      · rename_i due
        cases timer
        simpa [isReady, waiting] using due
      · cases timer
  · split at timer
    · rename_i due
      cases timer
      simpa [isReady, waiting] using due
    · cases timer

theorem isReady_of_read (waiting : connection.session.phase = .waiting)
    (read : read? connection.wire = some event) : connection.isReady now hub event = true := by
  unfold read? at read
  split at read
  · rename_i some
    cases read
    have nonempty : connection.wire.incoming.take readSize ≠ [] := by simp [some, readSize]
    have front : connection.wire.incoming.take readSize <+: connection.wire.incoming :=
      List.take_prefix ..
    have fits : (connection.wire.incoming.take readSize).length ≤ readSize := by
      rw [List.length_take]
      exact Nat.min_le_left ..
    simp only [isReady, waiting, readable, if_neg nonempty, Bool.and_eq_true,
      List.isPrefixOf_iff_prefix, decide_eq_true_eq]
    exact ⟨front, fits⟩
  · rename_i empty
    have empty : connection.wire.incoming = [] := Decidable.not_not.mp empty
    split at read
    · rename_i fault isFault
      cases read
      simp [isReady, waiting, empty, isFault]
    · rename_i noFault
      split at read
      · rename_i isOver
        cases read
        simp [isReady, waiting, readable, empty, noFault, isOver]
      · cases read

theorem isReady_of_write {packet : Downlink} {deadline : Instant} {next : Continuation}
    (writing : connection.session.phase = .writing packet deadline next)
    (write : write? now connection.wire deadline = some event) :
    connection.isReady now hub event = true := by
  unfold write? at write
  split at write
  · rename_i fault state
    cases write
    simp [isReady, writing, state]
  · rename_i state
    cases write
    simp [isReady, writing, state]
  · rename_i state
    split at write
    · rename_i due
      cases write
      simpa [isReady, writing, state] using due
    · cases write

theorem isReady_of_nextEvent (next : connection.nextEvent? now hub = some event) :
    connection.isReady now hub event = true := by
  unfold nextEvent? at next
  cases phase : connection.session.phase with
  | ended => simp [phase] at next
  | writing packet deadline continuation =>
      simp only [phase] at next
      exact isReady_of_write phase next
  | waiting =>
      simp only [phase, Option.or_eq_some_iff] at next
      rcases next with timer | ⟨-, read | ⟨-, command⟩⟩
      · exact isReady_of_timer phase timer
      · exact isReady_of_read phase read
      · split at command
        · rename_i posted
          cases command
          simpa [isReady, phase] using posted
        · cases command

/-- If no event comes next, none can happen. -/
theorem isReady_eq_false_of_idle (idle : connection.nextEvent? now hub = none) (event : Event) :
    connection.isReady now hub event = false := by
  unfold nextEvent? at idle
  cases phase : connection.session.phase with
  | ended => simp [isReady, phase]
  | writing packet deadline next =>
      simp only [phase, write?] at idle
      split at idle
      · cases idle
      · cases idle
      · rename_i state
        split at idle
        · cases idle
        · rename_i early
          cases event <;> simp [isReady, phase, state, early]
  | waiting =>
      simp only [phase, Option.or_eq_none_iff] at idle
      obtain ⟨timer, read, command⟩ := idle
      obtain ⟨running, silence⟩ := early_of_timer timer
      obtain ⟨empty, noFault, notOver⟩ := quiet_of_read read
      cases event with
      | read bytes =>
          cases bytes with
          | nil => simp [isReady, phase, readable, notOver]
          | cons byte rest => simp [isReady, phase, readable, empty]
      | readFailed fault => simp [isReady, phase, noFault]
      | command =>
          split at command
          · cases command
          · rename_i nothing
            simpa [isReady, phase] using nothing
      | keepaliveDue =>
          cases due? : connection.session.keepalive.pending.map Prod.fst with
          | none => simp [isReady, phase, due?]
          | some due => simpa [isReady, phase, due?] using running due due?
      | idleDue => simp [isReady, phase, silence]
      | written | writeFailed | writeOverdue => simp [isReady, phase]

end Connection

/-! ## Lines -/

inductive Sign where
  /-- The device sent these bytes. -/
  | arrived (bytes : Bytes)
  | read (bytes : Bytes)
  | did (deed : Deed)
  | ended (outcome : Outcome)
  deriving DecidableEq

abbrev History := List (Instant × Sign)

/-- A connection by the clock, and what showed of it so far. -/
structure Line where
  now : Instant
  hub : Hub
  connection : Connection
  log : History

inductive Happening where
  | passes (later : Instant)
  | arrives (bytes : Bytes)
  /-- The wire takes another state; what was sent stays. -/
  | turns (wire : Wire UInt8)
  /-- Others do something to the hub. -/
  | meddles (hub : Hub)
  | takes (event : Event)

namespace Session

def reading : Event → List Sign
  | .read bytes => if bytes = [] then [] else [.read bytes]
  | _ => []

def telling (deeds : List Deed) (last : Session) : List Sign :=
  deeds.map .did ++ (last.outcome?.map .ended).toList

def signs (directory : Directory) (now : Instant) (hub : Hub) (session : Session)
    (event : Event) : List Sign :=
  reading event ++
    telling (session.deeds directory now hub event) (session.step directory now hub event).2

end Session

namespace Line

def start (settings : Settings) (now : Instant) (hub : Hub) : Line :=
  let (hub, session) := Session.start settings now hub
  ⟨now, hub, ⟨session, {}⟩, [(now, .did (.began .greeting))]⟩

/-- Time passes only while no event can happen, and only until the next timer is due; an event
happens only when it can. -/
def Allows (line : Line) : Happening → Prop
  | .passes later =>
    line.now ≤ later ∧ (line.now < later → line.connection.nextEvent? line.now line.hub = none ∧
      ∀ due ∈ line.connection.nextDeadline?, later ≤ due)
  | .takes event => line.connection.isReady line.now line.hub event = true
  | .arrives _ | .turns _ | .meddles _ => True

instance (line : Line) : (happening : Happening) → Decidable (line.Allows happening)
  | .passes _ => inferInstanceAs (Decidable (_ ∧ (_ → _ ∧ _)))
  | .takes _ => inferInstanceAs (Decidable (_ = _))
  | .arrives _ | .turns _ | .meddles _ => inferInstanceAs (Decidable True)

def step (directory : Directory) (line : Line) : Happening → Line
  | .passes later => { line with now := later }
  | .arrives bytes =>
    { line with
      connection := { line.connection with wire := line.connection.wire.send bytes }
      log := line.log ++ [(line.now, .arrived bytes)] }
  | .turns wire =>
    { line with connection := { line.connection with
        wire := { wire with incoming := line.connection.wire.incoming } } }
  | .meddles hub => { line with hub }
  | .takes event =>
    let session := line.connection.session
    let (hub, stepped) := session.step directory line.now line.hub event
    { line with
      hub
      connection := ⟨stepped, Connection.afterEvent line.connection.wire event⟩
      log := line.log ++ (session.signs directory line.now line.hub event).map (line.now, ·) }

def run (directory : Directory) (line : Line) (happenings : List Happening) : Line :=
  happenings.foldl (step directory) line

/-- What happens is allowed when it happens. -/
def Happens (directory : Directory) : Line → List Happening → Prop
  | _, [] => True
  | line, happening :: rest =>
    line.Allows happening ∧ Happens directory (line.step directory happening) rest

instance Happens.decidable (directory : Directory) :
    (line : Line) → (happenings : List Happening) → Decidable (line.Happens directory happenings)
  | _, [] => inferInstanceAs (Decidable True)
  | line, happening :: rest =>
    have := Happens.decidable directory (line.step directory happening) rest
    inferInstanceAs (Decidable (_ ∧ Happens directory (line.step directory happening) rest))

/-- While time passes no event can happen. -/
theorem not_allows_takes_of_passes {line : Line} {later : Instant}
    (allowed : line.Allows (.passes later)) (passes : line.now < later) (event : Event) :
    ¬ line.Allows (.takes event) := by
  intro ready
  have idle := Connection.isReady_eq_false_of_idle (allowed.2 passes).1 event
  cases idle.symm.trans ready

/-- What a connection does by itself is allowed, and the line does the same. -/
theorem exists_takes_of_advance {directory : Directory} {line : Line} {hub : Hub}
    {stepped : Connection} {notices : List (Notice Downlink)}
    (advances : line.connection.advance? directory line.now line.hub =
      some (hub, stepped, notices)) :
    ∃ event, line.Allows (.takes event) ∧ (line.step directory (.takes event)).hub = hub ∧
      (line.step directory (.takes event)).connection = stepped := by
  obtain ⟨event, next, result⟩ := Option.map_eq_some_iff.mp advances
  cases result
  exact ⟨event, Connection.isReady_of_nextEvent next, rfl, rfl⟩

end Line

end Device

end StationRelay
