import StationRelay.Proofs.Heartbeat

/-!
# No device holds the clock for good

The writes and timers of a device session may hold the clock.  They never hold it
for good: what is to be written is at some time written, since every answer makes
the buffer shorter, and a session that waits comes to its end by its own timers,
at the latest behind one more ping.  `endures_onTime` says so of every session in
every state.
-/

namespace StationRelay

namespace Device

/-! ## Writes come to an end -/

/-- What stands behind a packet to write is less than all there was to do. -/
theorem length_lt_of_perform {now : Instant} {keepalive later : Keepalive} {packet : Downlink}
    {actions rest : List Action}
    (performed : Session.perform now keepalive actions = (later, some (packet, rest))) :
    rest.length < actions.length := by
  induction actions generalizing keepalive with
  | nil => cases performed
  | cons action actions ih =>
      cases action with
      | send reply =>
          cases performed
          exact Nat.lt_succ_self _
      | startKeepalive | pongReceived => exact Nat.lt_succ_of_lt (ih performed)

namespace Phase

def owed : Phase → Nat
  | .writing _ _ (.resume actions) => actions.length
  | .writing .. | .waiting | .ended _ => 0

def IsSettled : Phase → Prop
  | .writing .. => False
  | .waiting | .ended _ => True

end Phase

namespace Session

/-- The first session has less to handle, or as much and less to answer. -/
def Lighter (first second : Session) : Prop :=
  first.buffer.length < second.buffer.length ∨
    first.buffer.length = second.buffer.length ∧ first.phase.owed < second.phase.owed

variable {directory : Directory} {now : Instant} {hub after : Hub} {session last : Session}
  {deeds : List Deed}

/-- The loop over the buffer stops at a write only behind a whole packet. -/
theorem Drains.shorter (drains : Drains directory now hub session deeds after last) :
    last.phase.IsSettled ∨ last.buffer.length < session.buffer.length := by
  induction drains with
  | stop | breach => exact Or.inl trivial
  | write nonempty called good =>
      subst called
      exact Or.inr (length_advance_lt good)
  | next nonempty called good performed goesOn ih =>
      subst called
      exact ih.imp_right fun shorter => Nat.lt_trans shorter (length_advance_lt good)

/-- When a write is done there is no other, or there is less to do. -/
theorem lighter_of_written {packet : Downlink} {deadline : Instant} {next : Continuation}
    (writing : session.phase = .writing packet deadline next) (directory : Directory)
    (now : Instant) (hub : Hub) :
    (session.step directory now hub .written).2.phase.IsSettled ∨
      (session.step directory now hub .written).2.Lighter session := by
  simp only [step, writing]
  cases next with
  | listen | wait | awaitPong => exact Or.inl trivial
  | resume actions =>
      rw [proceed]
      rcases performed : perform now session.keepalive actions with
        ⟨keepalive, _ | ⟨reply, rest⟩⟩
      · exact (drains_drain directory now hub _).shorter.imp_right Or.inl
      · refine Or.inr (Or.inr ⟨rfl, ?_⟩)
        rw [writing]
        exact length_lt_of_perform performed

end Session

end Device

/-! ## Sessions that see to their writes and timers -/

namespace Switchboard

open Device

def Move.Tends (index : Nat) : Move → Prop
  | .device other _ event =>
    other = index ∧ (event = .written ∨ event = .keepaliveDue ∨ event = .idleDue)
  | .connectDevice _ | .connectBrowser .. | .browser .. => False

/-- Wherever this session stands, it lets time go on. -/
def Enduring (index : Nat) (clock : Instant) (session : Session) : Prop :=
  ∀ board : Switchboard, board.devices[index]? = some session →
    Endures (OnTime index) (Move.Tends index) board clock

namespace Enduring

variable {index : Nat} {clock : Instant} {session : Session}

theorem of_ended {outcome : Outcome} (ended : session.phase = .ended outcome) :
    Enduring index clock session := by
  intro board found
  refine .of_lets fun later other isSession => ?_
  cases found.symm.trans isSession
  rw [Session.Lets, ended]
  trivial

theorem of_step {now : Instant} {event : Event}
    (tends : event = .written ∨ event = .keepaliveDue ∨ event = .idleDue) (inOrder : clock ≤ now)
    (waits : ∀ later, clock < later → later ≤ now → session.Lets later)
    (after : ∀ directory hub, Enduring index now (session.step directory now hub event).2) :
    Enduring index clock session := by
  intro board found
  have usual : (Move.device index now event).Tends index := ⟨rfl, tends⟩
  refine .of_step usual inOrder ?_
    (after board.directory board.hub _ (devices_step_device found now event))
  intro later passes early other isSession
  cases found.symm.trans isSession
  exact waits later passes early

theorem of_instant {event : Event}
    (tends : event = .written ∨ event = .keepaliveDue ∨ event = .idleDue)
    (after : ∀ directory hub, Enduring index clock (session.step directory clock hub event).2) :
    Enduring index clock session :=
  of_step tends (Nat.le_refl clock)
    (fun _ passes early => absurd passes (Nat.not_lt.mpr early)) after

/-- A session that waits comes to its end by the limit for silence, if nothing else is due
before. -/
theorem of_idle (waiting : session.phase = .waiting)
    (first : ∀ due ∈ session.keepalive.pending.map Prod.fst, session.idleDeadline ≤ due) :
    Enduring index clock session := by
  refine of_step (Or.inr (Or.inr rfl)) (Nat.le_max_left clock session.idleDeadline) ?_ ?_
  · intro later passes early
    have inTime := le_of_le_max passes early
    rw [Session.Lets, waiting]
    exact ⟨fun due pending => Nat.le_trans inTime (first due pending), inTime⟩
  · intro directory hub
    simp only [Session.step, waiting, if_pos (Nat.le_max_right clock session.idleDeadline)]
    exact of_ended rfl

theorem of_keepalive {due : Instant} {timer : KeepaliveTimer} (waiting : session.phase = .waiting)
    (pending : session.keepalive.pending = some (due, timer))
    (after : ∀ (hub : Hub) {now : Instant}, due ≤ now →
      Enduring index now (session.onKeepalive now hub).2) :
    Enduring index clock session := by
  by_cases silent : session.idleDeadline ≤ due
  · refine of_idle waiting ?_
    rw [pending]
    rintro due ⟨⟩
    exact silent
  · refine of_step (Or.inr (Or.inl rfl)) (Nat.le_max_left clock due) ?_ ?_
    · intro later passes early
      have inTime := le_of_le_max passes early
      rw [Session.Lets, waiting, pending]
      refine ⟨?_, Nat.le_trans inTime (Nat.le_of_not_le silent)⟩
      rintro due ⟨⟩
      exact inTime
    · intro directory hub
      simp only [Session.step, waiting]
      exact after hub (Nat.le_max_right clock due)

/-- A session that waits for a pong comes to its end by one of its limits. -/
theorem of_owed {due : Instant} (waiting : session.phase = .waiting)
    (pending : session.keepalive.pending = some (due, .pongTimeout)) :
    Enduring index clock session := by
  refine of_keepalive waiting pending fun hub now passed => ?_
  simp only [Session.onKeepalive, pending, if_pos passed]
  exact of_ended rfl

/-- A session that waits sends one more ping at most. -/
theorem of_waiting (waiting : session.phase = .waiting) : Enduring index clock session := by
  cases pending : session.keepalive.pending with
  | none =>
      refine of_idle waiting ?_
      rw [pending]
      exact nofun
  | some armed =>
      obtain ⟨due, _ | _⟩ := armed
      · refine of_keepalive waiting pending fun hub now passed => ?_
        simp only [Session.onKeepalive, pending, if_pos passed]
        exact of_instant (Or.inl rfl) fun _ _ => of_owed rfl rfl
      · exact of_owed waiting pending

theorem of_settled (settled : session.phase.IsSettled) : Enduring index clock session := by
  cases phase : session.phase with
  | waiting => exact of_waiting phase
  | ended => exact of_ended phase
  | writing =>
      rw [phase] at settled
      exact settled.elim

end Enduring

/-- Every session lets time go on: with each write that is done there is less to do. -/
theorem enduring (index : Nat) (clock : Instant) (session : Session) :
    Enduring index clock session := by
  cases phase : session.phase with
  | waiting => exact .of_waiting phase
  | ended => exact .of_ended phase
  | writing packet deadline next =>
      refine .of_instant (Or.inl rfl) fun directory hub => ?_
      rcases session.lighter_of_written phase directory clock hub with settled | lighter
      · exact .of_settled settled
      · exact enduring index clock _
termination_by (session.buffer.length, session.phase.owed)
decreasing_by
  rcases lighter with shorter | ⟨same, fewer⟩
  · exact Prod.Lex.left _ _ shorter
  · rw [same]
    exact Prod.Lex.right _ fewer

/-- Whatever the sessions have done, the writes and timers of one of them hold the clock as long as
they must and no longer. -/
theorem endures_onTime (index : Nat) (board : Switchboard) (clock : Instant) :
    Endures (OnTime index) (Move.Tends index) board clock := by
  cases found : board.devices[index]? with
  | none =>
      refine .of_lets fun later session isSession => ?_
      cases found.symm.trans isSession
  | some session => exact enduring index clock session board found

end Switchboard

end StationRelay
