import StationRelay.Proofs.Attention
import StationRelay.Proofs.Divergence
import StationRelay.Proofs.Exchange
import StationRelay.Proofs.FrameStream
import StationRelay.Proofs.PartialRequests

/-!
# What is left in a buffer

The loops over a buffer have no bound of their own.  They end because a good call
takes some bytes, and what they leave is a part of one packet or request.  A
device session stops in its loop to write, and may find another hub behind every
write; `Works` follows it through.  `drained_run` says that both loops end and
what they leave, and that no session waits with more in its buffer, in whatever
way the turns of all sessions are mixed.
-/

namespace StationRelay

/-! ## Good calls -/

section Calls

variable {State : Type} {call : Hub → State → Bytes → Verdict × Nat × State}

/-- Good calls one after the other, each on what the one before it left of the buffer.  Others may
change the hub before each of them. -/
inductive Calls (call : Hub → State → Bytes → Verdict × Nat × State) :
    State → Bytes → Nat → State → Bytes → Prop where
  | none (state : State) (buffer : Bytes) : Calls call state buffer 0 state buffer
  | more {state next last : State} {buffer left : Bytes} {consumed count : Nat} (hub : Hub)
      (nonempty : buffer ≠ []) (good : call hub state buffer = (.good, consumed, next))
      (later : Calls call next (buffer.drop consumed) count last left) :
      Calls call state buffer (count + 1) last left

/-- A good call takes at least so many bytes, and no more than there are. -/
def Takes (least : Nat) (call : Hub → State → Bytes → Verdict × Nat × State) : Prop :=
  ∀ hub state buffer, (call hub state buffer).1 = .good →
    least ≤ (call hub state buffer).2.1 ∧ (call hub state buffer).2.1 ≤ buffer.length

namespace Calls

variable {state mid last : State} {buffer between left : Bytes} {count more : Nat}

theorem trans (calls : Calls call state buffer count mid between)
    (goesOn : Calls call mid between more last left) :
    Calls call state buffer (more + count) last left := by
  induction calls with
  | none => exact goesOn
  | more hub nonempty good _ ih => exact .more hub nonempty good (ih goesOn)

theorem suffix (calls : Calls call state buffer count last left) : left <:+ buffer := by
  induction calls with
  | none => exact List.suffix_rfl
  | more _ _ _ _ ih => exact ih.trans (List.drop_suffix _ _)

/-- There are no more good calls than the bytes allow. -/
theorem length_le {least : Nat} (takes : Takes least call)
    (calls : Calls call state buffer count last left) :
    least * count + left.length ≤ buffer.length := by
  induction calls with
  | none => simp
  | @more state next last buffer left consumed count hub nonempty good later ih =>
      have took := takes hub state buffer (congrArg Prod.fst good)
      rw [good] at took
      obtain ⟨some, inside⟩ := took
      rw [List.length_drop] at ih
      rw [Nat.mul_succ]
      dsimp only at some inside
      omega

end Calls

end Calls

/-! ## Devices -/

namespace Uplink

theorem IsPartial.length_le {buffer : Bytes} (part : IsPartial buffer) : buffer.length ≤ 29 := by
  rcases part with rfl | ⟨needed, available, incomplete⟩
  · exact Nat.zero_le _
  · rw [← decode_format] at incomplete
    have awaits := (lawful.decode_eq_incomplete_iff.mp incomplete).1
    cases awaits with
    | tag => exact Nat.zero_le _
    | @body kind rest short => exact Nat.le_of_lt_succ (Nat.lt_of_lt_of_le short kind.size_le)

end Uplink

namespace Device

def call (directory : Directory) (hub : Hub) (engine : Engine) (buffer : Bytes) :
    Verdict × Nat × Engine :=
  let handled := handle directory hub engine buffer
  (handled.verdict, handled.consumed, handled.engine.takeActions)

theorem takes_call (directory : Directory) : Takes 1 (call directory) :=
  fun _ _ _ good => consumed_of_good good

namespace Session

/-- Where the handling of a buffer can stand: at a write, or at its end. -/
inductive Worked (directory : Directory) (session last : Session) : Prop where
  | waits {count : Nat} (waiting : last.phase = .waiting) (rest : Uplink.IsPartial last.buffer)
      (calls : Calls (call directory) session.engine session.buffer count last.engine
        last.buffer) : Worked directory session last
  | writes {count : Nat} {packet : Downlink} {deadline : Instant} {actions : List Action}
      (writing : last.phase = .writing packet deadline (.resume actions))
      (calls : Calls (call directory) session.engine session.buffer count last.engine
        last.buffer) : Worked directory session last
  | breaks {count : Nat} {engine : Engine} {tag : UInt8} {rest : Bytes}
      (ended : last.phase = .ended (some (.badPacket tag))) (front : last.buffer = tag :: rest)
      (calls : Calls (call directory) session.engine session.buffer count engine last.buffer) :
      Worked directory session last

/-- The handling of a buffer up to a write or to its end; it goes on at any instant and over any
hub. -/
inductive Works (directory : Directory) (session : Session) : Session → Prop where
  | begins (now : Instant) (hub : Hub) :
      Works directory session (session.drain directory now hub).2
  | resumes {last : Session} {packet : Downlink} {deadline : Instant} {actions : List Action}
      (works : Works directory session last)
      (writing : last.phase = .writing packet deadline (.resume actions)) (now : Instant)
      (hub : Hub) : Works directory session (last.step directory now hub .written).2

/-- The second session is the first behind a write, after which it handles more. -/
def Resumes (directory : Directory) (next session : Session) : Prop :=
  ∃ packet deadline actions now hub,
    session.phase = .writing packet deadline (.resume actions) ∧
      next = (session.step directory now hub .written).2

variable {directory : Directory} {now : Instant} {hub after : Hub} {session mid last : Session}
  {deeds : List Deed}

theorem Worked.behind {count : Nat} (worked : Worked directory mid last)
    (calls : Calls (call directory) session.engine session.buffer count mid.engine mid.buffer) :
    Worked directory session last := by
  cases worked with
  | waits waiting rest goesOn => exact .waits waiting rest (calls.trans goesOn)
  | writes writing goesOn => exact .writes writing (calls.trans goesOn)
  | breaks ended front goesOn => exact .breaks ended front (calls.trans goesOn)

theorem Drains.worked (drains : Drains directory now hub session deeds after last) :
    Worked directory session last := by
  have one {hub : Hub} {session : Session} {handled : Handled} (nonempty : session.buffer ≠ [])
      (called : handle directory hub session.engine session.buffer = handled)
      (good : handled.verdict = .good) :
      Calls (call directory) session.engine session.buffer 1 handled.engine.takeActions
        (session.buffer.drop handled.consumed) := by
    refine .more hub nonempty ?_ (.none _ _)
    rw [call, called, good]
  induction drains with
  | stop stopped => exact .waits rfl (isPartial_of_stopped stopped) (.none _ _)
  | breach front => exact .breaks rfl front (.none _ _)
  | write nonempty called good => exact .writes rfl (one nonempty called good)
  | next nonempty called good _ _ ih => exact ih.behind (one nonempty called good)

theorem Worked.suffix (worked : Worked directory session last) :
    last.buffer <:+ session.buffer := by
  cases worked with
  | waits _ _ calls | writes _ calls | breaks _ _ calls => exact calls.suffix

/-- A write that is done leads to the next one, or into the loop again. -/
theorem worked_of_written {packet : Downlink} {deadline : Instant} {actions : List Action}
    (writing : session.phase = .writing packet deadline (.resume actions))
    (directory : Directory) (now : Instant) (hub : Hub) :
    Worked directory session (session.step directory now hub .written).2 := by
  simp only [step, writing]
  rw [proceed]
  rcases performed : perform now session.keepalive actions with ⟨keepalive, _ | ⟨reply, rest⟩⟩
  · have drained := drains_drain directory now hub { session with keepalive }
    exact drained.worked.behind (.none _ _)
  · exact .writes rfl (.none _ _)

theorem Works.worked (works : Works directory session last) : Worked directory session last := by
  induction works with
  | begins now hub => exact (drains_drain directory now hub session).worked
  | resumes _ writing now hub ih =>
      cases ih with
      | waits waiting => cases writing.symm.trans waiting
      | breaks ended => cases writing.symm.trans ended
      | writes _ calls => exact (worked_of_written writing directory now hub).behind calls

def pending (session : Session) : Nat :=
  match session.phase with
  | .writing .. => session.phase.owed + 1
  | .waiting | .ended _ => 0

theorem pending_of_isSettled (settled : session.phase.IsSettled) : session.pending = 0 := by
  unfold pending
  cases phase : session.phase with
  | writing =>
      rw [phase] at settled
      exact settled.elim
  | waiting | ended => rfl

theorem pending_le (session : Session) : session.pending ≤ session.phase.owed + 1 := by
  unfold pending
  cases session.phase with
  | writing => exact Nat.le_refl _
  | waiting | ended => exact Nat.zero_le _

/-- Behind a write there is less in the buffer, or as much and less to write. -/
theorem Resumes.decreases {next : Session} (resumes : Resumes directory next session) :
    Prod.Lex (· < ·) (· < ·) (next.buffer.length, next.pending)
      (session.buffer.length, session.pending) := by
  obtain ⟨packet, deadline, actions, now, hub, writing, rfl⟩ := resumes
  have owes : session.pending = session.phase.owed + 1 := by rw [pending, writing]
  rcases lighter_of_written writing directory now hub with settled | shorter | ⟨same, fewer⟩
  · have none := pending_of_isSettled settled
    have suffix := (worked_of_written writing directory now hub).suffix
    rcases Nat.eq_or_lt_of_le suffix.length_le with same | shorter
    · rw [same, none, owes]
      exact .right _ (Nat.succ_pos _)
    · exact .left _ _ shorter
  · exact .left _ _ shorter
  · rw [same, owes]
    exact .right _ (Nat.lt_of_le_of_lt (pending_le _) (Nat.succ_lt_succ fewer))

/-- No session goes on writing and handling for ever. -/
theorem wellFounded_resumes (directory : Directory) : WellFounded (Resumes directory) :=
  Subrelation.wf Resumes.decreases
    (InvImage.wf (fun session : Session => (session.buffer.length, session.pending))
      (Prod.lex Nat.lt_wfRel Nat.lt_wfRel).wf)

/-! ### Sessions that wait -/

/-- A session that waits, or will wait once it has written, has no more than a part of a packet. -/
def Rests (session : Session) : Prop :=
  match session.phase with
  | .writing _ _ (.resume _) | .ended _ => True
  | .writing .. | .waiting => Uplink.IsPartial session.buffer

theorem Rests.of_waiting (rests : session.Rests) (waiting : session.phase = .waiting) :
    Uplink.IsPartial session.buffer := by
  rw [Rests, waiting] at rests
  exact rests

theorem Worked.rests (worked : Worked directory session last) : last.Rests := by
  unfold Rests
  cases worked with
  | waits waiting rest =>
      rw [waiting]
      exact rest
  | writes writing =>
      rw [writing]
      trivial
  | breaks ended =>
      rw [ended]
      trivial

theorem Steps.rests {event : Event} (steps : Steps directory now hub session event deeds after last)
    (rests : session.Rests) : last.Rests := by
  cases steps with
  | idle => exact rests
  | ends | replies => trivial
  | reads _ _ drains | resumes _ _ drains => exact drains.worked.rests
  | requests waiting | pings waiting => exact rests.of_waiting waiting
  | listens writing | waits writing | awaits writing =>
      rw [Rests, writing] at rests
      exact rests

end Session

def Worker.Spare (worker : Worker) : Prop :=
  worker.task = .rest → worker.session.Rests

section Workers

variable {directory : Directory} {now : Instant} {hub : Hub} {session : Session}
  {worker last : Worker} {actions : List Action} {notes : List Note} {taken : Turn Worker Note}

theorem CarriesOn.spare (carries : CarriesOn now session actions last notes) : last.Spare := by
  cases carries with
  | write => exact fun _ => trivial
  | drain => exact nofun

theorem Turns.spare (turns : Turns directory now hub worker taken) (busy : worker.task ≠ .rest) :
    taken.worker.Spare := by
  cases turns with
  | idle => exact fun resting => absurd resting busy
  | ends => exact fun _ => trivial
  | reads resting | requests resting | pings resting | wrote resting | resumes resting =>
      exact absurd resting busy
  | stops _ stopped => exact fun _ => isPartial_of_stopped stopped
  | finds | holds => exact nofun
  | handles _ _ _ _ carries | drops _ carries | posts _ carries => exact carries.spare

theorem Session.Rests.begin (rests : session.Rests) (directory : Directory) (now : Instant)
    (hub : Hub) (event : Event) : (session.begin directory now hub event).worker.Spare := by
  have atOnce : (session.stepAtOnce directory now hub event).worker.Spare :=
    fun _ => (session.steps_step directory now hub event).rests rests
  unfold Session.begin
  split
  · split
    · exact atOnce
    · exact nofun
  · obtain ⟨last, notes, result, carries⟩ := exists_carriesOn now hub session _
    rw [result]
    exact carries.spare
  · exact atOnce

theorem Worker.Spare.turn (spare : worker.Spare) (directory : Directory) (now : Instant)
    (hub : Hub) (stimulus : Stimulus) : (worker.turn directory now hub stimulus).worker.Spare := by
  by_cases resting : worker.task = .rest
  · cases stimulus with
    | event event =>
        rw [Worker.turn, if_pos resting]
        exact (spare resting).begin directory now hub event
    | go =>
        rw [Worker.turn, Worker.go, resting]
        exact spare
  · exact (turns_turn directory now hub worker stimulus).spare resting

end Workers

end Device

/-! ## Browsers -/

namespace Browser

/-- A part of a request is shorter than the longest one that is allowed, with its length. -/
theorem Incomplete.length_le {settings : Settings} {buffer : Bytes}
    (incomplete : Incomplete settings buffer) : buffer.length ≤ settings.maxPayload + 1 := by
  obtain ⟨-, needed, available, decoded⟩ := incomplete
  have awaits := (Frame.decode_eq_incomplete_iff.mp decoded).1
  have short := awaits.lt
  cases awaits with
  | header =>
      unfold Frame.headerSize at short
      omega
  | payload allowed =>
      unfold Frame.headerSize at short
      omega

def call (directory : Directory) (hub : Hub) (engine : Engine) (buffer : Bytes) :
    Verdict × Nat × Engine :=
  let handled := handle directory hub engine buffer
  (handled.verdict, handled.consumed, handled.engine.takeReplies)

theorem takes_call (directory : Directory) : Takes 2 (call directory) :=
  fun _ _ _ good => consumed_of_good good

/-- How the handling of a buffer ends. -/
inductive Progress.Worked (directory : Directory) (progress last : Progress) : Prop where
  | waits {count : Nat}
      (rest : last.session.buffer = [] ∨ ∃ needed available,
        Frame.decode last.session.engine.maxPayload last.session.buffer =
          .error (.incomplete needed available))
      (calls : Calls (call directory) progress.session.engine progress.session.buffer count
        last.session.engine last.session.buffer) : Progress.Worked directory progress last
  | closes {count : Nat} {left : Bytes} {breach : Breach}
      (closing : last.session.closing = some breach) (empty : last.session.buffer = [])
      (calls : Calls (call directory) progress.session.engine progress.session.buffer count
        last.session.engine left) : Progress.Worked directory progress last

theorem Progress.Drains.worked {directory : Directory} {now : Instant} {progress last : Progress}
    (drains : Progress.Drains directory now progress last) :
    Progress.Worked directory progress last := by
  induction drains with
  | @stop progress stopped =>
      refine .waits ?_ (.none _ _)
      by_cases empty : progress.session.buffer = []
      · exact Or.inl empty
      · have part : Incomplete { maxPayload := progress.session.engine.maxPayload }
            progress.session.buffer :=
          incomplete_of_indeterminate empty rfl (stopped.resolve_left empty)
        exact Or.inr part.2
  | breach => exact .closes rfl rfl (.none _ _)
  | @next progress last handled nonempty called good goesOn ih =>
      have one : call directory progress.hub progress.session.engine progress.session.buffer =
          (.good, handled.consumed, handled.engine.takeReplies) := by
        rw [call, called, good]
      obtain ⟨sender, handed, replied⟩ :=
        (progress.advance handled).exists_enqueueReplies now handled.engine.replies
      rw [replied] at ih
      cases ih with
      | waits rest calls => exact .waits rest (.more progress.hub nonempty one calls)
      | closes closing empty calls =>
          exact .closes closing empty (.more progress.hub nonempty one calls)

/-! ### Sessions that wait -/

/-- A worker that waits for an event has no more than a part of a request that keeps to the limit;
the limit is that of the settings. -/
structure Worker.Spare (settings : Settings) (worker : Worker) : Prop where
  limit : worker.session.engine.maxPayload = settings.maxPayload
  rest : worker.task = .rest →
    worker.session.buffer = [] ∨ Incomplete settings worker.session.buffer

theorem Turns.spare {settings : Settings} {directory : Directory} {now : Instant} {hub : Hub}
    {worker : Worker} {turn : Turn Worker Note} (turns : Turns directory now hub worker turn)
    (spare : worker.Spare settings) : turn.worker.Spare settings := by
  obtain ⟨limit, rest⟩ := spare
  cases turns with
  | idle => exact ⟨limit, rest⟩
  | changes resting | delivers resting | ends resting => exact ⟨limit, fun _ => rest resting⟩
  | reads | begins | skips | finds | posts | answers => exact ⟨limit, nofun⟩
  | breaches => exact ⟨limit, fun _ => Or.inl rfl⟩
  | stops _ stopped =>
      refine ⟨limit, fun _ => ?_⟩
      by_cases empty : worker.session.buffer = []
      · exact Or.inl empty
      · exact Or.inr (incomplete_of_indeterminate empty limit (stopped.resolve_left empty))

theorem Session.spare_start (settings : Settings) (now : Instant) (hub : Hub) (name : Uuid)
    (flag : TransportFlag) :
    Worker.Spare settings ⟨(Session.start settings now hub name flag).2, .rest⟩ := by
  simp only [Session.start]
  split <;> exact ⟨rfl, fun _ => Or.inl rfl⟩

end Browser

/-! ## Runs -/

namespace Exchange

structure Spare (settings : Settings) (exchange : Exchange) : Prop where
  own : exchange.settings = settings
  devices : ∀ worker ∈ exchange.devices, worker.Spare
  browsers : ∀ worker ∈ exchange.browsers, worker.Spare settings

variable {settings : Settings} {exchange : Exchange}

theorem Spare.step (spare : exchange.Spare settings) (move : Move) :
    (exchange.step move).1.Spare settings := by
  obtain ⟨own, devices, browsers⟩ := spare
  cases move with
  | connectDevice now =>
      refine ⟨own, fun worker member => ?_, browsers⟩
      rcases List.mem_append.mp member with old | new
      · exact devices worker old
      · rw [List.mem_singleton.mp new]
        exact fun _ => Or.inl rfl
  | connectBrowser now name flag =>
      refine ⟨own, devices, fun worker member => ?_⟩
      rcases List.mem_append.mp member with old | new
      · exact browsers worker old
      · rw [List.mem_singleton.mp new, own]
        exact Browser.Session.spare_start settings now exchange.hub name flag
  | device index now stimulus =>
      rw [Exchange.step]
      split
      · rename_i worker found
        refine ⟨own, fun other member => ?_, browsers⟩
        rcases List.mem_or_eq_of_mem_set member with old | rfl
        · exact devices other old
        · exact (devices worker (List.mem_of_getElem? found)).turn _ now _ stimulus
      · exact ⟨own, devices, browsers⟩
  | browser index now stimulus =>
      rw [Exchange.step]
      split
      · rename_i worker found
        refine ⟨own, devices, fun other member => ?_⟩
        rcases List.mem_or_eq_of_mem_set member with old | rfl
        · exact browsers other old
        · exact (Browser.turns_turn _ now _ worker stimulus).spare
            (browsers worker (List.mem_of_getElem? found))
      · exact ⟨own, devices, browsers⟩

theorem spare_run (directory : Directory) (settings : Settings) (moves : List Move) :
    ((start directory settings).run moves).Spare settings := by
  have begun : (start directory settings).Spare settings :=
    ⟨rfl, fun _ => List.not_mem_nil.elim, fun _ => List.not_mem_nil.elim⟩
  have goesOn {exchange : Exchange} (spare : exchange.Spare settings) :
      (exchange.run moves).Spare settings := by
    induction moves generalizing exchange with
    | nil => exact spare
    | cons move moves ih => exact ih (spare.step move)
  exact goesOn begun

/-- The loops over the buffers end and leave a part of one packet or request at most. -/
structure Drained (directory : Directory) (settings : Settings) : Prop where
  takesDevice : Takes 1 (Device.call directory)
  takesBrowser : Takes 2 (Browser.call directory)
  /-- There are only finitely many good calls. -/
  callsDevice : ∀ {engine last : Device.Engine} {buffer left : Bytes} {count : Nat},
    Calls (Device.call directory) engine buffer count last left →
      count + left.length ≤ buffer.length ∧ left <:+ buffer
  callsBrowser : ∀ {engine last : Browser.Engine} {buffer left : Bytes} {count : Nat},
    Calls (Browser.call directory) engine buffer count last left →
      2 * count + left.length ≤ buffer.length ∧ left <:+ buffer
  /-- The loops consist of good calls, and a device whose packet is bad has one. -/
  device : ∀ session last, Device.Session.Works directory session last →
    Device.Session.Worked directory session last
  writes : WellFounded (Device.Session.Resumes directory)
  browser : ∀ now (progress : Browser.Progress) bytes, bytes ≠ [] →
    Browser.Progress.Worked directory (progress.extend now bytes)
      (progress.feed directory now bytes)
  /-- No session waits with more, at any moment of any run. -/
  devices : ∀ moves, ∀ worker ∈ ((start directory settings).run moves).devices,
    worker.task = .rest → worker.session.phase = .waiting →
      Uplink.IsPartial worker.session.buffer ∧ worker.session.buffer.length ≤ 29
  browsers : ∀ moves, ∀ worker ∈ ((start directory settings).run moves).browsers,
    worker.task = .rest → worker.session.outcome = none →
      (worker.session.buffer = [] ∨ Browser.Incomplete settings worker.session.buffer) ∧
        worker.session.buffer.length ≤ settings.maxPayload + 1

/-- Whatever the engine, the buffer and the hub, the loops over the buffers end with a part of a
packet or request, and in every run no session waits with more. -/
theorem drained_run (directory : Directory) (settings : Settings) :
    Drained directory settings := by
  constructor
  case takesDevice => exact Device.takes_call directory
  case takesBrowser => exact Browser.takes_call directory
  case callsDevice =>
    intro engine last buffer left count calls
    have bound := calls.length_le (Device.takes_call directory)
    rw [Nat.one_mul] at bound
    exact ⟨bound, calls.suffix⟩
  case callsBrowser =>
    intro engine last buffer left count calls
    exact ⟨calls.length_le (Browser.takes_call directory), calls.suffix⟩
  case device => exact fun session last works => works.worked
  case writes => exact Device.Session.wellFounded_resumes directory
  case browser =>
    intro now progress bytes nonempty
    rw [Browser.Progress.feed, if_neg nonempty]
    exact (Browser.Progress.drains_drain directory now (progress.extend now bytes)).worked
  case devices =>
    intro moves worker member resting waiting
    have part := ((spare_run directory settings moves).devices worker member resting).of_waiting
      waiting
    exact ⟨part, part.length_le⟩
  case browsers =>
    intro moves worker member resting _
    have rest := ((spare_run directory settings moves).browsers worker member).rest resting
    refine ⟨rest, ?_⟩
    rcases rest with empty | incomplete
    · rw [empty]
      exact Nat.zero_le _
    · exact incomplete.length_le

end Exchange

end StationRelay
