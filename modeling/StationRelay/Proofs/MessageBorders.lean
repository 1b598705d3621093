import StationRelay.Proofs.BrowserSteps
import StationRelay.Proofs.PrefixStability

/-!
# The borders between messages mean nothing

An open session that takes in a stream in several messages does what it would
have done with one message.  `absorb` is the account of a whole buffer, without
instants and without an outbox; `Ahead` says which account is still ahead of a
session, and every message takes what it puts into the outbox off that account.
-/

namespace StationRelay

namespace Browser

structure Account where
  /-- The messages put into the outbox, in order. -/
  enqueued : List Message
  hub : Hub
  engine : Engine
  /-- The incomplete rest, or why the session closes itself. -/
  rest : Except Breach Bytes

namespace Account

def after (account : Account) (messages : List Message) : Account :=
  { account with enqueued := messages ++ account.enqueued }

def ofBreach (hub : Hub) (engine : Engine) (breach : Breach) : Account :=
  ⟨[.close breach], hub, engine, .error breach⟩

@[simp] theorem after_nil (account : Account) : account.after [] = account :=
  rfl

theorem after_after (account : Account) (first second : List Message) :
    (account.after second).after first = account.after (first ++ second) := by
  simp only [after, List.append_assoc]

end Account

def absorb (directory : Directory) (hub : Hub) (engine : Engine) (buffer : Bytes) : Account :=
  if buffer ≠ [] then
    let handled := handle directory hub engine buffer
    if good : handled.verdict = .good then
      have _consumed := consumed_of_good good
      (absorb directory handled.hub handled.engine.takeReplies
        (buffer.drop handled.consumed)).after (handled.engine.replies.map .reply)
    else if handled.verdict = .indeterminate then ⟨[], hub, engine, .ok buffer⟩
    else if handled.verdict = .oversize then .ofBreach hub engine .oversizeRequest
    else .ofBreach hub engine .invalidRequest
  else ⟨[], hub, engine, .ok []⟩
termination_by buffer.length
decreasing_by
  simp only [List.length_drop, Frame.headerSize] at *
  omega

section Absorb

variable {directory : Directory} {hub : Hub} {engine : Engine} {buffer : Bytes}

theorem absorb_good {handled : Handled} (nonempty : buffer ≠ [])
    (called : handle directory hub engine buffer = handled) (good : handled.verdict = .good) :
    absorb directory hub engine buffer =
      (absorb directory handled.hub handled.engine.takeReplies
        (buffer.drop handled.consumed)).after (handled.engine.replies.map .reply) := by
  subst called
  rw [absorb, if_pos nonempty]
  exact dif_pos good

theorem absorb_breach {breach : Breach} (nonempty : buffer ≠ [])
    (verdict : (handle directory hub engine buffer).verdict = breach.verdict) :
    absorb directory hub engine buffer = .ofBreach hub engine breach := by
  rw [absorb, if_pos nonempty]
  dsimp only
  rw [verdict]
  cases breach with
  | invalidRequest => rw [dif_neg nofun, if_neg nofun, if_neg nofun]
  | oversizeRequest =>
      rw [dif_neg nofun, if_neg nofun]
      exact if_pos rfl

theorem absorb_stopped (stopped : buffer = [] ∨
    (handle directory hub engine buffer).verdict = .indeterminate) :
    absorb directory hub engine buffer = ⟨[], hub, engine, .ok buffer⟩ := by
  rw [absorb]
  by_cases nonempty : buffer ≠ []
  · rw [if_pos nonempty]
    dsimp only
    rw [stopped.resolve_left nonempty, dif_neg nofun, if_pos rfl]
  · rw [if_neg nonempty, Decidable.not_not.mp nonempty]

end Absorb

/-! ## What is still ahead of a session -/

/-- The session closes itself for this reason, and may already have ended for it. -/
structure Session.Closes (session : Session) (breach : Breach) : Prop where
  closing : session.closing = some breach
  outcome : session.outcome = none ∨
    session.outcome = some (some (breach.error session.settings))
  buffer : session.buffer = []

/-- The account that is ahead of a session when these bytes are still to come.  A session that
has closed itself may have left the hub, which says nothing of devices. -/
inductive Ahead (directory : Directory) (more : Bytes) (hub : Hub) (session : Session) :
    Account → Prop where
  | goesOn (isOpen : session.IsOpen) (stopped : (Progress.of hub session).Stopped directory) :
      Ahead directory more hub session
        (absorb directory hub session.engine (session.buffer ++ more))
  | closes {breach : Breach} {before : Hub} (closes : session.Closes breach)
      (devices : hub.devices = before.devices) (stations : hub.stations = before.stations) :
      Ahead directory more hub session ⟨[], before, session.engine, .error breach⟩

namespace Progress

section Drains

variable {directory : Directory} {now : Instant} {progress last : Progress}

/-- A good request takes its own replies off the account of the whole stream. -/
theorem absorb_advance {handled : Handled} (nonempty : progress.session.buffer ≠ [])
    (called : handle directory progress.hub progress.session.engine progress.session.buffer =
      handled) (good : handled.verdict = .good) (more : Bytes) :
    absorb directory progress.hub progress.session.engine (progress.session.buffer ++ more) =
      (absorb directory handled.hub (progress.advance handled).session.engine
        ((progress.advance handled).session.buffer ++ more)).after
          (handled.engine.replies.map .reply) := by
  subst called
  have settled : (handle directory progress.hub progress.session.engine
      progress.session.buffer).verdict ≠ .indeterminate := by
    rw [good]
    exact nofun
  have fits := (consumed_of_good good).2
  rw [absorb_good (List.append_ne_nil_of_left_ne_nil nonempty more) (handle_append more settled)
    good, List.drop_append_of_le_length fits]
  rfl

/-- The loop over the buffer takes what it puts into the outbox off the account. -/
theorem Drains.ahead (drains : Drains directory now progress last)
    (isOpen : progress.session.IsOpen) (more : Bytes) :
    ∃ account fresh, Ahead directory more last.hub last.session account ∧
      last.enqueued = progress.enqueued ++ fresh ∧
      absorb directory progress.hub progress.session.engine (progress.session.buffer ++ more) =
        account.after fresh := by
  induction drains with
  | stop stopped =>
      exact ⟨_, [], .goesOn isOpen stopped, (List.append_nil _).symm, (Account.after_nil _).symm⟩
  | @breach progress breach nonempty verdict =>
      have settled : (handle directory progress.hub progress.session.engine
          progress.session.buffer).verdict ≠ .indeterminate := by
        rw [verdict]
        cases breach <;> exact nofun
      have closes : (progress.beginClose now breach).session.Closes breach :=
        ⟨rfl, Or.inl isOpen.1, rfl⟩
      refine ⟨_, [.close breach], .closes closes rfl rfl, rfl, ?_⟩
      rw [absorb_breach (List.append_ne_nil_of_left_ne_nil nonempty more)]
      · rfl
      · rwa [handle_append more settled]
  | @next progress last handled nonempty called good goesOn ih =>
      obtain ⟨sender, handed, replied⟩ :=
        exists_enqueueReplies now (progress.advance handled) handled.engine.replies
      rw [replied] at ih
      obtain ⟨account, fresh, ahead, enqueued, later⟩ := ih isOpen
      refine ⟨account, handled.engine.replies.map .reply ++ fresh, ahead, ?_, ?_⟩
      · rw [enqueued, ← List.append_assoc]
        rfl
      · rw [absorb_advance nonempty called good, ← Account.after_after, ← later]
        rfl

end Drains

end Progress

namespace Session

/-- Bytes come in, or the message in flight is out. -/
inductive Traffic : Event → Prop where
  | data (bytes : Bytes) : Traffic (.data bytes)
  | sent : Traffic .sent

def bytesOf : Event → Bytes
  | .data bytes => bytes
  | _ => []

def received (events : List (Instant × Event)) : Bytes :=
  events.flatMap (bytesOf ∘ Prod.snd)

/-- What events lead to that happen one after another. -/
def undergo (directory : Directory) (hub : Hub) (session : Session) :
    List (Instant × Event) → Progress
  | [] => Progress.of hub session
  | (now, event) :: events =>
    let first := session.step directory now hub event
    let others := undergo directory first.hub first.session events
    { others with
      enqueued := first.enqueued ++ others.enqueued
      handed := first.handed ++ others.handed }

theorem received_cons (now : Instant) (event : Event) (events : List (Instant × Event)) :
    received ((now, event) :: events) = bytesOf event ++ received events :=
  List.flatMap_cons

variable {directory : Directory} {now : Instant} {hub : Hub} {session : Session}

theorem Closes.not_isOpen {breach : Breach} (closes : session.Closes breach) :
    ¬ session.IsOpen := by
  intro isOpen
  have unclosed := isOpen.2
  rw [closes.closing] at unclosed
  cases unclosed

end Session

/-! ## Events one after another -/

namespace Ahead

open Session

variable {directory : Directory} {now : Instant} {hub : Hub} {session : Session} {more : Bytes}
  {account : Account}

theorem conclude {progress : Progress}
    (ahead : Ahead directory more progress.hub progress.session account) :
    Ahead directory more progress.conclude.hub progress.conclude.session account ∧
      progress.conclude.enqueued = progress.enqueued := by
  generalize same : progress.session = session at ahead
  cases ahead with
  | goesOn isOpen stopped =>
      subst same
      rw [Progress.conclude_of_isOpen isOpen]
      exact ⟨.goesOn isOpen stopped, rfl⟩
  | @closes breach before closes devices stations =>
      subst same
      obtain ⟨closing, outcome, buffer⟩ := closes
      unfold Progress.conclude
      rcases outcome with running | ended
      · rw [running, closing]
        dsimp only
        split
        · exact ⟨.closes ⟨closing, Or.inr rfl, buffer⟩ devices stations, rfl⟩
        · exact ⟨.closes ⟨closing, Or.inl running, buffer⟩ devices stations, rfl⟩
      · rw [ended]
        exact ⟨.closes ⟨closing, Or.inr ended, buffer⟩ devices stations, rfl⟩

theorem data {bytes : Bytes} (ahead : Ahead directory (bytes ++ more) hub session account)
    (now : Instant) :
    ∃ remaining, Ahead directory more (session.step directory now hub (.data bytes)).hub
        (session.step directory now hub (.data bytes)).session remaining ∧
      account = remaining.after (session.step directory now hub (.data bytes)).enqueued := by
  cases ahead with
  | closes closes devices stations =>
      rw [step_of_shut closes.not_isOpen (.data bytes)]
      exact ⟨_, .closes closes devices stations, rfl⟩
  | goesOn isOpen stopped =>
      rw [step_of_message isOpen (.data bytes), onOpen, Progress.feed]
      by_cases nothing : bytes = []
      · rw [if_pos nothing, Progress.conclude_of_isOpen isOpen, nothing, List.nil_append]
        exact ⟨_, .goesOn isOpen stopped, (Account.after_nil _).symm⟩
      · rw [if_neg nothing]
        have drains := Progress.drains_drain directory now
          ((Progress.of hub session).extend now bytes)
        obtain ⟨remaining, fresh, ahead, enqueued, taken⟩ := drains.ahead isOpen more
        obtain ⟨concluded, kept⟩ := ahead.conclude
        refine ⟨remaining, concluded, ?_⟩
        change _ = remaining.after
          (((Progress.of hub session).extend now bytes).drain directory now).conclude.enqueued
        rw [← List.append_assoc, kept, enqueued]
        exact taken

theorem sent (ahead : Ahead directory more hub session account) (now : Instant) :
    Ahead directory more (session.step directory now hub .sent).hub
        (session.step directory now hub .sent).session account ∧
      (session.step directory now hub .sent).enqueued = [] := by
  unfold step
  dsimp only
  split
  · exact ⟨ahead, rfl⟩
  · split
    · have sending : Ahead directory more ((Progress.of hub session).onSent now).hub
          ((Progress.of hub session).onSent now).session account := by
        cases ahead with
        | goesOn isOpen stopped => exact .goesOn isOpen stopped
        | closes closes devices stations =>
            exact .closes ⟨closes.closing, closes.outcome, closes.buffer⟩ devices stations
      exact sending.conclude
    · exact ⟨ahead, rfl⟩

theorem undergo {events : List (Instant × Event)}
    (traffic : ∀ entry ∈ events, Traffic entry.2)
    (ahead : Ahead directory (received events) hub session account) :
    ∃ remaining, Ahead directory [] (session.undergo directory hub events).hub
        (session.undergo directory hub events).session remaining ∧
      account = remaining.after (session.undergo directory hub events).enqueued := by
  induction events generalizing hub session account with
  | nil => exact ⟨account, ahead, rfl⟩
  | cons entry events ih =>
      obtain ⟨now, event⟩ := entry
      obtain ⟨first, others⟩ := List.forall_mem_cons.mp traffic
      rw [received_cons] at ahead
      dsimp only at first
      cases first with
      | data bytes =>
          obtain ⟨next, aheadNext, taken⟩ := ahead.data now
          obtain ⟨remaining, aheadLast, rest⟩ := ih others aheadNext
          refine ⟨remaining, aheadLast, ?_⟩
          rw [taken, rest, Account.after_after]
          rfl
      | sent =>
          obtain ⟨aheadNext, nothing⟩ := ahead.sent now
          obtain ⟨remaining, aheadLast, rest⟩ := ih others aheadNext
          refine ⟨remaining, aheadLast, rest.trans ?_⟩
          rw [Session.undergo, nothing]
          rfl

/-- At the end of a stream the account holds what is left in the buffer, or the reason for which
the session closes itself. -/
theorem settled (ahead : Ahead directory [] hub session account) :
    (session.IsOpen ∧ (Progress.of hub session).Stopped directory ∧
        account = ⟨[], hub, session.engine, .ok session.buffer⟩) ∨
      ∃ breach before, session.Closes breach ∧ hub.devices = before.devices ∧
        hub.stations = before.stations ∧ account = ⟨[], before, session.engine, .error breach⟩ := by
  cases ahead with
  | goesOn isOpen stopped =>
      rw [List.append_nil]
      exact Or.inl ⟨isOpen, stopped, absorb_stopped stopped⟩
  | closes closes devices stations =>
      exact Or.inr ⟨_, _, closes, devices, stations, rfl⟩

end Ahead

namespace Session

/-- Two sessions either both go on with the same bytes left, or both close themselves for the same
reason and look at nothing that still comes in. -/
inductive SameEnd (directory : Directory) (hub other : Hub) (session another : Session) : Prop where
  | goesOn (isOpen : session.IsOpen) (isOpenOther : another.IsOpen)
      (buffer : session.buffer = another.buffer)
      (stopped : (Progress.of hub session).Stopped directory) (sameHub : hub = other) :
      SameEnd directory hub other session another
  | closes {breach : Breach} (closes : session.Closes breach) (closesOther : another.Closes breach)
      (deaf : ∀ now bytes,
        session.step directory now hub (.data bytes) = Progress.of hub session ∧
          another.step directory now other (.data bytes) = Progress.of other another) :
      SameEnd directory hub other session another

/-- An open session takes in a stream with the same messages put into the outbox, the same
commands in the mailboxes of the devices and the same end, however the stream is cut into
messages and whenever its sends are done. -/
theorem undergo_eq_of_received_eq {directory : Directory} {hub : Hub} {session : Session}
    (isOpen : session.IsOpen) (stopped : (Progress.of hub session).Stopped directory)
    {events others : List (Instant × Event)} (traffic : ∀ entry ∈ events, Traffic entry.2)
    (trafficOther : ∀ entry ∈ others, Traffic entry.2) (same : received events = received others) :
    let first := session.undergo directory hub events
    let second := session.undergo directory hub others
    first.enqueued = second.enqueued ∧ first.hub.devices = second.hub.devices ∧
      first.hub.stations = second.hub.stations ∧ first.session.engine = second.session.engine ∧
      SameEnd directory first.hub second.hub first.session second.session := by
  intro first second
  have begins : Ahead directory (received events) hub session _ := .goesOn isOpen stopped
  obtain ⟨remaining, ahead, account⟩ := begins.undergo traffic
  rw [same] at begins account
  obtain ⟨remainingOther, aheadOther, accountOther⟩ := begins.undergo trafficOther
  have together := account.symm.trans accountOther
  rcases ahead.settled with
    ⟨goesOn, stoppedLast, rfl⟩ | ⟨breach, before, closes, devices, stations, rfl⟩
  · rcases aheadOther.settled with ⟨goesOnOther, _, rfl⟩ | ⟨_, _, _, _, _, rfl⟩
    · injection together with enqueued sameHub engine rest
      simp only [List.append_nil] at enqueued
      injection rest with buffer
      exact ⟨enqueued, congrArg Hub.devices sameHub, congrArg Hub.stations sameHub, engine,
        .goesOn goesOn goesOnOther buffer stoppedLast sameHub⟩
    · injection together with _ _ _ different
      cases different
  · rcases aheadOther.settled with
      ⟨_, _, rfl⟩ | ⟨breachOther, beforeOther, closesOther, devicesOther, stationsOther, rfl⟩
    · injection together with _ _ _ different
      cases different
    · injection together with enqueued sameHub engine rest
      simp only [List.append_nil] at enqueued
      injection rest with sameBreach
      subst sameHub sameBreach
      refine ⟨enqueued, devices.trans devicesOther.symm, stations.trans stationsOther.symm, engine,
        .closes closes closesOther ?_⟩
      intro now bytes
      exact ⟨step_of_shut closes.not_isOpen (.data bytes),
        step_of_shut closesOther.not_isOpen (.data bytes)⟩

/-- A request for the stations with the beginning of another and a request that is no JSON, in one
message and in several, with an empty one among them and with sends done in between. -/
theorem undergo_eq_two_requests :
    let directory : Directory := ⟨fun _ => true, Station.defaultName⟩
    let begun := start {} 0 Hub.empty ⟨List.replicate 16 0x40, rfl⟩ .plain
    let stream : Bytes :=
      [8, 0, 0x7b, 0x22, 0x69, 0x64, 0x22, 0x3a, 0x31, 0x7d, 1, 0, 0x7d, 8, 0]
    let whole : List (Instant × Event) := [(1, .data stream)]
    let pieces : List (Instant × Event) :=
      [(1, .data (stream.take 1)), (2, .data []), (3, .data ((stream.drop 1).take 9)), (4, .sent),
        (5, .data ((stream.drop 10).take 1)), (6, .data (stream.drop 11)), (7, .sent)]
    let first := begun.2.undergo directory begun.1 whole
    let second := begun.2.undergo directory begun.1 pieces
    first.enqueued = second.enqueued ∧ first.enqueued.length = 2 ∧
      SameEnd directory first.hub second.hub first.session second.session := by
  intro directory begun stream whole pieces first second
  have isOpen : begun.2.IsOpen := by decide
  have stopped : (Progress.of begun.1 begun.2).Stopped directory := Or.inl rfl
  have traffic : ∀ entry ∈ whole, Traffic entry.2 := by
    simp only [whole, List.forall_mem_cons]
    exact ⟨.data _, nofun⟩
  have trafficPieces : ∀ entry ∈ pieces, Traffic entry.2 := by
    simp only [pieces, List.forall_mem_cons]
    exact ⟨.data _, .data _, .data _, .sent, .data _, .data _, .sent, nofun⟩
  have sameBytes : received whole = received pieces := by decide
  obtain ⟨enqueued, _, _, _, sameEnd⟩ :=
    undergo_eq_of_received_eq isOpen stopped traffic trafficPieces sameBytes
  exact ⟨enqueued, by decide +kernel, sameEnd⟩

end Session

end Browser

end StationRelay
