import StationRelay.Proofs.Deeds
import StationRelay.Proofs.Handling
import StationRelay.Proofs.PrefixStability

/-!
# How a stream is cut does not matter

A session that takes in a stream in several reads does what it would have done
with one read.  `absorb` is the account of a whole buffer, without instants and
without phases; `Ahead` says which account is still ahead of a session in the
midst of a delivery, and every step of the delivery takes its own deeds off
that account.
-/

namespace StationRelay

namespace Device

def Action.deeds : Action → List Deed
  | .send packet => [.began packet, .wrote packet]
  | .startKeepalive => [.startedKeepalive]
  | .pongReceived => [.passedPong]

structure Account where
  deeds : List Deed
  hub : Hub
  engine : Engine
  /-- The incomplete rest, or the tag of the packet that broke the protocol. -/
  rest : Except UInt8 Bytes

namespace Account

def after (account : Account) (deeds : List Deed) : Account :=
  { account with deeds := deeds ++ account.deeds }

@[simp] theorem after_nil (account : Account) : account.after [] = account :=
  rfl

theorem after_after (account : Account) (first second : List Deed) :
    (account.after second).after first = account.after (first ++ second) := by
  simp only [after, List.append_assoc]

end Account

/-- The account of handling a buffer with every write carried out at once. -/
def absorb (directory : Directory) (hub : Hub) (engine : Engine) (buffer : Bytes) : Account :=
  if nonempty : buffer ≠ [] then
    let handled := handle directory hub engine buffer
    if good : handled.verdict = .good then
      have _consumed := consumed_of_good good
      (absorb directory handled.hub handled.engine.takeActions
        (buffer.drop handled.consumed)).after
          (Session.frontDeeds buffer ++ handled.engine.actions.flatMap Action.deeds)
    else if handled.verdict = .indeterminate then ⟨[], hub, engine, .ok buffer⟩
    else ⟨[], hub, engine, .error (buffer.head nonempty)⟩
  else ⟨[], hub, engine, .ok []⟩
termination_by buffer.length
decreasing_by
  simp only [List.length_drop]
  omega

section Absorb

variable {directory : Directory} {hub : Hub} {engine : Engine} {buffer : Bytes}

theorem absorb_good {handled : Handled} (nonempty : buffer ≠ [])
    (called : handle directory hub engine buffer = handled) (good : handled.verdict = .good) :
    absorb directory hub engine buffer =
      (absorb directory handled.hub handled.engine.takeActions
        (buffer.drop handled.consumed)).after
          (Session.frontDeeds buffer ++ handled.engine.actions.flatMap Action.deeds) := by
  subst called
  rw [absorb, dif_pos nonempty]
  exact dif_pos good

theorem absorb_breach {tag : UInt8} {rest : Bytes} (front : buffer = tag :: rest)
    (notGood : (handle directory hub engine buffer).verdict ≠ .good)
    (complete : (handle directory hub engine buffer).verdict ≠ .indeterminate) :
    absorb directory hub engine buffer = ⟨[], hub, engine, .error tag⟩ := by
  subst front
  rw [absorb, dif_pos (List.cons_ne_nil tag rest)]
  dsimp only
  rw [dif_neg notGood, if_neg complete, List.head_cons]

theorem absorb_stopped (stopped : buffer = [] ∨
    (handle directory hub engine buffer).verdict = .indeterminate) :
    absorb directory hub engine buffer = ⟨[], hub, engine, .ok buffer⟩ := by
  rw [absorb]
  by_cases nonempty : buffer ≠ []
  · have incomplete := stopped.resolve_left nonempty
    have notGood : (handle directory hub engine buffer).verdict ≠ .good := by
      rw [incomplete]
      exact nofun
    rw [dif_pos nonempty]
    dsimp only
    rw [dif_neg notGood, if_pos incomplete]
  · rw [dif_neg nonempty, Decidable.not_not.mp nonempty]

end Absorb

namespace Session

/-- The packet at the front is the same with more bytes behind it. -/
theorem frontDeeds_append {directory : Directory} {hub : Hub} {engine : Engine} {buffer : Bytes}
    (more : Bytes) (good : (handle directory hub engine buffer).verdict = .good) :
    frontDeeds (buffer ++ more) = frontDeeds buffer := by
  obtain ⟨packet, consumed, decoded⟩ := decode_of_good good
  have settled : ∀ needed available,
      Uplink.decode buffer ≠ .error (.incomplete needed available) := by
    rw [decoded]
    exact nofun
  rw [frontDeeds, frontDeeds, Uplink.decode_append more settled]

def owed : Option (Downlink × List Action) → List Deed
  | some (packet, rest) => .wrote packet :: rest.flatMap Action.deeds
  | none => []

/-- Carrying out actions leaves the first write, and the actions behind it. -/
theorem deeds_eq_perform (now : Instant) (keepalive : Keepalive) (actions : List Action) :
    actions.flatMap Action.deeds =
      performDeeds actions ++ owed (perform now keepalive actions).2 := by
  induction actions generalizing keepalive with
  | nil => rfl
  | cons action rest ih =>
      cases action with
      | send packet => rfl
      | startKeepalive => exact congrArg (Deed.startedKeepalive :: ·) (ih _)
      | pongReceived => exact congrArg (Deed.passedPong :: ·) (ih _)

/-! ## Deliveries -/

/-- A session takes in chunks one after another, each once all is done that the one before led
to.  Every write succeeds, nothing else happens, and what comes after the end is ignored. -/
inductive Delivers (directory : Directory) :
    Hub → Session → List Bytes → List Deed → Hub → Session → Prop where
  | done {hub : Hub} {session : Session} (waiting : session.phase = .waiting) :
      Delivers directory hub session [] [] hub session
  | ignored {hub : Hub} {session : Session} {chunks : List Bytes} {outcome : Outcome}
      (ended : session.phase = .ended outcome) :
      Delivers directory hub session chunks [] hub session
  | read {hub after : Hub} {session last : Session} {bytes : Bytes} {chunks : List Bytes}
      {later : List Deed} (now : Instant) (waiting : session.phase = .waiting)
      (nonempty : bytes ≠ [])
      (goesOn : Delivers directory (session.step directory now hub (.read bytes)).1
        (session.step directory now hub (.read bytes)).2 chunks later after last) :
      Delivers directory hub session (bytes :: chunks)
        (session.deeds directory now hub (.read bytes) ++ later) after last
  | written {hub after : Hub} {session last : Session} {packet : Downlink} {deadline : Instant}
      {next : Continuation} {chunks : List Bytes} {later : List Deed} (now : Instant)
      (writing : session.phase = .writing packet deadline next)
      (goesOn : Delivers directory (session.step directory now hub .written).1
        (session.step directory now hub .written).2 chunks later after last) :
      Delivers directory hub session chunks
        (session.deeds directory now hub .written ++ later) after last

/-- The hub once a session with this engine and link has left it. -/
def leave (hub : Hub) (engine : Engine) (link : LinkId) : Hub :=
  { (close hub engine).1 with
    devices := ((close hub engine).1.devices.release link).closeMailbox link }

/-- The account that is ahead of a session when these bytes are still to come. -/
inductive Ahead (directory : Directory) (more : Bytes) (hub : Hub) (session : Session) :
    Account → Prop where
  | waiting (waiting : session.phase = .waiting) (stopped : session.Stopped directory hub) :
      Ahead directory more hub session
        (absorb directory hub session.engine (session.buffer ++ more))
  | writing {packet : Downlink} {deadline : Instant} {actions : List Action}
      (writing : session.phase = .writing packet deadline (.resume actions)) :
      Ahead directory more hub session
        ((absorb directory hub session.engine (session.buffer ++ more)).after
          (.wrote packet :: actions.flatMap Action.deeds))
  | ended {tag : UInt8} {before : Hub} {engine : Engine}
      (ended : session.phase = .ended (some (.badPacket tag)))
      (left : hub = leave before engine session.link)
      (closed : session.engine = { engine with state := .closed }) :
      Ahead directory more hub session ⟨[], before, engine, .error tag⟩

section Deliveries

variable {directory : Directory} {now : Instant} {hub after : Hub} {session last : Session}

/-- A good packet takes its own deeds off the account of the whole stream. -/
theorem absorb_advance {handled : Handled} (nonempty : session.buffer ≠ [])
    (called : handle directory hub session.engine session.buffer = handled)
    (good : handled.verdict = .good) (more : Bytes) :
    absorb directory hub session.engine (session.buffer ++ more) =
      (absorb directory handled.hub (session.advance handled).engine
        ((session.advance handled).buffer ++ more)).after
          (frontDeeds session.buffer ++ handled.engine.actions.flatMap Action.deeds) := by
  subst called
  have settled :
      (handle directory hub session.engine session.buffer).verdict ≠ .indeterminate := by
    rw [good]
    exact nofun
  have fits := (consumed_of_good good).2
  rw [absorb_good (List.append_ne_nil_of_left_ne_nil nonempty more) (handle_append more settled)
    good, frontDeeds_append more good, List.drop_append_of_le_length fits]
  rfl

/-- The loop over the buffer takes its deeds off the account. -/
theorem Drains.ahead {deeds : List Deed}
    (drains : Drains directory now hub session deeds after last) (more : Bytes) :
    ∃ account, Ahead directory more after last account ∧
      absorb directory hub session.engine (session.buffer ++ more) = account.after deeds := by
  induction drains with
  | stop stopped => exact ⟨_, .waiting rfl stopped, (Account.after_nil _).symm⟩
  | @breach hub session tag rest front notGood complete =>
      have same := handle_append more complete
      have frontAll : session.buffer ++ more = tag :: (rest ++ more) := by
        rw [front, List.cons_append]
      refine ⟨_, .ended rfl rfl rfl, ?_⟩
      rw [Account.after_nil]
      exact absorb_breach frontAll (by rwa [same]) (by rwa [same])
  | write nonempty called good performed =>
      refine ⟨_, .writing rfl, ?_⟩
      rw [absorb_advance nonempty called good, deeds_eq_perform, performed, owed,
        Account.after_after, List.append_assoc]
      rfl
  | next nonempty called good performed goesOn ih =>
      obtain ⟨account, ahead, later⟩ := ih
      refine ⟨account, ahead, ?_⟩
      rw [absorb_advance nonempty called good, deeds_eq_perform, performed, owed, List.append_nil]
      exact (congrArg (Account.after · _) later).trans (Account.after_after ..)

theorem Steps.ahead_written {packet : Downlink} {deadline : Instant} {actions : List Action}
    {deeds : List Deed} (steps : Steps directory now hub session .written deeds after last)
    (writing : session.phase = .writing packet deadline (.resume actions)) (more : Bytes) :
    ∃ account, Ahead directory more after last account ∧
      (absorb directory hub session.engine (session.buffer ++ more)).after
        (.wrote packet :: actions.flatMap Action.deeds) = account.after deeds := by
  cases steps with
  | idle quiet => simp [emitted?, writing] at quiet
  | ends ending => cases ending
  | listens other | waits other | awaits other =>
      rw [writing] at other
      cases other
  | replies other performed =>
      rw [writing] at other
      cases other
      refine ⟨_, .writing rfl, ?_⟩
      rw [deeds_eq_perform, performed, owed, Account.after_after]
      rfl
  | resumes other performed drains =>
      rw [writing] at other
      cases other
      obtain ⟨account, ahead, later⟩ := drains.ahead more
      refine ⟨account, ahead, ?_⟩
      rw [deeds_eq_perform, performed, owed, List.append_nil]
      exact (congrArg (Account.after · _) later).trans (Account.after_after ..)

theorem Ahead.of_waiting {more : Bytes} {account : Account}
    (ahead : Ahead directory more hub session account) (waiting : session.phase = .waiting) :
    session.Stopped directory hub ∧
      account = absorb directory hub session.engine (session.buffer ++ more) := by
  cases ahead with
  | waiting _ stopped => exact ⟨stopped, rfl⟩
  | writing other | ended other =>
      rw [waiting] at other
      cases other

theorem Ahead.of_writing {more : Bytes} {account : Account} {packet : Downlink}
    {deadline : Instant} {next : Continuation}
    (ahead : Ahead directory more hub session account)
    (writing : session.phase = .writing packet deadline next) :
    ∃ actions, next = .resume actions ∧
      account = (absorb directory hub session.engine (session.buffer ++ more)).after
        (.wrote packet :: actions.flatMap Action.deeds) := by
  cases ahead with
  | writing other =>
      rw [writing] at other
      cases other
      exact ⟨_, rfl, rfl⟩
  | waiting other | ended other =>
      rw [writing] at other
      cases other

theorem Ahead.of_ended {more : Bytes} {account : Account} {outcome : Outcome}
    (ahead : Ahead directory more hub session account) (ended : session.phase = .ended outcome) :
    ∃ tag before engine, outcome = some (.badPacket tag) ∧
      hub = leave before engine session.link ∧
      session.engine = { engine with state := .closed } ∧
      account = ⟨[], before, engine, .error tag⟩ := by
  cases ahead with
  | ended other left closed =>
      rw [ended] at other
      cases other
      exact ⟨_, _, _, rfl, left, closed, rfl⟩
  | waiting other | writing other =>
      rw [ended] at other
      cases other

/-- Every step of a delivery takes its deeds off the account of the stream. -/
theorem Delivers.ahead {chunks : List Bytes} {deeds : List Deed}
    (delivers : Delivers directory hub session chunks deeds after last) {account : Account}
    (ahead : Ahead directory chunks.flatten hub session account) :
    last.link = session.link ∧ ∃ remaining, Ahead directory [] after last remaining ∧
      account = remaining.after deeds := by
  -- The account after a step is the one before it without the deeds of the step, so each case
  -- hands the shorter account to the rest of the delivery.
  induction delivers generalizing account with
  | done waiting => exact ⟨rfl, account, ahead, rfl⟩
  | ignored ended =>
      obtain ⟨tag, before, engine, rfl, left, closed, rfl⟩ := ahead.of_ended ended
      exact ⟨rfl, _, .ended ended left closed, rfl⟩
  | read now waiting nonempty goesOn ih =>
      obtain ⟨next, aheadNext, taken⟩ := (drains_read directory now _ waiting nonempty).ahead _
      obtain ⟨link, remaining, aheadLast, rest⟩ := ih aheadNext
      refine ⟨link.trans (steps_step ..).link, remaining, aheadLast, ?_⟩
      rw [(ahead.of_waiting waiting).2, List.flatten_cons, ← List.append_assoc,
        ← Account.after_after, ← rest]
      exact taken
  | written now writing goesOn ih =>
      obtain ⟨actions, rfl, rfl⟩ := ahead.of_writing writing
      obtain ⟨next, aheadNext, taken⟩ := (steps_step ..).ahead_written writing _
      obtain ⟨link, remaining, aheadLast, rest⟩ := ih aheadNext
      refine ⟨link.trans (steps_step ..).link, remaining, aheadLast, ?_⟩
      rw [taken, rest, Account.after_after]

/-- The account shrinks with every write, so the writes that one chunk leads to come to an
end. -/
theorem exists_delivers_of_waiting {chunks : List Bytes}
    (waits : ∀ {hub : Hub} {session : Session} {account : Account},
      Ahead directory chunks.flatten hub session account → session.phase = .waiting →
        ∃ deeds after last, Delivers directory hub session chunks deeds after last)
    {account : Account} (ahead : Ahead directory chunks.flatten hub session account) :
    ∃ deeds after last, Delivers directory hub session chunks deeds after last := by
  induction length : account.deeds.length using Nat.strongRecOn
    generalizing hub session account with
  | _ count ih =>
      cases phase : session.phase with
      | waiting => exact waits ahead phase
      | ended outcome => exact ⟨_, _, _, .ignored phase⟩
      | writing packet deadline next =>
          obtain ⟨actions, rfl, rfl⟩ := ahead.of_writing phase
          have steps := steps_step directory 0 hub session .written
          obtain ⟨rest, aheadRest, taken⟩ := steps.ahead_written phase chunks.flatten
          have shorter : rest.deeds.length < count := by
            rw [← length, taken]
            simp only [Account.after, deeds, phase, List.length_append, List.length_cons]
            omega
          obtain ⟨later, after, last, goesOn⟩ := ih _ shorter aheadRest rfl
          exact ⟨_, after, last, .written 0 phase goesOn⟩

/-- Every stream can be delivered, however it is cut. -/
theorem exists_delivers {chunks : List Bytes} (nonempty : ∀ bytes ∈ chunks, bytes ≠ [])
    {account : Account} (ahead : Ahead directory chunks.flatten hub session account) :
    ∃ deeds after last, Delivers directory hub session chunks deeds after last := by
  induction chunks generalizing hub session account with
  | nil => exact exists_delivers_of_waiting (fun _ waiting => ⟨_, _, _, .done waiting⟩) ahead
  | cons bytes chunks ih =>
      obtain ⟨first, others⟩ := List.forall_mem_cons.mp nonempty
      refine exists_delivers_of_waiting (fun {hub session account} _ waiting => ?_) ahead
      have drains := drains_read directory 0 hub waiting first
      obtain ⟨rest, aheadRest, _⟩ := drains.ahead chunks.flatten
      obtain ⟨later, after, last, goesOn⟩ := ih others aheadRest
      exact ⟨_, after, last, .read 0 waiting first goesOn⟩

theorem Delivers.settled {chunks : List Bytes} {deeds : List Deed}
    (delivers : Delivers directory hub session chunks deeds after last) :
    last.phase = .waiting ∨ ∃ outcome, last.phase = .ended outcome := by
  induction delivers with
  | done waiting => exact Or.inl waiting
  | ignored ended => exact Or.inr ⟨_, ended⟩
  | read now waiting nonempty goesOn ih | written now writing goesOn ih => exact ih

/-- The account of the stream says where its delivery ends. -/
theorem Delivers.fixed {chunks : List Bytes} {deeds : List Deed}
    (delivers : Delivers directory hub session chunks deeds after last)
    (waiting : session.phase = .waiting) (stopped : session.Stopped directory hub) :
    let account := absorb directory hub session.engine (session.buffer ++ chunks.flatten)
    (last.phase = .waiting ∧ account = ⟨deeds, after, last.engine, .ok last.buffer⟩) ∨
      ∃ tag before engine, last.phase = .ended (some (.badPacket tag)) ∧
        after = leave before engine session.link ∧
        last.engine = { engine with state := .closed } ∧
        account = ⟨deeds, before, engine, .error tag⟩ := by
  intro account
  obtain ⟨link, remaining, ahead, taken⟩ := delivers.ahead (.waiting waiting stopped)
  rcases delivers.settled with ends | ⟨outcome, ends⟩
  · obtain ⟨stoppedLast, rest⟩ := ahead.of_waiting ends
    rw [List.append_nil, absorb_stopped stoppedLast] at rest
    refine Or.inl ⟨ends, taken.trans ?_⟩
    rw [rest, Account.after, List.append_nil]
  · obtain ⟨tag, before, engine, rfl, left, closed, rest⟩ := ahead.of_ended ends
    refine Or.inr ⟨tag, before, engine, ends, link ▸ left, closed, taken.trans ?_⟩
    rw [rest, Account.after, List.append_nil]

end Deliveries

/-- Two sessions either both go on with the same bytes left, or both ended over a packet with the
same tag. -/
def SameOutcome (session other : Session) : Prop :=
  (session.phase = .waiting ∧ other.phase = .waiting ∧ session.buffer = other.buffer) ∨
    ∃ tag, session.phase = .ended (some (.badPacket tag)) ∧
      other.phase = .ended (some (.badPacket tag))

/-- A session between two reads takes in a stream with the same deeds, the same hub and the same
end, however the stream is cut. -/
theorem delivered_eq_of_flatten_eq {directory : Directory} {hub : Hub} {session : Session}
    (waiting : session.phase = .waiting) (stopped : session.Stopped directory hub)
    {chunks others : List Bytes} (nonempty : ∀ bytes ∈ chunks, bytes ≠ [])
    (nonemptyOthers : ∀ bytes ∈ others, bytes ≠ []) (same : chunks.flatten = others.flatten) :
    (∃ deeds after last, Delivers directory hub session chunks deeds after last) ∧
      (∃ deeds after last, Delivers directory hub session others deeds after last) ∧
      ∀ {deeds after last deedsOther afterOther lastOther},
        Delivers directory hub session chunks deeds after last →
        Delivers directory hub session others deedsOther afterOther lastOther →
        deeds = deedsOther ∧ after = afterOther ∧ last.engine = lastOther.engine ∧
          SameOutcome last lastOther := by
  refine ⟨exists_delivers nonempty (.waiting waiting stopped),
    exists_delivers nonemptyOthers (.waiting waiting stopped), ?_⟩
  intro deeds after last deedsOther afterOther lastOther delivers deliversOther
  have account := delivers.fixed waiting stopped
  have accountOther := deliversOther.fixed waiting stopped
  rw [← same] at accountOther
  rcases account with ⟨ends, account⟩ | ⟨tag, before, engine, ends, left, closed, account⟩
  · rcases accountOther with ⟨endsOther, accountOther⟩ | ⟨_, _, _, _, _, _, accountOther⟩
    · rw [account] at accountOther
      injection accountOther with sameDeeds sameHub sameEngine sameRest
      injection sameRest with sameBuffer
      exact ⟨sameDeeds, sameHub, sameEngine, Or.inl ⟨ends, endsOther, sameBuffer⟩⟩
    · rw [account] at accountOther
      injection accountOther with _ _ _ different
      cases different
  · rcases accountOther with
      ⟨_, accountOther⟩ | ⟨tagOther, beforeOther, engineOther, endsOther, leftOther, closedOther,
        accountOther⟩
    · rw [account] at accountOther
      injection accountOther with _ _ _ different
      cases different
    · rw [account] at accountOther
      injection accountOther with sameDeeds sameHub sameEngine sameRest
      injection sameRest with sameTag
      subst sameHub sameEngine sameTag
      exact ⟨sameDeeds, left.trans leftOther.symm, closed.trans closedOther.symm,
        Or.inr ⟨_, ends, endsOther⟩⟩

/-- A handshake and a pong behind it, in one read and in three. -/
theorem delivered_eq_hello_pong :
    let hello := Uplink.encode (.hello ⟨List.replicate 16 0x40, rfl⟩ 1)
    let pong := Uplink.encode .pong
    let directory : Directory := ⟨fun _ => true, Station.defaultName⟩
    let made := start {} 0 Hub.empty
    let listening := made.2.step directory 0 made.1 .written
    listening.2.phase = .waiting ∧ ∃ deeds after last lastOther,
      Delivers directory listening.1 listening.2 [hello ++ pong] deeds after last ∧
      Delivers directory listening.1 listening.2 [hello.take 3, hello.drop 3, pong] deeds after
        lastOther ∧
      last.engine = lastOther.engine ∧ SameOutcome last lastOther := by
  intro hello pong directory made listening
  have stopped : listening.2.Stopped directory listening.1 := Or.inl rfl
  have whole : ∀ bytes ∈ [hello ++ pong], bytes ≠ [] := by decide
  have pieces : ∀ bytes ∈ [hello.take 3, hello.drop 3, pong], bytes ≠ [] := by decide
  have flat : [hello ++ pong].flatten = [hello.take 3, hello.drop 3, pong].flatten := by decide
  obtain ⟨⟨deeds, after, last, once⟩, ⟨deedsOther, afterOther, lastOther, thrice⟩, same⟩ :=
    delivered_eq_of_flatten_eq rfl stopped whole pieces flat
  obtain ⟨rfl, rfl, engine, outcome⟩ := same once thrice
  exact ⟨rfl, deeds, after, last, lastOther, once, thrice, engine, outcome⟩

end Session

end Device

end StationRelay
