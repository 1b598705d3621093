import StationRelay.Proofs.Lines
import StationRelay.Proofs.PrefixStability

/-!
# What a session hears while it writes

A device session does one thing at a time.  While a packet is being written it
reads nothing, and its timers run on; when the write is done a timer that became
due in the meantime and bytes that arrived in the meantime are both there, and
either may come first.  `fair_run` says that a session that is given up with a
pong in reach, or with bytes in reach, was writing when the limit passed;
`not_heedful_slow_refusal` is a run in which that happens.
-/

namespace StationRelay

namespace Uplink

theorem consumed_eq_of_decode {bytes : Bytes} {packet : Uplink} {consumed : Nat}
    (decoded : decode bytes = .ok (packet, consumed)) :
    consumed = packet.kind.size ∧ consumed ≤ bytes.length := by
  rw [← decode_format] at decoded
  exact ⟨(lawful.decode_eq_ok_iff.mp decoded).1, (lawful.encode_eq_take decoded).2⟩

/-- There is nothing, or a part of a packet and no more. -/
def IsPartial (buffer : Bytes) : Prop :=
  buffer = [] ∨ ∃ needed available, decode buffer = .error (.incomplete needed available)

/-- A whole pong is there, with only whole packets before it. -/
inductive PongWaits : Bytes → Prop where
  | front {stream : Bytes} {consumed : Nat} (decoded : decode stream = .ok (.pong, consumed)) :
      PongWaits stream
  | behind {stream : Bytes} {packet : Uplink} {consumed : Nat}
      (decoded : decode stream = .ok (packet, consumed))
      (later : PongWaits (stream.drop consumed)) : PongWaits stream

/-- A pong waits only behind a whole packet, and there is none at the front of a part of one. -/
theorem PongWaits.not_isPartial {stream more : Bytes} (waits : PongWaits stream) :
    ¬ IsPartial (stream ++ more) := by
  have whole : ∃ packet consumed, decode stream = .ok (packet, consumed) := by
    cases waits with
    | front decoded | behind decoded => exact ⟨_, _, decoded⟩
  obtain ⟨packet, consumed, decoded⟩ := whole
  have stable : decode (stream ++ more) = .ok (packet, consumed) := by
    rw [decode_append more fun needed available => by rw [decoded]; exact nofun, decoded]
  rintro (empty | ⟨needed, available, incomplete⟩)
  · rw [empty] at stable
    cases stable
  · rw [stable] at incomplete
    cases incomplete

end Uplink

namespace Device

/-! ## What a history says -/

namespace Sign

def arrivals : Instant × Sign → List (Instant × UInt8)
  | (now, .arrived bytes) => bytes.map (now, ·)
  | _ => []

def taken : Instant × Sign → Nat
  | (_, .read bytes) => bytes.length
  | _ => 0

def used : Instant × Sign → Nat
  | (_, .did (.handled packet)) => packet.kind.size
  | _ => 0

def lastRead? : Instant × Sign → Option Instant
  | (now, .read _) => some now
  | _ => none

end Sign

section Histories

variable (log : History)

def arrivals : List (Instant × UInt8) :=
  log.flatMap Sign.arrivals

def taken : Nat :=
  log.foldl (fun total entry => total + Sign.taken entry) 0

def used : Nat :=
  log.foldl (fun total entry => total + Sign.used entry) 0

def unread : List (Instant × UInt8) :=
  (arrivals log).drop (taken log)

def unhandled : List (Instant × UInt8) :=
  (arrivals log).drop (used log)

/-- When the session read last. -/
def lastRead? : Option Instant :=
  (log.filterMap Sign.lastRead?).getLast?

/-- A ping was out at this instant, and no pong was handled behind it. -/
def Unanswered (pinged : Instant) : Prop :=
  ∃ before after, log = before ++ (pinged, .did (.wrote .ping)) :: after ∧
    ∀ entry ∈ after, entry.2 ≠ .did (.handled .pong)

/-- A write that began before this instant ended then or later; in the meantime bytes could arrive,
and nothing else happened. -/
def Spanned (limit : Instant) : Prop :=
  ∃ packet start finish before between after,
    log = before ++ (start, .did (.began packet)) :: between ++
      (finish, .did (.wrote packet)) :: after ∧
    (∀ entry ∈ between, ∃ bytes, entry.2 = .arrived bytes) ∧ start < limit ∧ limit ≤ finish

end Histories

def arrivedBefore (limit : Instant) (bytes : List (Instant × UInt8)) : Bytes :=
  (bytes.takeWhile (·.1 < limit)).map Prod.snd

/-- A session ends for the lack of a pong or of bytes only when that limit is passed, and there is
an excuse if a pong, or bytes, had arrived before. -/
structure Justified (excuse : Instant → Prop) (settings : Settings) (before : History)
    (now : Instant) (outcome : Outcome) : Prop where
  pong : ∀ limit, outcome = some (.pongTimeout limit) →
    ∃ pinged, Unanswered before pinged ∧ pinged + settings.pongTimeout ≤ now ∧
      (Uplink.PongWaits (arrivedBefore (pinged + settings.pongTimeout) (unhandled before)) →
        excuse (pinged + settings.pongTimeout))
  bytes : ∀ limit, outcome = some (.readTimeout limit) →
    ∃ last, lastRead? before = some last ∧ last + settings.readTimeout ≤ now ∧
      ((∃ entry ∈ unread before, entry.1 < last + settings.readTimeout) →
        excuse (last + settings.readTimeout))

/-- Whenever a session ends, that is justified. -/
def Fair (excuse : History → Instant → Prop) (settings : Settings) (log : History) : Prop :=
  ∀ (before after : History) (now : Instant) (outcome : Outcome),
    log = before ++ (now, .ended outcome) :: after →
      Justified (excuse before) settings before now outcome

/-- No session is given up with a pong, or with bytes, in reach. -/
def Heedful (settings : Settings) (log : History) : Prop :=
  Fair (fun _ _ => False) settings log

section Histories

variable {settings : Settings} {excuse : History → Instant → Prop} {log more : History}
  {now clock limit pinged : Instant} {sign : Sign} {deed : Deed}

theorem Spanned.append (spanned : Spanned log limit) (more : History) :
    Spanned (log ++ more) limit := by
  obtain ⟨packet, start, finish, before, between, after, rfl, deaf, begins, ends⟩ := spanned
  refine ⟨packet, start, finish, before, between, after ++ more, ?_, deaf, begins, ends⟩
  simp only [List.append_assoc, List.cons_append]

theorem Unanswered.concat (unanswered : Unanswered log pinged)
    (other : sign ≠ .did (.handled .pong)) : Unanswered (log ++ [(now, sign)]) pinged := by
  obtain ⟨before, after, rfl, silent⟩ := unanswered
  refine ⟨before, after ++ [(now, sign)], by simp only [List.append_assoc, List.cons_append], ?_⟩
  intro entry member
  rcases List.mem_append.mp member with old | new
  · exact silent entry old
  · rw [List.mem_singleton.mp new]
    exact other

theorem Fair.concat (fair : Fair excuse settings log)
    (justified : ∀ outcome, sign = .ended outcome →
      Justified (excuse log) settings log now outcome) :
    Fair excuse settings (log ++ [(now, sign)]) := by
  intro before after instant outcome split
  rcases List.eq_nil_or_concat after with rfl | ⟨rest, last, rfl⟩
  · obtain ⟨rfl, same⟩ := List.append_inj' split rfl
    cases same
    exact justified outcome rfl
  · rw [List.concat_eq_append, ← List.cons_append, ← List.append_assoc] at split
    exact fair before rest instant outcome (List.append_inj_left' split rfl)

/-- What is excused in no other way than by a write is heeded where no write spans a limit. -/
theorem Fair.heedful (fair : Fair Spanned settings log) (none : ∀ limit, ¬ Spanned log limit) :
    Heedful settings log := by
  intro before after now outcome split
  have unspanned {limit : Instant} (spanned : Spanned before limit) : False :=
    none limit (split ▸ spanned.append _)
  obtain ⟨pong, bytes⟩ := fair before after now outcome split
  refine ⟨fun limit isPong => ?_, fun limit isBytes => ?_⟩
  · obtain ⟨pinged, unanswered, passed, excused⟩ := pong limit isPong
    exact ⟨pinged, unanswered, passed, fun waits => unspanned (excused waits)⟩
  · obtain ⟨last, isLast, passed, excused⟩ := bytes limit isBytes
    exact ⟨last, isLast, passed, fun early => unspanned (excused early)⟩

/-! ### The flow of bytes -/

/-- The buffer and the wire hold the bytes that were not handled, and the wire those of them that
were not read. -/
structure Flow (log : History) (buffer incoming : Bytes) : Prop where
  inside : used log ≤ (arrivals log).length
  taken_eq : taken log = used log + buffer.length
  unhandled_eq : (unhandled log).map Prod.snd = buffer ++ incoming

theorem arrivals_concat (log : History) (now : Instant) (sign : Sign) :
    arrivals (log ++ [(now, sign)]) = arrivals log ++ Sign.arrivals (now, sign) := by
  rw [arrivals, List.flatMap_append, List.flatMap_singleton]
  rfl

theorem taken_concat (log : History) (now : Instant) (sign : Sign) :
    taken (log ++ [(now, sign)]) = taken log + Sign.taken (now, sign) := by
  rw [taken, List.foldl_append]
  rfl

theorem used_concat (log : History) (now : Instant) (sign : Sign) :
    used (log ++ [(now, sign)]) = used log + Sign.used (now, sign) := by
  rw [used, List.foldl_append]
  rfl

theorem lastRead_concat_other (other : Sign.lastRead? (now, sign) = none) :
    lastRead? (log ++ [(now, sign)]) = lastRead? log := by
  rw [lastRead?, List.filterMap_append, List.filterMap_cons, other]
  simp [lastRead?]

theorem heard_concat_did (heard : lastRead? log ≠ none) (now : Instant) (deed : Deed) :
    lastRead? (log ++ [(now, .did deed)]) ≠ none := by
  rw [lastRead_concat_other rfl]
  exact heard

theorem lastRead_concat_read (log : History) (now : Instant) (bytes : Bytes) :
    lastRead? (log ++ [(now, .read bytes)]) = some now := by
  rw [lastRead?, List.filterMap_append]
  exact List.getLast?_concat ..

theorem unread_concat_did (log : History) (now : Instant) (deed : Deed) :
    unread (log ++ [(now, .did deed)]) = unread log := by
  rw [unread, arrivals_concat, taken_concat]
  simp [unread, Sign.arrivals, Sign.taken]

/-- What arrived before an instant lies in front of what did not. -/
theorem arrivedBefore_prefix {front back : List (Instant × UInt8)}
    (late : ∀ entry ∈ back, ¬ entry.1 < limit) :
    arrivedBefore limit (front ++ back) <+: front.map Prod.snd := by
  have none : back.takeWhile (·.1 < limit) = [] := by
    cases back with
    | nil => rfl
    | cons head rest =>
        have isLate := late head List.mem_cons_self
        rw [List.takeWhile_cons_of_neg (by simpa using isLate)]
  refine List.IsPrefix.map Prod.snd ?_
  rw [List.takeWhile_append, none, List.append_nil]
  split
  · exact List.prefix_rfl
  · exact List.takeWhile_prefix _

namespace Flow

variable {buffer incoming bytes : Bytes}

theorem nil : Flow [(now, .did (.began .greeting))] [] [] :=
  ⟨Nat.le_refl _, rfl, rfl⟩

/-- What was not handled is the buffer, with what was not read behind it. -/
theorem unread_eq (flow : Flow log buffer incoming) :
    unread log = (unhandled log).drop buffer.length := by
  rw [unread, unhandled, flow.taken_eq, List.drop_drop]

theorem unread_eq_nil (flow : Flow log buffer []) : unread log = [] := by
  have size := congrArg List.length flow.unhandled_eq
  rw [List.length_map, List.append_nil] at size
  rw [flow.unread_eq]
  exact List.drop_eq_nil_of_le (Nat.le_of_eq size)

theorem arrives (flow : Flow log buffer incoming) (now : Instant) (bytes : Bytes) :
    Flow (log ++ [(now, .arrived bytes)]) buffer (incoming ++ bytes) := by
  obtain ⟨inside, taken_eq, unhandled_eq⟩ := flow
  refine ⟨?_, ?_, ?_⟩
  · rw [used_concat, arrivals_concat, List.length_append]
    exact Nat.le_trans inside (Nat.le_add_right ..)
  · rw [taken_concat, used_concat]
    exact taken_eq
  · rw [unhandled, used_concat, arrivals_concat]
    change ((arrivals log ++ bytes.map (now, ·)).drop (used log)).map Prod.snd = _
    rw [List.drop_append_of_le_length inside, List.map_append, ← List.append_assoc, List.map_map]
    exact congr (congrArg HAppend.hAppend unhandled_eq) (List.map_id' bytes)

theorem reads (flow : Flow log buffer incoming) (now : Instant) (front : bytes <+: incoming) :
    Flow (log ++ [(now, .read bytes)]) (buffer ++ bytes) (incoming.drop bytes.length) := by
  obtain ⟨inside, taken_eq, unhandled_eq⟩ := flow
  obtain ⟨rest, rfl⟩ := front
  refine ⟨?_, ?_, ?_⟩
  · rw [used_concat, arrivals_concat]
    simpa [Sign.arrivals, Sign.used] using inside
  · rw [taken_concat, used_concat, taken_eq, List.length_append, Nat.add_assoc]
    rfl
  · rw [unhandled, used_concat, arrivals_concat, List.drop_left]
    simpa [Sign.arrivals, Sign.used, unhandled] using unhandled_eq

theorem handles {packet : Uplink} {consumed : Nat} (flow : Flow log buffer incoming)
    (now : Instant) (decoded : Uplink.decode buffer = .ok (packet, consumed)) :
    Flow (log ++ [(now, .did (.handled packet))]) (buffer.drop consumed) incoming := by
  obtain ⟨inside, taken_eq, unhandled_eq⟩ := flow
  obtain ⟨size, fits⟩ := Uplink.consumed_eq_of_decode decoded
  have isUsed : used (log ++ [(now, .did (.handled packet))]) = used log + consumed := by
    rw [used_concat, size]
    rfl
  have same : arrivals (log ++ [(now, .did (.handled packet))]) = arrivals log := by
    rw [arrivals_concat]
    exact List.append_nil _
  refine ⟨?_, ?_, ?_⟩
  · have all := congrArg List.length unhandled_eq
    rw [unhandled, List.length_map, List.length_drop, List.length_append] at all
    rw [isUsed, same]
    omega
  · rw [taken_concat, isUsed, taken_eq, List.length_drop]
    change used log + buffer.length + 0 = _
    omega
  · rw [unhandled, isUsed, same, ← List.drop_drop, List.map_drop]
    change List.drop consumed ((unhandled log).map Prod.snd) = _
    rw [unhandled_eq, List.drop_append_of_le_length fits]

theorem did (flow : Flow log buffer incoming) (now : Instant)
    (other : ∀ packet, deed ≠ .handled packet) :
    Flow (log ++ [(now, .did deed)]) buffer incoming := by
  have unused : Sign.used (now, .did deed) = 0 := by
    cases deed with
    | handled packet => exact absurd rfl (other packet)
    | _ => rfl
  obtain ⟨inside, taken_eq, unhandled_eq⟩ := flow
  refine ⟨?_, ?_, ?_⟩
  · rw [used_concat, arrivals_concat, unused]
    simpa [Sign.arrivals] using inside
  · rw [taken_concat, used_concat, unused]
    exact taken_eq
  · rw [unhandled, used_concat, arrivals_concat, unused]
    simpa [Sign.arrivals, unhandled] using unhandled_eq

/-- If nothing that was not read arrived before, a pong that did is in the buffer. -/
theorem not_isPartial (flow : Flow log buffer incoming)
    (late : ∀ entry ∈ unread log, ¬ entry.1 < limit)
    (waits : Uplink.PongWaits (arrivedBefore limit (unhandled log))) :
    ¬ Uplink.IsPartial buffer := by
  have isBuffer : ((unhandled log).take buffer.length).map Prod.snd = buffer := by
    rw [List.map_take, flow.unhandled_eq, List.take_left]
  have inFront : arrivedBefore limit ((unhandled log).take buffer.length ++ unread log) <+:
      ((unhandled log).take buffer.length).map Prod.snd := arrivedBefore_prefix late
  rw [flow.unread_eq, List.take_append_drop, isBuffer] at inFront
  obtain ⟨more, split⟩ := inFront
  rw [← split]
  exact waits.not_isPartial

end Flow

end Histories

/-! ## The invariant -/

/-- Whenever bytes that arrived before an instant of the past are still unread, a write spanned that
instant. -/
def Settled (clock : Instant) (log : History) : Prop :=
  ∀ limit ≤ clock, (∃ entry ∈ unread log, entry.1 < limit) → Spanned log limit

/-- If the limit for a pong is running, it is that of a ping without an answer. -/
def Owes (settings : Settings) (keepalive : Keepalive) (log : History) : Prop :=
  ∀ due, keepalive.pending = some (due, .pongTimeout) →
    ∃ pinged, due = pinged + settings.pongTimeout ∧ Unanswered log pinged

/-- What holds of a session that has not ended, whatever it does. -/
structure Attends (settings : Settings) (incoming : Bytes) (session : Session) (log : History) :
    Prop where
  own : session.settings = settings
  timeout : session.keepalive.pongTimeout = settings.pongTimeout
  noActions : session.engine.actions = []
  flow : Flow log session.buffer incoming
  owes : Owes settings session.keepalive log
  heard : ∀ {last}, lastRead? log = some last →
    session.readDeadline = last + settings.readTimeout
  accepted : session.engine.IsAuthenticated → lastRead? log ≠ none
  fair : Fair Spanned settings log

/-- What is left to do once the write of a packet is done. -/
inductive Onward (session : Session) (log : History) : Downlink → Continuation → Prop where
  | listen {packet : Downlink} (unheard : lastRead? log = none)
      (idle : Uplink.IsPartial session.buffer) : Onward session log packet .listen
  | wait {packet : Downlink} (idle : Uplink.IsPartial session.buffer) :
      Onward session log packet .wait
  | awaitPong (idle : Uplink.IsPartial session.buffer) : Onward session log .ping .awaitPong
  | resume {packet : Downlink} {actions : List Action}
      (silent : actions = [] ∨ actions = [.startKeepalive]) (heard : lastRead? log ≠ none) :
      Onward session log packet (.resume actions)

/-- What holds of a session and its log between two happenings. -/
inductive Attentive (settings : Settings) (clock : Instant) (incoming : Bytes) (session : Session)
    (log : History) : Prop where
  | waiting (waiting : session.phase = .waiting) (attends : Attends settings incoming session log)
      (idle : Uplink.IsPartial session.buffer) (settled : Settled clock log) :
      Attentive settings clock incoming session log
  | writing {packet : Downlink} {deadline start : Instant} {next : Continuation}
      {before between : History} (writing : session.phase = .writing packet deadline next)
      (attends : Attends settings incoming session log) (onward : Onward session log packet next)
      (split : log = before ++ (start, .did (.began packet)) :: between)
      (deaf : ∀ entry ∈ between, ∃ bytes, entry.2 = .arrived bytes) (past : start ≤ clock)
      (settled : Settled start log) : Attentive settings clock incoming session log
  | ended {outcome : Outcome} (ended : session.phase = .ended outcome)
      (fair : Fair Spanned settings log) : Attentive settings clock incoming session log

section Attends

variable {settings : Settings} {clock now : Instant} {incoming bytes : Bytes} {session : Session}
  {log : History} {deed : Deed} {packet : Downlink}

theorem Justified.of_other {excuse : Instant → Prop} {outcome : Outcome}
    (notPong : ∀ limit, outcome ≠ some (.pongTimeout limit))
    (notBytes : ∀ limit, outcome ≠ some (.readTimeout limit)) :
    Justified excuse settings log now outcome :=
  ⟨fun limit isPong => absurd isPong (notPong limit),
    fun limit isBytes => absurd isBytes (notBytes limit)⟩

theorem Settled.concat_did (settled : Settled clock log) (now : Instant) (deed : Deed) :
    Settled clock (log ++ [(now, .did deed)]) := by
  intro limit past early
  rw [unread_concat_did] at early
  exact (settled limit past early).append _

theorem Settled.concat_read (settled : Settled clock log) (now : Instant) (bytes : Bytes) :
    Settled clock (log ++ [(now, .read bytes)]) := by
  rintro limit past ⟨entry, member, early⟩
  refine (settled limit past ⟨entry, ?_, early⟩).append _
  rw [unread, arrivals_concat, taken_concat, ← List.drop_drop] at member
  change entry ∈ ((arrivals log ++ []).drop (taken log)).drop bytes.length at member
  rw [List.append_nil] at member
  exact List.mem_of_mem_drop member

theorem Settled.concat_arrived (settled : Settled clock log)
    (inside : taken log ≤ (arrivals log).length) (past : clock ≤ now) (bytes : Bytes) :
    Settled clock (log ++ [(now, .arrived bytes)]) := by
  rintro limit before ⟨entry, member, early⟩
  refine (settled limit before ⟨entry, ?_, early⟩).append _
  rw [unread, arrivals_concat, taken_concat] at member
  change entry ∈ (arrivals log ++ bytes.map (now, ·)).drop (taken log) at member
  rw [List.drop_append_of_le_length inside] at member
  rcases List.mem_append.mp member with old | new
  · exact old
  · obtain ⟨byte, -, rfl⟩ := List.mem_map.mp new
    exact absurd early (Nat.not_lt.mpr (Nat.le_trans before past))

theorem Flow.taken_le {buffer : Bytes} (flow : Flow log buffer incoming) :
    taken log ≤ (arrivals log).length := by
  have all := congrArg List.length flow.unhandled_eq
  have inside := flow.inside
  rw [unhandled, List.length_map, List.length_drop, List.length_append] at all
  rw [flow.taken_eq]
  omega

theorem Owes.concat {keepalive : Keepalive} {sign : Sign} (owes : Owes settings keepalive log)
    (other : sign ≠ .did (.handled .pong)) : Owes settings keepalive (log ++ [(now, sign)]) := by
  intro due pending
  obtain ⟨pinged, isDue, unanswered⟩ := owes due pending
  exact ⟨pinged, isDue, unanswered.concat other⟩

namespace Attends

theorem phase (attends : Attends settings incoming session log) (phase : Phase) :
    Attends settings incoming { session with phase } log :=
  ⟨attends.own, attends.timeout, attends.noActions, attends.flow, attends.owes, attends.heard,
    attends.accepted, attends.fair⟩

theorem did (attends : Attends settings incoming session log) (now : Instant) (deed : Deed)
    (other : ∀ packet, deed ≠ .handled packet) :
    Attends settings incoming session (log ++ [(now, .did deed)]) := by
  have same : lastRead? (log ++ [(now, .did deed)]) = lastRead? log := lastRead_concat_other rfl
  refine ⟨attends.own, attends.timeout, attends.noActions, attends.flow.did now other,
    attends.owes.concat ?_, ?_, ?_, attends.fair.concat nofun⟩
  · rintro ⟨⟩
    exact other .pong rfl
  · rw [same]
    exact attends.heard
  · rw [same]
    exact attends.accepted

/-- A packet is handled; one that still owes a pong behind it was no pong. -/
theorem handles {read : Uplink} {handled : Handled}
    (attends : Attends settings incoming session log) (now : Instant) (keepalive : Keepalive)
    (decoded : Uplink.decode session.buffer = .ok (read, handled.consumed))
    (heard : lastRead? log ≠ none)
    (timeout : keepalive.pongTimeout = session.keepalive.pongTimeout)
    (owes : ∀ {due}, keepalive.pending = some (due, .pongTimeout) →
      read ≠ .pong ∧ session.keepalive.pending = some (due, .pongTimeout)) :
    Attends settings incoming { session.advance handled with keepalive }
      (log ++ [(now, .did (.handled read))]) := by
  have same : lastRead? (log ++ [(now, .did (.handled read))]) = lastRead? log :=
    lastRead_concat_other rfl
  refine ⟨attends.own, timeout.trans attends.timeout, rfl, attends.flow.handles now decoded, ?_,
    ?_, ?_, attends.fair.concat nofun⟩
  · intro due pending
    obtain ⟨notPong, owed⟩ := owes pending
    refine attends.owes.concat ?_ due owed
    rintro ⟨⟩
    exact notPong rfl
  · rw [same]
    exact attends.heard
  · rw [same]
    exact fun _ => heard

theorem reads (attends : Attends settings incoming session log) (now : Instant)
    (front : bytes <+: incoming) :
    Attends settings (incoming.drop bytes.length)
      { session with
        buffer := session.buffer ++ bytes
        readDeadline := now + session.settings.readTimeout }
      (log ++ [(now, .read bytes)]) := by
  refine ⟨attends.own, attends.timeout, attends.noActions, attends.flow.reads now front,
    attends.owes.concat nofun, ?_, ?_, attends.fair.concat nofun⟩
  · intro last isLast
    rw [lastRead_concat_read] at isLast
    cases isLast
    change now + session.settings.readTimeout = _
    rw [attends.own]
  · rw [lastRead_concat_read]
    exact fun _ => nofun

theorem arrives (attends : Attends settings incoming session log) (now : Instant) (bytes : Bytes) :
    Attends settings (incoming ++ bytes) session (log ++ [(now, .arrived bytes)]) := by
  have same : lastRead? (log ++ [(now, .arrived bytes)]) = lastRead? log :=
    lastRead_concat_other rfl
  refine ⟨attends.own, attends.timeout, attends.noActions, attends.flow.arrives now bytes,
    attends.owes.concat nofun, ?_, ?_, attends.fair.concat nofun⟩
  · rw [same]
    exact attends.heard
  · rw [same]
    exact attends.accepted

theorem startKeepalive (attends : Attends settings incoming session log) (now : Instant) :
    Attends settings incoming { session with keepalive := session.keepalive.start now }
      (log ++ [(now, .did .startedKeepalive)]) := by
  obtain ⟨own, timeout, noActions, flow, owes, heard, accepted, fair⟩ :=
    attends.did now .startedKeepalive nofun
  exact ⟨own, timeout, noActions, flow, nofun, heard, accepted, fair⟩

theorem pinged (attends : Attends settings incoming session log) (now : Instant) :
    Attends settings incoming { session with keepalive := session.keepalive.pingSent now }
      (log ++ [(now, .did (.wrote .ping))]) := by
  obtain ⟨own, timeout, noActions, flow, owes, heard, accepted, fair⟩ :=
    attends.did now (.wrote .ping) nofun
  refine ⟨own, timeout, noActions, flow, ?_, heard, accepted, fair⟩
  rintro due ⟨⟩
  exact ⟨now, by rw [timeout], log, [], rfl, nofun⟩

theorem noPong {due : Instant} (attends : Attends settings incoming session log)
    (idle : Uplink.IsPartial session.buffer) (settled : Settled clock log)
    (pending : session.keepalive.pending = some (due, .pongTimeout)) (passed : due ≤ clock) :
    Fair Spanned settings
      (log ++ [(clock, .ended (some (.pongTimeout session.settings.pongTimeout)))]) := by
  obtain ⟨pinged, rfl, unanswered⟩ := attends.owes due pending
  refine attends.fair.concat ?_
  rintro outcome ⟨⟩
  refine ⟨fun limit _ => ⟨pinged, unanswered, passed, fun waits => ?_⟩, nofun⟩
  by_cases early : ∃ entry ∈ unread log, entry.1 < pinged + settings.pongTimeout
  · exact settled _ passed early
  · have late : ∀ entry ∈ unread log, ¬ entry.1 < pinged + settings.pongTimeout :=
      fun entry member isEarly => early ⟨entry, member, isEarly⟩
    exact absurd idle (attends.flow.not_isPartial late waits)

theorem silence (attends : Attends settings incoming session log) (settled : Settled clock log)
    (passed : session.idleDeadline ≤ clock) :
    Fair Spanned settings (log ++ [(clock, .ended (some session.idleError))]) := by
  refine attends.fair.concat ?_
  rintro outcome ⟨⟩
  rw [Session.idleDeadline] at passed
  rw [Session.idleError]
  by_cases held : session.engine.IsAuthenticated
  · rw [if_pos held] at passed ⊢
    obtain ⟨last, isLast⟩ := Option.ne_none_iff_exists'.mp (attends.accepted held)
    rw [attends.heard isLast] at passed
    refine ⟨?_, fun limit _ => ⟨last, isLast, passed, settled _ passed⟩⟩
    rintro limit ⟨⟩
  · rw [if_neg held]
    refine .of_other ?_ ?_ <;> rintro limit ⟨⟩

end Attends

end Attends

/-! ## From one happening to the next -/

section Events

variable {settings : Settings} {directory : Directory} {clock : Instant} {hub after : Hub}
  {incoming bytes : Bytes} {session last : Session} {log : History} {deeds : List Deed}

/-- A good packet is the one at the front, and is taken out whole. -/
theorem decoded_of_good {handled : Handled}
    (called : handle directory hub session.engine session.buffer = handled)
    (good : handled.verdict = .good) :
    ∃ packet, Uplink.decode session.buffer = .ok (packet, handled.consumed) := by
  have listed := handling_handle directory hub session.engine session.buffer
  rw [called] at listed
  cases listed with
  | closed | incomplete | unreadable | outOfTurn => cases good
  | refused _ decoded | accepted _ decoded | pong _ decoded | report _ decoded => exact ⟨_, decoded⟩

theorem isPartial_of_stopped (stopped : session.Stopped directory hub) :
    Uplink.IsPartial session.buffer := by
  refine stopped.imp_right fun verdict => ?_
  have listed := handling_handle directory hub session.engine session.buffer
  generalize handle directory hub session.engine session.buffer = handled at listed verdict
  cases listed with
  | incomplete _ decoded => exact ⟨_, _, decoded⟩
  | closed | unreadable | outOfTurn | refused | accepted | pong | report => cases verdict

theorem pending_pongReceived (keepalive : Keepalive) (now : Instant) {due : Instant} :
    (keepalive.pongReceived now).pending ≠ some (due, .pongTimeout) := by
  unfold Keepalive.pongReceived
  split
  · exact nofun
  · rename_i notOwed
    exact notOwed due

theorem pongTimeout_pongReceived (keepalive : Keepalive) (now : Instant) :
    (keepalive.pongReceived now).pongTimeout = keepalive.pongTimeout := by
  unfold Keepalive.pongReceived
  split <;> rfl

theorem Attentive.begins {packet : Downlink} {next : Continuation}
    (attends : Attends settings incoming session log) (settled : Settled clock log)
    (onward : Onward session (log ++ [(clock, .did (.began packet))]) packet next) :
    Attentive settings clock incoming (session.write clock packet next)
      (log ++ [(clock, .did (.began packet))]) := by
  refine .writing rfl ((attends.did clock (.began packet) nofun).phase _) ?_ rfl nofun
    (Nat.le_refl clock) (settled.concat_did clock _)
  cases onward with
  | listen unheard idle => exact .listen unheard idle
  | wait idle => exact .wait idle
  | awaitPong idle => exact .awaitPong idle
  | resume silent heard => exact .resume silent heard

theorem append_telling (log : History) (clock : Instant) (own : List Deed) :
    log ++ (Session.telling (own ++ deeds) last).map (clock, ·) =
      log ++ (own.map .did).map (clock, ·) ++ (Session.telling deeds last).map (clock, ·) := by
  simp only [Session.telling, List.map_append, List.append_assoc]

theorem Attentive.drains (drains : Session.Drains directory clock hub session deeds after last)
    (attends : Attends settings incoming session log) (settled : Settled clock log)
    (heard : lastRead? log ≠ none) :
    Attentive settings clock incoming last
      (log ++ (Session.telling deeds last).map (clock, ·)) := by
  induction drains generalizing log with
  | stop stopped =>
      change Attentive settings clock incoming _ (log ++ [])
      rw [List.append_nil]
      exact .waiting rfl (attends.phase _) (isPartial_of_stopped stopped) settled
  | breach =>
      refine .ended rfl (attends.fair.concat ?_)
      rintro outcome ⟨⟩
      exact .of_other nofun nofun
  | @write hub session handled keepalive packet rest nonempty called good performed =>
      obtain ⟨read, decoded⟩ := decoded_of_good called good
      have responds := responds_of_good attends.noActions called good performed
      have handles := attends.handles clock session.keepalive decoded heard rfl
      have stillHeard := heard_concat_did heard clock (.handled read)
      have handledNow := settled.concat_did clock (.handled read)
      rw [Session.frontDeeds_of_decode decoded] at responds ⊢
      generalize Session.performDeeds handled.engine.actions = own at responds ⊢
      rw [List.singleton_append] at responds ⊢
      generalize handled.engine.state = reached at responds
      cases responds with
      | refuses device raw reason =>
          have begun := Attentive.begins (handles (⟨nofun, ·⟩)) handledNow
            (.resume (Or.inl rfl) (heard_concat_did stillHeard clock (.began (.refusal reason))))
          rw [List.append_assoc] at begun
          exact begun
      | welcomes =>
          have begun := Attentive.begins (handles (⟨nofun, ·⟩)) handledNow
            (.resume (Or.inr rfl) (heard_concat_did stillHeard clock (.began .welcome)))
          rw [List.append_assoc] at begun
          exact begun
  | @next hub after session last handled keepalive later nonempty called good performed _ ih =>
      obtain ⟨read, decoded⟩ := decoded_of_good called good
      have responds := responds_of_good attends.noActions called good performed
      have stillHeard := heard_concat_did heard clock (.handled read)
      have handledNow := settled.concat_did clock (.handled read)
      rw [Session.frontDeeds_of_decode decoded] at responds ⊢
      rw [append_telling]
      generalize Session.performDeeds handled.engine.actions = own at responds ⊢
      rw [List.singleton_append] at responds ⊢
      generalize handled.engine.state = reached at responds
      cases responds with
      | hears =>
          have answered := attends.handles clock (session.keepalive.pongReceived clock)
            decoded heard (pongTimeout_pongReceived ..)
            fun pending => (pending_pongReceived _ _ pending).elim
          have passed := ih (answered.did clock .passedPong nofun)
            (handledNow.concat_did clock _) (heard_concat_did stillHeard clock .passedPong)
          rw [List.append_assoc log] at passed
          exact passed
      | reports =>
          exact ih (attends.handles clock _ decoded heard rfl (⟨nofun, ·⟩)) handledNow stillHeard

theorem Attentive.of_waiting (attentive : Attentive settings clock incoming session log)
    (waiting : session.phase = .waiting) :
    Attends settings incoming session log ∧ Uplink.IsPartial session.buffer ∧
      Settled clock log := by
  cases attentive with
  | waiting _ attends idle settled => exact ⟨attends, idle, settled⟩
  | writing other | ended other => cases waiting.symm.trans other

/-- The write that is under way ends now: it spans every limit that passed since it began. -/
theorem Attentive.written {packet : Downlink} {deadline : Instant} {next : Continuation}
    (attentive : Attentive settings clock incoming session log)
    (writing : session.phase = .writing packet deadline next) :
    Attends settings incoming session log ∧ Onward session log packet next ∧
      Settled clock (log ++ [(clock, .did (.wrote packet))]) := by
  cases attentive with
  | waiting other | ended other => cases writing.symm.trans other
  | @writing _ _ start _ before between other attends onward split deaf past settled =>
      cases writing.symm.trans other
      refine ⟨attends, onward, ?_⟩
      intro limit passed early
      by_cases old : limit ≤ start
      · exact settled.concat_did clock _ limit old early
      · refine ⟨packet, start, clock, before, between, [], ?_, deaf, Nat.lt_of_not_le old, passed⟩
        rw [split, List.append_assoc]

theorem Attentive.reads (attentive : Attentive settings clock incoming session log)
    (waiting : session.phase = .waiting) (nonempty : bytes ≠ []) (front : bytes <+: incoming)
    (hub : Hub) :
    Attentive settings clock (incoming.drop bytes.length)
      (session.step directory clock hub (.read bytes)).2
      (log ++ (session.signs directory clock hub (.read bytes)).map (clock, ·)) := by
  obtain ⟨attends, -, settled⟩ := attentive.of_waiting waiting
  have heard : lastRead? (log ++ [(clock, .read bytes)]) ≠ none := by
    rw [lastRead_concat_read]
    exact nofun
  rw [Session.signs, Session.reading, if_neg nonempty, List.map_append, ← List.append_assoc]
  exact .drains (Session.drains_read directory clock hub waiting nonempty)
    (attends.reads clock front) (settled.concat_read clock bytes) heard

theorem Attentive.ends {event : Event} {outcome : Outcome}
    (attentive : Attentive settings clock incoming session log)
    (ending : session.Ending clock event outcome) :
    Fair Spanned settings (log ++ [(clock, .ended outcome)]) := by
  cases ending with
  | endOfStream waiting | readFault waiting =>
      refine (attentive.of_waiting waiting).1.fair.concat ?_
      rintro outcome ⟨⟩
      exact .of_other nofun nofun
  | noPong waiting pending due =>
      obtain ⟨attends, idle, settled⟩ := attentive.of_waiting waiting
      exact attends.noPong idle settled pending due
  | silence waiting due =>
      obtain ⟨attends, -, settled⟩ := attentive.of_waiting waiting
      exact attends.silence settled due
  | writeFault writing | slowWrite writing =>
      refine (attentive.written writing).1.fair.concat ?_
      rintro outcome ⟨⟩
      exact .of_other nofun nofun

theorem Attentive.steps {event : Event} (attentive : Attentive settings clock incoming session log)
    (goesOn : session.outcome? = none) (unread : Session.reading event = [])
    (steps : Session.Steps directory clock hub session event deeds after last) :
    Attentive settings clock incoming last
      (log ++ (Session.telling deeds last).map (clock, ·)) := by
  cases steps with
  | idle =>
      rw [Session.telling, goesOn]
      change Attentive settings clock incoming session (log ++ [])
      rw [List.append_nil]
      exact attentive
  | ends ending => exact .ended rfl (attentive.ends ending)
  | reads waiting nonempty =>
      rw [Session.reading, if_neg nonempty] at unread
      cases unread
  | requests waiting =>
      obtain ⟨attends, idle, settled⟩ := attentive.of_waiting waiting
      exact .begins attends settled (.wait idle)
  | pings waiting =>
      obtain ⟨attends, idle, settled⟩ := attentive.of_waiting waiting
      exact .begins attends settled (.awaitPong idle)
  | @listens packet deadline writing =>
      obtain ⟨attends, onward, settled⟩ := attentive.written writing
      cases onward with
      | listen unheard idle =>
          obtain ⟨own, timeout, noActions, flow, owes, heard, accepted, fair⟩ :=
            attends.did clock (.wrote packet) nofun
          have still : lastRead? (log ++ [(clock, .did (.wrote packet))]) = none :=
            (lastRead_concat_other rfl).trans unheard
          refine .waiting rfl ⟨own, timeout, noActions, flow, owes, ?_, accepted, fair⟩ idle settled
          intro last isLast
          cases still.symm.trans isLast
  | @waits packet deadline writing =>
      obtain ⟨attends, onward, settled⟩ := attentive.written writing
      cases onward with
      | wait idle =>
          exact .waiting rfl ((attends.did clock (.wrote packet) nofun).phase _) idle settled
  | awaits writing =>
      obtain ⟨attends, onward, settled⟩ := attentive.written writing
      cases onward with
      | awaitPong idle => exact .waiting rfl ((attends.pinged clock).phase _) idle settled
  | replies writing performed =>
      obtain ⟨-, onward, -⟩ := attentive.written writing
      cases onward with
      | resume silent =>
          obtain rfl | rfl := silent <;> cases performed
  | @resumes packet deadline actions keepalive later after last writing performed drains =>
      obtain ⟨attends, onward, settled⟩ := attentive.written writing
      cases onward with
      | resume silent heard =>
          have wrote := attends.did clock (.wrote packet) nofun
          have stillHeard := heard_concat_did heard clock (.wrote packet)
          rw [← List.singleton_append, append_telling]
          obtain rfl | rfl := silent
          · cases performed
            exact .drains drains wrote settled stillHeard
          · cases performed
            rw [append_telling]
            exact .drains drains (wrote.startKeepalive clock) (settled.concat_did clock _)
              (heard_concat_did stillHeard clock .startedKeepalive)

end Events

/-! ## Lines -/

section Lines

variable {settings : Settings} {directory : Directory} {line : Line}

abbrev Line.Attentive (settings : Settings) (line : Line) : Prop :=
  Device.Attentive settings line.now line.connection.wire.incoming line.connection.session line.log

theorem Line.Attentive.passes {later : Instant} (attentive : line.Attentive settings)
    (allowed : line.Allows (.passes later)) :
    (line.step directory (.passes later)).Attentive settings := by
  obtain ⟨inOrder, idle⟩ := allowed
  rcases Nat.eq_or_lt_of_le inOrder with rfl | passes
  · exact attentive
  cases attentive with
  | waiting waiting attends empty settled =>
      have isRead := Connection.incoming_eq_nil_of_idle waiting (idle passes).1
      refine .waiting waiting attends empty ?_
      have nothing : unread line.log = [] := (isRead ▸ attends.flow).unread_eq_nil
      rintro limit - ⟨entry, member, -⟩
      change entry ∈ unread line.log at member
      rw [nothing] at member
      cases member
  | writing writing attends onward split deaf past settled =>
      exact .writing writing attends onward split deaf (Nat.le_trans past inOrder) settled
  | ended ended fair => exact .ended ended fair

theorem Line.Attentive.arrives (attentive : line.Attentive settings) (bytes : Bytes) :
    (line.step directory (.arrives bytes)).Attentive settings := by
  cases attentive with
  | waiting waiting attends empty settled =>
      exact .waiting waiting (attends.arrives line.now bytes) empty
        (settled.concat_arrived attends.flow.taken_le (Nat.le_refl _) bytes)
  | @writing packet deadline start next before between writing attends onward split deaf past
      settled =>
      have stillOnward : Onward line.connection.session
          (line.log ++ [(line.now, .arrived bytes)]) packet next := by
        have same : lastRead? (line.log ++ [(line.now, .arrived bytes)]) = lastRead? line.log :=
          lastRead_concat_other rfl
        cases onward with
        | listen unheard idle => exact .listen (same.trans unheard) idle
        | wait idle => exact .wait idle
        | awaitPong idle => exact .awaitPong idle
        | resume silent heard => exact .resume silent (same ▸ heard)
      have longer : line.log ++ [(line.now, .arrived bytes)] =
          before ++ (start, .did (.began packet)) :: (between ++ [(line.now, .arrived bytes)]) := by
        rw [split, List.append_assoc, List.cons_append]
      refine .writing writing (attends.arrives line.now bytes) stillOnward longer ?_ past
        (settled.concat_arrived attends.flow.taken_le past bytes)
      intro entry member
      rcases List.mem_append.mp member with old | new
      · exact deaf entry old
      · exact ⟨bytes, by rw [List.mem_singleton.mp new]⟩
  | ended ended fair => exact .ended ended (fair.concat nofun)

theorem Line.Attentive.takes {event : Event} (attentive : line.Attentive settings)
    (ready : line.Allows (.takes event)) :
    (line.step directory (.takes event)).Attentive settings := by
  have goesOn := Connection.goesOn_of_isReady ready
  by_cases read : ∃ bytes, event = .read bytes ∧ bytes ≠ []
  · obtain ⟨bytes, rfl, nonempty⟩ := read
    obtain ⟨waiting, front⟩ := Connection.waiting_of_isReady_read nonempty ready
    exact Device.Attentive.reads attentive waiting nonempty front line.hub
  · have empty_of_read {bytes : Bytes} (isRead : event = .read bytes) : bytes = [] :=
      Classical.not_not.mp fun nonempty => read ⟨bytes, isRead, nonempty⟩
    have unread : Session.reading event = [] := by
      cases event with
      | read bytes => exact if_pos (empty_of_read rfl)
      | _ => rfl
    have same : (Connection.afterEvent line.connection.wire event).incoming =
        line.connection.wire.incoming := by
      cases event with
      | read bytes =>
          rw [empty_of_read rfl]
          rfl
      | _ => rfl
    have stepped := Device.Attentive.steps attentive goesOn unread
      (line.connection.session.steps_step directory line.now line.hub event)
    have signs : line.connection.session.signs directory line.now line.hub event =
        Session.telling (line.connection.session.deeds directory line.now line.hub event)
          (line.connection.session.step directory line.now line.hub event).2 := by
      rw [Session.signs, unread, List.nil_append]
    rw [← same, ← signs] at stepped
    exact stepped

theorem Line.Attentive.step (attentive : line.Attentive settings) {happening : Happening}
    (allowed : line.Allows happening) : (line.step directory happening).Attentive settings := by
  cases happening with
  | passes later => exact attentive.passes allowed
  | arrives bytes => exact attentive.arrives bytes
  | turns wire => exact attentive
  | meddles hub => exact attentive
  | takes event => exact attentive.takes allowed

theorem Line.Attentive.start (settings : Settings) (now : Instant) (hub : Hub) :
    (Line.start settings now hub).Attentive settings := by
  let log : History := [(now, .did (.began .greeting))]
  have split : log = [] ++ (now, .did (.began .greeting)) :: [] := rfl
  have none : Fair Spanned settings [] := by
    intro before after instant outcome split
    cases before <;> cases split
  refine .writing rfl ⟨rfl, rfl, rfl, .nil, nofun, nofun, nofun, ?_⟩ (.listen rfl (Or.inl rfl))
    split nofun (Nat.le_refl now) ?_
  · exact none.concat nofun
  · rintro limit - ⟨entry, member, -⟩
    cases member

theorem Line.Attentive.fair (attentive : line.Attentive settings) :
    Fair Spanned settings line.log := by
  cases attentive with
  | waiting _ attends | writing _ attends => exact attends.fair
  | ended _ fair => exact fair

theorem Line.Attentive.run (attentive : line.Attentive settings) {happenings : List Happening}
    (happens : line.Happens directory happenings) :
    (line.run directory happenings).Attentive settings := by
  induction happenings generalizing line with
  | nil => exact attentive
  | cons happening rest ih =>
      obtain ⟨allowed, goesOn⟩ := happens
      exact ih (attentive.step allowed) goesOn

end Lines

/-- In every run of a connection, with writes that may take any time below their limit, with any
choice among the events that can happen and with any other use of the hub, a session that is given
up with a pong in reach, or with bytes in reach, was writing when the limit passed.  Where no write
spans a limit, none is given up so. -/
theorem fair_run (directory : Directory) (settings : Settings) (now : Instant) (hub : Hub)
    {happenings : List Happening}
    (happens : (Line.start settings now hub).Happens directory happenings) :
    let log := ((Line.start settings now hub).run directory happenings).log
    Fair Spanned settings log ∧ ((∀ limit, ¬ Spanned log limit) → Heedful settings log) := by
  intro log
  have attentive := (Line.Attentive.start settings now hub).run happens
  exact ⟨attentive.fair, attentive.fair.heedful⟩

/-- A handshake is repeated and its refusal is slow; a pong arrives in time while the refusal is
written, and when it is out the timer comes first. -/
def slowRefusal : List Happening :=
  let hello := Uplink.encode (.hello ⟨List.replicate 16 0x40, rfl⟩ 1)
  let pong := Uplink.encode .pong
  [.takes .written, .passes 5, .arrives hello, .takes (.read hello), .takes .written,
    .passes 10005, .takes .keepaliveDue, .takes .written, .passes 12000,
    .turns { isStalled := true }, .arrives hello, .takes (.read hello), .passes 15000,
    .arrives pong, .passes 20500, .turns {}, .takes .written, .takes .keepaliveDue]

/-- The session is given up for the ping of 10005, and the refusal was being written at 20005. -/
theorem fair_run_slow_refusal :
    let directory : Directory := ⟨fun _ => true, Station.defaultName⟩
    let line := (Line.start {} 0 Hub.empty).run directory slowRefusal
    (Line.start {} 0 Hub.empty).Happens directory slowRefusal ∧ Fair Spanned {} line.log ∧
      line.connection.session.outcome? = some (some (.pongTimeout 10000)) := by
  intro directory line
  have happens : (Line.start {} 0 Hub.empty).Happens directory slowRefusal := by decide +kernel
  exact ⟨happens, (fair_run directory {} 0 Hub.empty happens).1, by decide +kernel⟩

/-- The pong in reach was there five seconds before the limit. -/
theorem not_heedful_slow_refusal :
    let directory : Directory := ⟨fun _ => true, Station.defaultName⟩
    let log := ((Line.start {} 0 Hub.empty).run directory slowRefusal).log
    (Line.start {} 0 Hub.empty).Happens directory slowRefusal ∧ ¬ Heedful {} log := by
  intro directory log
  refine ⟨by decide +kernel, fun heedful => ?_⟩
  let before := log.dropLast
  have split : log = before ++ [(20500, .ended (some (.pongTimeout 10000)))] := by decide +kernel
  have onePing : ∀ entry ∈ before, entry.2 = .did (.wrote .ping) → entry.1 = 10005 := by
    decide +kernel
  have inReach : arrivedBefore 20005 (unhandled before) = Uplink.encode .pong := by decide +kernel
  obtain ⟨pinged, ⟨front, back, isPing, -⟩, -, ignored⟩ :=
    (heedful before [] 20500 _ split).pong 10000 rfl
  have member : (pinged, Sign.did (.wrote .ping)) ∈ before :=
    isPing ▸ List.mem_append_right _ List.mem_cons_self
  obtain rfl : pinged = 10005 := onePing _ member rfl
  refine ignored ?_
  change Uplink.PongWaits (arrivedBefore 20005 (unhandled before))
  rw [inReach]
  exact .front rfl

end Device

end StationRelay
