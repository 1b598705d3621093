import StationRelay.Proofs.Clock
import StationRelay.Proofs.Deadlines
import StationRelay.Proofs.MessageBorders
import StationRelay.Proofs.Outgoing

/-!
# The limit for an incomplete request

A browser session keeps a deadline by which the request in its buffer must grow.
The deadline is stale while the buffer is empty, and it counts only as long as
the session is open.  `Touch` is what shows of it, and
`partial_request_limited_run` says of every run that a session is given up for a
slow request exactly a whole limit behind the last message that left a part of
one, and that nothing but such a message moves the limit.
-/

namespace StationRelay

namespace Browser

/-! ## Touches -/

inductive Touch where
  /-- A message with bytes came in, and this was left of the buffer. -/
  | received (rest : Bytes)
  /-- The session begins to close itself. -/
  | closing
  | ended (outcome : Outcome)
  deriving DecidableEq

/-- There is a part of a request, and no more. -/
def Incomplete (settings : Settings) (buffer : Bytes) : Prop :=
  buffer ≠ [] ∧ ∃ needed available,
    Frame.decode settings.maxPayload buffer = .error (.incomplete needed available)

/-- What comes behind a message that left a part of a request: another in time, or the end of the
session exactly at the limit or for another reason before, unless nobody watches any more. -/
inductive AwaitsRest (timeout : Duration) (limit ends : Instant) :
    List (Instant × Touch) → Prop where
  | received {now : Instant} (left : Bytes) (rest : List (Instant × Touch)) (inTime : now ≤ limit) :
      AwaitsRest timeout limit ends ((now, .received left) :: rest)
  | overdue : AwaitsRest timeout limit ends [(limit, .ended (some (.readTimeout timeout)))]
  | ended {now : Instant} {outcome : Outcome} (inTime : now ≤ limit)
      (other : ∀ limit, outcome ≠ some (.readTimeout limit)) :
      AwaitsRest timeout limit ends [(now, .ended outcome)]
  | unfinished (early : ends ≤ limit) : AwaitsRest timeout limit ends []

/-- What a history that is watched until `ends` says about incomplete requests. -/
structure Hastened (settings : Settings) (ends : Instant) (log : List (Instant × Touch)) :
    Prop where
  /-- A message leaves nothing, or a part of a request. -/
  parts : ∀ {now : Instant} {rest : Bytes}, (now, .received rest) ∈ log →
    rest = [] ∨ Incomplete settings rest
  /-- Behind a part of a request nothing but the next message moves the limit. -/
  awaited : ∀ {before after : List (Instant × Touch)} {last : Instant} {rest : Bytes},
    log = before ++ (last, .received rest) :: after → rest ≠ [] →
      AwaitsRest settings.readTimeout (last + settings.readTimeout) ends after
  /-- The limit is passed only behind a part of a request, exactly then, and only by a session that
  does not close itself. -/
  overdue : ∀ {before after : List (Instant × Touch)} {now : Instant} {limit : Duration},
    log = before ++ (now, .ended (some (.readTimeout limit))) :: after →
      (∀ instant, (instant, .closing) ∉ before) ∧
        ∃ front last rest, before = front ++ [(last, .received rest)] ∧
          Incomplete settings rest ∧ now = last + settings.readTimeout

/-! ## What the limit is counted from -/

inductive Pressure where
  /-- The session is open, and nothing is left in its buffer. -/
  | none
  /-- This part of a request was left at this instant. -/
  | since (last : Instant) (rest : Bytes)
  | closing
  | finished

namespace Pressure

def due? (settings : Settings) : Pressure → Option Instant
  | .since last _ => some (last + settings.readTimeout)
  | .none | .closing | .finished => Option.none

/-- The limit is not passed yet. -/
def Lasts (settings : Settings) (pressure : Pressure) (now : Instant) : Prop :=
  ∀ due ∈ pressure.due? settings, now ≤ due

def IsOpen : Pressure → Prop
  | .none | .since .. => True
  | .closing | .finished => False

inductive Next (settings : Settings) : Pressure → Instant × Touch → Pressure → Prop where
  | all {pressure : Pressure} {now : Instant} (isOpen : pressure.IsOpen)
      (inTime : pressure.Lasts settings now) :
      Next settings pressure (now, .received []) .none
  | part {pressure : Pressure} {now : Instant} {rest : Bytes} (isOpen : pressure.IsOpen)
      (inTime : pressure.Lasts settings now) (incomplete : Incomplete settings rest) :
      Next settings pressure (now, .received rest) (.since now rest)
  | closes (now : Instant) : Next settings .none (now, .closing) .closing
  | overdue (last : Instant) (rest : Bytes) :
      Next settings (.since last rest)
        (last + settings.readTimeout, .ended (some (.readTimeout settings.readTimeout))) .finished
  /-- The session ends for another reason. -/
  | ends {pressure : Pressure} {now : Instant} {outcome : Outcome}
      (going : pressure ≠ .finished) (inTime : pressure.Lasts settings now)
      (other : ∀ limit, outcome ≠ some (.readTimeout limit)) :
      Next settings pressure (now, .ended outcome) .finished

def Told (settings : Settings) (log : List (Instant × Touch)) : Pressure → Prop
  | .none => ∀ instant, (instant, .closing) ∉ log
  | .since last rest =>
    (∀ instant, (instant, .closing) ∉ log) ∧ Incomplete settings rest ∧
      ∃ front, log = front ++ [(last, .received rest)]
  | .closing | .finished => True

end Pressure

section Histories

variable {settings : Settings} {first mid last : Pressure}
  {log before after : List (Instant × Touch)} {ends : Instant}

theorem Pressure.Told.unclosed (told : first.Told settings log) (isOpen : first.IsOpen) :
    ∀ instant, (instant, .closing) ∉ log := by
  cases first with
  | none => exact told
  | since => exact told.1
  | closing | finished => exact isOpen.elim

theorem Pressure.Told.next {touch : Instant × Touch} (told : first.Told settings log)
    (next : first.Next settings touch mid) : mid.Told settings (log ++ [touch]) := by
  have stays {now : Instant} {rest : Bytes} (isOpen : first.IsOpen) :
      ∀ instant, (instant, .closing) ∉ log ++ [(now, .received rest)] := by
    intro instant member
    rcases List.mem_append.mp member with old | new
    · exact told.unclosed isOpen instant old
    · cases List.mem_singleton.mp new
  cases next with
  | all isOpen => exact stays isOpen
  | part isOpen inTime incomplete => exact ⟨stays isOpen, incomplete, log, rfl⟩
  | closes | overdue | ends => trivial

theorem Pressure.told (follows : Follows (Pressure.Next settings) .none log last) :
    last.Told settings log := by
  have told : last.Told settings ([] ++ log) :=
    Follows.carry (fun history pressure => pressure.Told settings history)
      (fun told next => told.next next) follows fun _ => List.not_mem_nil
  exact told

theorem Pressure.nil_of_finished (follows : Follows (Pressure.Next settings) .finished log last) :
    log = [] := by
  refine follows.nil_of_stuck fun next => ?_
  cases next with
  | all isOpen | part isOpen => exact isOpen
  | ends going => exact going rfl

theorem Pressure.awaitsRest {since : Instant} {rest : Bytes}
    (follows : Follows (Pressure.Next settings) (.since since rest) after last)
    (lasts : last.Lasts settings ends) :
    AwaitsRest settings.readTimeout (since + settings.readTimeout) ends after := by
  cases follows with
  | nil => exact .unfinished (lasts _ rfl)
  | cons next later =>
      cases next with
      | all _ inTime | part _ inTime => exact .received _ _ (inTime _ rfl)
      | overdue =>
          obtain rfl := Pressure.nil_of_finished later
          exact .overdue
      | ends _ inTime other =>
          obtain rfl := Pressure.nil_of_finished later
          exact .ended (inTime _ rfl) other

theorem Pressure.hastened (follows : Follows (Pressure.Next settings) .none log last)
    (lasts : last.Lasts settings ends) : Hastened settings ends log := by
  constructor
  case parts =>
    intro now rest member
    obtain ⟨before, after, split⟩ := List.append_of_mem member
    obtain ⟨mid, -, back⟩ := (split ▸ follows).split
    cases back with
    | cons next =>
        cases next with
        | all => exact Or.inl rfl
        | part _ _ incomplete => exact Or.inr incomplete
  case awaited =>
    intro before after since rest split isPart
    obtain ⟨mid, -, back⟩ := (split ▸ follows).split
    cases back with
    | cons next later =>
        cases next with
        | all => exact absurd rfl isPart
        | part => exact Pressure.awaitsRest later lasts
  case overdue =>
    intro before after now limit split
    obtain ⟨mid, front, back⟩ := (split ▸ follows).split
    cases back with
    | cons next later =>
        cases next with
        | overdue since rest =>
            obtain ⟨unclosed, incomplete, earlier, isFront⟩ := Pressure.told front
            exact ⟨unclosed, earlier, since, rest, isFront, incomplete, rfl⟩
        | ends _ _ other => exact absurd rfl (other limit)

end Histories

/-! ## Touches of a session -/

namespace Session

def receiving (session : Session) (event : Event) (last : Session) : List Touch :=
  match event with
  | .data bytes => if session.IsOpen ∧ bytes ≠ [] then [.received last.buffer] else []
  | _ => []

def shutting (session last : Session) : List Touch :=
  if session.closing = none ∧ last.closing ≠ none then [.closing] else []

def touches (directory : Directory) (now : Instant) (hub : Hub) (session : Session)
    (event : Event) : List Touch :=
  let last := (session.step directory now hub event).session
  session.receiving event last ++ session.shutting last ++ session.ending Touch.ended last

/-- Time may pass until this instant: the limit for an incomplete request is not passed before. -/
def Lets (session : Session) (now : Instant) : Prop :=
  session.IsOpen → session.buffer ≠ [] → now ≤ session.readDeadline

instance (session : Session) (now : Instant) : Decidable (session.Lets now) :=
  inferInstanceAs (Decidable (_ → _ → _))

end Session

/-! ## The invariant -/

/-- What is left of a session that is given up for a slow request. -/
structure Session.GivenUp (settings : Settings) (session : Session)
    (log : List (Instant × Touch)) (outcome : Outcome) : Prop where
  closing : session.closing = none
  incomplete : Incomplete settings session.buffer
  told : ∃ front last now,
    log = front ++ [(last, .received session.buffer), (now, .ended outcome)]

/-- What holds of a session and its touches between two events. -/
inductive Pressed (settings : Settings) (clock : Instant) (session : Session)
    (log : List (Instant × Touch)) : Prop where
  | calm (isOpen : session.IsOpen) (empty : session.buffer = [])
      (follows : Follows (Pressure.Next settings) .none log .none) :
      Pressed settings clock session log
  | waits {last : Instant} (isOpen : session.IsOpen) (part : session.buffer ≠ [])
      (due : session.readDeadline = last + settings.readTimeout)
      (follows : Follows (Pressure.Next settings) .none log (.since last session.buffer))
      (inTime : clock ≤ last + settings.readTimeout) : Pressed settings clock session log
  | closing {breach : Breach} (running : session.outcome = none)
      (closing : session.closing = some breach)
      (follows : Follows (Pressure.Next settings) .none log .closing) :
      Pressed settings clock session log
  | ended {outcome : Outcome} {pressure : Pressure} (ended : session.outcome = some outcome)
      (follows : Follows (Pressure.Next settings) .none log pressure)
      (unpressed : pressure.due? settings = none)
      (told : ∀ limit, outcome = some (.readTimeout limit) →
        session.GivenUp settings log outcome) :
      Pressed settings clock session log

/-- Two sessions that do not differ in what the limit depends on. -/
structure Session.Alike (first second : Session) : Prop where
  buffer : second.buffer = first.buffer
  readDeadline : second.readDeadline = first.readDeadline
  closing : second.closing = first.closing
  outcome : second.outcome = first.outcome

section Events

variable {settings : Settings} {directory : Directory} {clock : Instant} {hub : Hub}
  {session other : Session} {log : List (Instant × Touch)}

theorem Pressed.of_alike (pressed : Pressed settings clock session log)
    (alike : session.Alike other) : Pressed settings clock other log := by
  obtain ⟨buffer, readDeadline, closing, outcome⟩ := alike
  have opens (isOpen : session.IsOpen) : other.IsOpen :=
    ⟨outcome.trans isOpen.1, closing.trans isOpen.2⟩
  cases pressed with
  | calm isOpen empty follows => exact .calm (opens isOpen) (buffer.trans empty) follows
  | waits isOpen part due follows inTime =>
      exact .waits (opens isOpen) (buffer ▸ part) (readDeadline.trans due) (buffer.symm ▸ follows)
        inTime
  | closing running isClosing follows =>
      exact .closing (outcome.trans running) (closing.trans isClosing) follows
  | ended ended follows unpressed told =>
      refine .ended (outcome.trans ended) follows unpressed fun limit isSlow => ?_
      obtain ⟨unclosed, incomplete, split⟩ := told limit isSlow
      exact ⟨closing.trans unclosed, buffer.symm ▸ incomplete, buffer.symm ▸ split⟩

theorem Pressed.ends {outcome : Outcome} (pressed : Pressed settings clock session log)
    (running : session.outcome = none) (notSlow : ∀ limit, outcome ≠ some (.readTimeout limit)) :
    Pressed settings clock { session with outcome := some outcome }
      (log ++ [(clock, .ended outcome)]) := by
  have finishes {pressure : Pressure}
      (follows : Follows (Pressure.Next settings) .none log pressure)
      (going : pressure ≠ .finished) (inTime : pressure.Lasts settings clock) :
      Pressed settings clock { session with outcome := some outcome }
        (log ++ [(clock, .ended outcome)]) :=
    .ended rfl (follows.concat (.ends going inTime notSlow)) rfl
      fun limit isSlow => absurd isSlow (notSlow limit)
  cases pressed with
  | calm _ _ follows => exact finishes follows nofun nofun
  | waits _ _ _ follows inTime =>
      refine finishes follows nofun ?_
      rintro due ⟨⟩
      exact inTime
  | closing _ _ follows => exact finishes follows nofun nofun
  | ended ended => cases running.symm.trans ended

/-- A session whose limit is passed ends exactly then. -/
theorem Pressed.overdue (pressed : Pressed settings clock session log) (isOpen : session.IsOpen)
    (part : session.buffer ≠ []) (due : session.readDeadline ≤ clock) :
    Pressed settings clock
      { session with outcome := some (some (.readTimeout settings.readTimeout)) }
      (log ++ [(clock, .ended (some (.readTimeout settings.readTimeout)))]) := by
  cases pressed with
  | calm _ empty => exact absurd empty part
  | @waits last _ _ isDue follows inTime =>
      obtain rfl : clock = last + settings.readTimeout := Nat.le_antisymm inTime (isDue ▸ due)
      refine .ended rfl (follows.concat (.overdue ..)) rfl ?_
      intro limit _
      obtain ⟨-, incomplete, front, split⟩ := Pressure.told follows
      exact ⟨isOpen.2, incomplete, front, last, _, by rw [split, List.append_assoc]; rfl⟩
  | closing _ closing => cases isOpen.2.symm.trans closing
  | ended ended => cases isOpen.1.symm.trans ended

theorem Session.outcome_step_readDue (isOpen : session.IsOpen) (part : session.buffer ≠ [])
    {now : Instant} (due : session.readDeadline ≤ now) (directory : Directory) (hub : Hub) :
    (session.step directory now hub .readDue).session.outcome =
      some (some (.readTimeout session.settings.readTimeout)) := by
  rw [Session.step_of_ending isOpen (.slowRequest part due)]
  rfl

theorem Session.shutting_of_eq (same : other.closing = session.closing) :
    session.shutting other = [] := by
  refine if_neg ?_
  rintro ⟨unclosed, closed⟩
  exact closed (same.trans unclosed)

/-- A session that closes itself ends once everything is out, and not for a slow request. -/
theorem Pressed.conclude {progress : Progress}
    (pressed : Pressed settings clock progress.session log)
    (running : progress.session.outcome = none) :
    Pressed settings clock progress.conclude.session
      (log ++ (progress.session.ending Touch.ended progress.conclude.session).map (clock, ·)) ∧
      progress.conclude.session.closing = progress.session.closing ∧
      progress.conclude.session.buffer = progress.session.buffer := by
  have still : Pressed settings clock progress.session
      (log ++ (progress.session.ending Touch.ended progress.session).map (clock, ·)) := by
    rw [Session.ending_self, List.map_nil, List.append_nil]
    exact pressed
  unfold Progress.conclude
  split
  · rename_i breach _ closing
    split
    · refine ⟨?_, rfl, rfl⟩
      have notSlow : ∀ limit, some (breach.error progress.session.settings) ≠
          some (.readTimeout limit) := by
        cases breach <;> exact nofun
      rw [Session.ending_of_running running]
      exact pressed.ends running notSlow
    · exact ⟨still, rfl, rfl⟩
  · exact ⟨still, rfl, rfl⟩

theorem Pressed.concludes {acted : Progress} (pressed : Pressed settings clock session log)
    (running : session.outcome = none) (alike : session.Alike acted.session) :
    Pressed settings clock acted.conclude.session
      (log ++ (session.shutting acted.conclude.session ++
        session.ending Touch.ended acted.conclude.session).map (clock, ·)) := by
  obtain ⟨concluded, closing, -⟩ :=
    (pressed.of_alike alike).conclude (alike.outcome.trans running)
  have same : session.ending Touch.ended acted.conclude.session =
      acted.session.ending Touch.ended acted.conclude.session := by
    unfold Session.ending
    rw [alike.outcome]
  rw [Session.shutting_of_eq (closing.trans alike.closing), List.nil_append, same]
  exact concluded

theorem Pressed.finishes {acted : Progress} {outcome : Outcome} (running : session.outcome = none)
    (closing : acted.session.closing = session.closing)
    (ended : acted.session.outcome = some outcome)
    (pressed : Pressed settings clock acted.session (log ++ [(clock, .ended outcome)])) :
    Pressed settings clock acted.conclude.session
      (log ++ (session.shutting acted.conclude.session ++
        session.ending Touch.ended acted.conclude.session).map (clock, ·)) := by
  rw [Progress.conclude_of_ended ended, Session.shutting_of_eq closing, List.nil_append,
    Session.ending_of_running running, ended]
  exact pressed

theorem Pressed.acts {event : Event} {acted : Progress}
    (pressed : Pressed settings clock session log) (own : session.settings = settings)
    (running : session.outcome = none) (unfed : session.receiving event = fun _ => [])
    (acts : Session.Acts directory clock (Progress.of hub session) event acted) :
    Pressed settings clock acted.conclude.session
      (log ++ (session.shutting acted.conclude.session ++
        session.ending Touch.ended acted.conclude.session).map (clock, ·)) := by
  cases acts with
  | idle | hears | delivers | pings | sends => exact pressed.concludes running ⟨rfl, rfl, rfl, rfl⟩
  | @feeds bytes last isOpen nonempty =>
      have received : session.receiving (.data bytes) session = [.received session.buffer] :=
        if_pos ⟨isOpen, nonempty⟩
      rw [unfed] at received
      cases received
  | ends isOpen ending =>
      refine .finishes running rfl rfl ?_
      cases ending with
      | endOfStream | fault | noPong => exact pressed.ends running nofun
      | slowRequest part due =>
          subst own
          exact pressed.overdue isOpen part due
  | fails inFlight failure =>
      refine .finishes running rfl rfl ?_
      have reclaimed :
          Pressed settings clock { session with sender := session.sender.reclaim } log :=
        pressed.of_alike ⟨rfl, rfl, rfl, rfl⟩
      cases failure <;> exact reclaimed.ends running nofun

/-- What the loop over the buffer leaves of an open session. -/
inductive Progress.Leaves (settings : Settings) (progress last : Progress) : Prop where
  | rest (outcome : last.session.outcome = progress.session.outcome)
      (closing : last.session.closing = progress.session.closing)
      (readDeadline : last.session.readDeadline = progress.session.readDeadline)
      (rest : last.session.buffer = [] ∨ Incomplete settings last.session.buffer) :
      Progress.Leaves settings progress last
  | closes {breach : Breach} (outcome : last.session.outcome = progress.session.outcome)
      (closing : last.session.closing = some breach) (empty : last.session.buffer = []) :
      Progress.Leaves settings progress last

/-- A buffer that waits for more holds a part of a request, and no more. -/
theorem incomplete_of_indeterminate {engine : Engine} {buffer : Bytes} (nonempty : buffer ≠ [])
    (limit : engine.maxPayload = settings.maxPayload)
    (verdict : (handle directory hub engine buffer).verdict = .indeterminate) :
    Incomplete settings buffer := by
  refine ⟨nonempty, ?_⟩
  rw [← limit]
  unfold handle at verdict
  split at verdict
  · split at verdict <;> cases verdict
  · rename_i needed available decoded
    exact ⟨needed, available, decoded⟩
  · cases verdict
  · cases verdict

theorem Progress.Drains.leaves {progress last : Progress}
    (drains : Progress.Drains directory clock progress last)
    (limit : progress.session.engine.maxPayload = settings.maxPayload) :
    progress.Leaves settings last := by
  induction drains with
  | @stop progress stopped =>
      refine .rest rfl rfl rfl ?_
      by_cases empty : progress.session.buffer = []
      · exact Or.inl empty
      · exact Or.inr (incomplete_of_indeterminate empty limit (stopped.resolve_left empty))
  | breach => exact .closes rfl rfl rfl
  | @next progress last handled nonempty called good goesOn ih =>
      obtain ⟨sender, handed, replied⟩ :=
        (progress.advance handled).exists_enqueueReplies clock handled.engine.replies
      rw [replied] at ih
      have same : handled.engine.maxPayload = progress.session.engine.maxPayload :=
        called ▸ maxPayload_handle directory _ _ _
      cases ih (same.trans limit) with
      | rest outcome closing readDeadline rest => exact .rest outcome closing readDeadline rest
      | closes outcome closing empty => exact .closes outcome closing empty

theorem Pressed.pressure (pressed : Pressed settings clock session log)
    (isOpen : session.IsOpen) :
    ∃ pressure, Follows (Pressure.Next settings) .none log pressure ∧ pressure.IsOpen ∧
      pressure.Lasts settings clock := by
  cases pressed with
  | calm _ _ follows => exact ⟨.none, follows, trivial, nofun⟩
  | waits _ _ _ follows inTime =>
      refine ⟨.since .., follows, trivial, ?_⟩
      rintro due ⟨⟩
      exact inTime
  | closing _ closing => cases isOpen.2.symm.trans closing
  | ended ended => cases isOpen.1.symm.trans ended

/-- A message with bytes moves the limit, or makes the session close itself. -/
theorem Pressed.feeds {bytes : Bytes} (pressed : Pressed settings clock session log)
    (governed : session.Governed (fun _ => True) settings) (isOpen : session.IsOpen)
    (nonempty : bytes ≠ []) (hub : Hub) :
    Pressed settings clock (session.step directory clock hub (.data bytes)).session
      (log ++ (session.touches directory clock hub (.data bytes)).map (clock, ·)) := by
  obtain ⟨pressure, follows, open', inTime⟩ := pressed.pressure isOpen
  have received (last : Session) :
      session.receiving (.data bytes) last = [.received last.buffer] := if_pos ⟨isOpen, nonempty⟩
  have drains :=
    Progress.drains_drain directory clock ((Progress.of hub session).extend clock bytes)
  have result : session.step directory clock hub (.data bytes) =
      (((Progress.of hub session).extend clock bytes).drain directory clock).conclude := by
    rw [Session.step_of_message isOpen (.data bytes), Session.onOpen, Progress.feed, if_neg nonempty]
    rfl
  rw [Session.touches, result, received]
  generalize ((Progress.of hub session).extend clock bytes).drain directory clock = acted
    at drains ⊢
  cases drains.leaves governed.limit with
  | rest outcome closing readDeadline rest =>
      have stillOpen : acted.session.IsOpen := ⟨outcome.trans isOpen.1, closing.trans isOpen.2⟩
      have stops : session.ending Touch.ended acted.session = [] := by
        rw [Session.ending_of_running isOpen.1, stillOpen.1]
        rfl
      have unclosed : session.shutting acted.session = [] := Session.shutting_of_eq closing
      rw [Progress.conclude_of_isOpen stillOpen, unclosed, stops]
      change Pressed settings clock acted.session (log ++ [(clock, .received acted.session.buffer)])
      rcases rest with empty | incomplete
      · rw [empty]
        exact .calm stillOpen empty (follows.concat (.all open' inTime))
      · refine .waits stillOpen incomplete.1 ?_ (follows.concat (.part open' inTime incomplete))
          (Nat.le_add_right clock settings.readTimeout)
        rw [readDeadline, ← governed.own]
        rfl
  | @closes breach outcome closing empty =>
      have running : acted.session.outcome = none := outcome.trans isOpen.1
      have closed : Follows (Pressure.Next settings) .none
          (log ++ [(clock, .received [])] ++ [(clock, .closing)]) .closing :=
        (follows.concat (.all open' inTime)).concat (.closes clock)
      have shut : Pressed settings clock acted.session
          (log ++ [(clock, .received [])] ++ [(clock, .closing)]) :=
        .closing running closing closed
      obtain ⟨concluded, stays, buffer⟩ := shut.conclude running
      have shuts : session.shutting acted.conclude.session = [.closing] :=
        if_pos ⟨isOpen.2, by rw [stays, closing]; exact Option.some_ne_none breach⟩
      have stops : session.ending Touch.ended acted.conclude.session =
          acted.session.ending Touch.ended acted.conclude.session := by
        rw [Session.ending_of_running isOpen.1, Session.ending_of_running running]
      rw [buffer, empty, shuts, stops]
      simp only [List.map_append, List.append_assoc] at concluded ⊢
      exact concluded

theorem Pressed.step (pressed : Pressed settings clock session log)
    (governed : session.Governed (fun _ => True) settings) (hub : Hub) (event : Event) :
    Pressed settings clock (session.step directory clock hub event).session
      (log ++ (session.touches directory clock hub event).map (clock, ·)) := by
  by_cases fed : ∃ bytes, event = .data bytes ∧ session.IsOpen ∧ bytes ≠ []
  · obtain ⟨bytes, rfl, isOpen, nonempty⟩ := fed
    exact pressed.feeds governed isOpen nonempty hub
  have unfed : session.receiving event = fun _ => [] := by
    cases event with
    | data bytes =>
        funext last
        exact if_neg fun reads => fed ⟨bytes, rfl, reads⟩
    | _ => rfl
  rw [Session.touches, unfed]
  rcases session.step_cases directory clock hub event with
    ⟨-, still⟩ | ⟨acted, running, acts, result⟩
  · rw [still]
    change Pressed settings clock session
      (log ++ ([] ++ session.shutting session ++ session.ending Touch.ended session).map (clock, ·))
    rw [Session.shutting_of_eq rfl, Session.ending_self]
    simpa using pressed
  · rw [result]
    exact pressed.acts governed.own running unfed acts

/-- A session that begins is open with nothing in its buffer, or ends at once. -/
theorem Pressed.start (settings : Settings) (now : Instant) (hub : Hub) (name : Uuid)
    (flag : TransportFlag) :
    Pressed settings clock (Session.start settings now hub name flag).2 [] := by
  simp only [Session.start]
  split
  · exact .calm ⟨rfl, rfl⟩ rfl (.nil _)
  · refine .ended rfl (.nil Pressure.none) rfl ?_
    rintro limit ⟨⟩

theorem Pressed.passes {now : Instant} (pressed : Pressed settings clock session log)
    (lets : session.Lets now) : Pressed settings now session log := by
  cases pressed with
  | calm isOpen empty follows => exact .calm isOpen empty follows
  | waits isOpen part due follows =>
      exact .waits isOpen part due follows (due ▸ lets isOpen part)
  | closing running closing follows => exact .closing running closing follows
  | ended ended follows unpressed told => exact .ended ended follows unpressed told

theorem Pressed.hastened (pressed : Pressed settings clock session log) :
    Hastened settings clock log := by
  cases pressed with
  | calm _ _ follows | closing _ _ follows => exact Pressure.hastened follows nofun
  | waits _ _ _ follows inTime =>
      refine Pressure.hastened follows ?_
      rintro due ⟨⟩
      exact inTime
  | ended _ follows unpressed =>
      refine Pressure.hastened follows ?_
      rw [Pressure.Lasts, unpressed]
      exact nofun

theorem Pressed.givenUp {limit : Duration} (pressed : Pressed settings clock session log)
    (slow : session.outcome = some (some (.readTimeout limit))) :
    session.GivenUp settings log (some (.readTimeout limit)) := by
  cases pressed with
  | calm isOpen | waits isOpen => cases isOpen.1.symm.trans slow
  | closing running => cases running.symm.trans slow
  | ended ended follows unpressed told =>
      cases ended.symm.trans slow
      exact told limit rfl

end Events

end Browser

/-! ## Every session of every run -/

namespace Switchboard

open Browser

/-- The limit for an incomplete request of this browser session holds the clock. -/
def ReadsOnTime (index : Nat) (board : Switchboard) (now : Instant) : Prop :=
  ∀ session ∈ board.browsers[index]?, session.Lets now

instance (index : Nat) (board : Switchboard) (now : Instant) :
    Decidable (ReadsOnTime index board now) :=
  inferInstanceAs (Decidable (∀ session ∈ board.browsers[index]?, session.Lets now))

def touchesOf (index : Nat) (board : Switchboard) : Move → List Touch :=
  ofBrowser Session.touches index board

structure Hurrying (index : Nat) (settings : Settings) (board : Switchboard) (clock : Instant)
    (log : List (Instant × Touch)) : Prop where
  governed : board.Governed (fun _ => True) settings
  watched : Watched (Pressed settings clock) board.browsers[index]? log

section Hurrying

variable {index : Nat} {settings : Settings} {board : Switchboard} {clock : Instant}
  {log : List (Instant × Touch)}

theorem hastened_of_watched {session? : Option Session}
    (watched : Watched (Pressed settings clock) session? log) : Hastened settings clock log := by
  cases watched with
  | nobody => exact Pressure.hastened (.nil Pressure.none) nofun
  | somebody pressed => exact pressed.hastened

theorem Hurrying.passes {now : Instant} (onTime : ReadsOnTime index board now)
    (hurrying : Hurrying index settings board clock log) :
    Hurrying index settings board now log :=
  ⟨hurrying.governed, hurrying.watched.mono fun session found pressed =>
    pressed.passes (onTime session found)⟩

theorem Hurrying.step (move : Move) (hurrying : Hurrying index settings board move.instant log) :
    Hurrying index settings (board.step move) move.instant
      (log ++ stamped (touchesOf index) board move) := by
  obtain ⟨governed, watched⟩ := hurrying
  refine ⟨governed.step fun _ _ => trivial, ?_⟩
  have fate := browserFate_step Session.touches index board move
  unfold stamped touchesOf
  generalize found : board.browsers[index]? = before, (board.step move).browsers[index]? = after,
    ofBrowser Session.touches index board move = shown at fate watched ⊢
  cases fate with
  | acts session now event =>
      have own := governed.browsers session (List.mem_of_getElem? found)
      exact .somebody (watched.holds.step own board.hub event)
  | stays | nobody =>
      rw [List.map_nil, List.append_nil]
      exact watched
  | begins now name flag =>
      cases watched
      rw [governed.own]
      exact .somebody (.start ..)

end Hurrying

/-- Whatever the sessions have done, the limit of one of them holds the clock as long as it must and
no longer. -/
theorem endures_readsOnTime (index : Nat) (board : Switchboard) (clock : Instant) :
    Endures (ReadsOnTime index) (fun move => ∃ now, move = .browser index now .readDue) board
      clock := by
  cases found : board.browsers[index]? with
  | none =>
      refine .of_lets fun later session isSession => ?_
      cases found.symm.trans isSession
  | some session =>
      by_cases presses : session.IsOpen ∧ session.buffer ≠ []
      · refine .of_step ⟨_, rfl⟩ (Nat.le_max_left clock session.readDeadline) ?_ ?_
        · intro later passes early other isSession
          cases found.symm.trans isSession
          exact fun _ _ => le_of_le_max passes early
        · refine .of_lets fun later last isLast => ?_
          cases (browsers_step_browser found ..).symm.trans isLast
          intro isOpen
          have ended := Session.outcome_step_readDue presses.1 presses.2
            (Nat.le_max_right clock session.readDeadline) board.directory board.hub
          cases ended.symm.trans isOpen.1
      · refine .of_lets fun later other isSession => ?_
        cases found.symm.trans isSession
        exact fun isOpen part => absurd ⟨isOpen, part⟩ presses

/-- In every run in which its limit for incomplete requests is seen to when it is due, a browser
session keeps to that limit, and is given up for a slow request only with a part of one.  Every such
run can go on to any later instant. -/
theorem partial_request_limited_run (directory : Directory) (settings : Settings)
    {begins ends : Instant} {moves : List Move} {index : Nat}
    (paced : Paced (ReadsOnTime index) (start directory settings) begins moves ends) :
    let log := (start directory settings).trace (stamped (touchesOf index)) moves
    Hastened settings ends log ∧ (log.map Prod.fst).Pairwise (· ≤ ·) ∧
      (∀ {session : Session} {limit : Duration},
        ((start directory settings).run moves).browsers[index]? = some session →
          session.outcome = some (some (.readTimeout limit)) →
            session.GivenUp settings log (some (.readTimeout limit))) ∧
      ∀ {later : Instant}, ends ≤ later →
        ∃ more, (∀ move ∈ more, ∃ now, move = .browser index now .readDue) ∧
          Paced (ReadsOnTime index) (start directory settings) begins (moves ++ more) later := by
  intro log
  have begun : Hurrying index settings (start directory settings) begins [] :=
    ⟨.start _ directory settings, .nobody⟩
  have hurrying : Hurrying index settings ((start directory settings).run moves) ends log :=
    @Paced.induction (ReadsOnTime index) Touch (touchesOf index) (Hurrying index settings)
      (fun _ onTime hurrying => hurrying.passes onTime)
      (fun move hurrying => hurrying.step move) _ _ _ [] moves paced begun
  refine ⟨hastened_of_watched hurrying.watched, paced.sorted.1, ?_,
    paced.endures (endures_readsOnTime index _ ends)⟩
  intro session limit found slow
  exact (found ▸ hurrying.watched).holds.givenUp slow

/-- A whole request and a part of the next come in one message; neither an empty message nor a
pong, a ping or a send that ends moves the limit. -/
theorem partial_request_limited_run_half_a_header :
    let directory : Directory := ⟨fun _ => true, Station.defaultName⟩
    let name : Uuid := ⟨List.replicate 16 0x40, rfl⟩
    let request : Bytes := [8, 0, 0x7b, 0x22, 0x69, 0x64, 0x22, 0x3a, 0x31, 0x7d]
    let moves : List Move :=
      [.connectBrowser 0 name .plain, .browser 0 5000 (.data (request ++ [8])),
        .browser 0 5000 .sent, .browser 0 9000 (.data []), .browser 0 10000 .keepaliveDue,
        .browser 0 10000 .sent, .browser 0 12000 .pong, .browser 0 22000 .keepaliveDue,
        .browser 0 23000 .pong, .browser 0 35000 .readDue]
    let log := (start directory {}).trace (stamped (touchesOf 0)) moves
    Paced (ReadsOnTime 0) (start directory {}) 0 moves 90000 ∧ Hastened {} 90000 log ∧
      log = [(5000, .received [8]), (35000, .ended (some (.readTimeout 30000)))] := by
  intro directory name request moves log
  have paced : Paced (ReadsOnTime 0) (start directory {}) 0 moves 90000 := by decide +kernel
  exact ⟨paced, (partial_request_limited_run directory {} paced).1, by decide +kernel⟩

end Switchboard

end StationRelay
