import StationRelay.Proofs.Clock
import StationRelay.Proofs.Deeds

/-!
# The rhythm of pings and pongs

A beat is what the keepalive of a device session shows at one instant: the
welcome, a ping, a pong, the end.  `Stage.Next` says which beat may come at which
stage and when, and `Rhythmic` is what a history that follows it says about pings
and pongs without a word about stages.
-/

namespace StationRelay

namespace Device

inductive Beat where
  /-- The welcome is out. -/
  | accepted
  /-- A ping is out. -/
  | pinged
  /-- A pong was handled. -/
  | heardPong
  | ended (outcome : Outcome)
  deriving DecidableEq

inductive Stage where
  | unaccepted
  /-- The wait for the next ping began at this instant. -/
  | pinging (armed : Instant)
  /-- The wait for the ping began at this instant; the ping is out and not answered. -/
  | awaiting (armed : Instant)
  | finished

namespace Stage

def timer? (settings : Settings) : Stage → Option (Instant × KeepaliveTimer)
  | .pinging armed => some (armed + settings.pingInterval, .ping)
  | .awaiting armed => some (armed + settings.pingInterval + settings.pongTimeout, .pongTimeout)
  | .unaccepted | .finished => none

def armed? : Stage → Option Instant
  | .pinging armed | .awaiting armed => some armed
  | .unaccepted | .finished => none

/-- The timer of the stage is not overdue. -/
def Lasts (settings : Settings) (stage : Stage) (now : Instant) : Prop :=
  ∀ {due timer}, stage.timer? settings = some (due, timer) → now ≤ due

/-- What one beat does to a stage. -/
inductive Next (settings : Settings) : Stage → Instant × Beat → Stage → Prop where
  | accepted (now : Instant) : Next settings .unaccepted (now, .accepted) (.pinging now)
  /-- A pong that nobody asked for moves nothing. -/
  | unasked {armed now : Instant} (inTime : now ≤ armed + settings.pingInterval) :
      Next settings (.pinging armed) (now, .heardPong) (.pinging armed)
  | ping (armed : Instant) :
      Next settings (.pinging armed) (armed + settings.pingInterval, .pinged) (.awaiting armed)
  | answered {armed now : Instant}
      (inTime : now ≤ armed + settings.pingInterval + settings.pongTimeout) :
      Next settings (.awaiting armed) (now, .heardPong) (.pinging now)
  | overdue (armed : Instant) :
      Next settings (.awaiting armed)
        (armed + settings.pingInterval + settings.pongTimeout,
          .ended (some (.pongTimeout settings.pongTimeout))) .finished
  /-- The session ends for another reason; silence is one only after the whole limit. -/
  | ends {stage : Stage} {now : Instant} {outcome : Outcome} (going : stage ≠ .finished)
      (inTime : stage.Lasts settings now) (other : ∀ limit, outcome ≠ some (.pongTimeout limit))
      (silent : ∀ limit, outcome = some (.readTimeout limit) →
        ∃ armed, stage.armed? = some armed ∧ armed + settings.readTimeout ≤ now) :
      Next settings stage (now, .ended outcome) .finished

end Stage

/-! ## Histories without stages -/

/-- In this history the wait for the next ping began at this instant, with the welcome or with
the pong that answered the last ping; behind it there are only pongs that nobody asked for. -/
inductive Armed (log : List (Instant × Beat)) (armed : Instant) : Prop where
  | welcomed {before pongs : List (Instant × Beat)}
      (split : log = before ++ (armed, .accepted) :: pongs)
      (unasked : ∀ beat ∈ pongs, beat.2 = .heardPong) : Armed log armed
  | answered {before pongs : List (Instant × Beat)} {pinged : Instant}
      (split : log = before ++ (pinged, .pinged) :: (armed, .heardPong) :: pongs)
      (unasked : ∀ beat ∈ pongs, beat.2 = .heardPong) : Armed log armed

/-- What comes while the next ping is waited for: the ping exactly when it is due, unless the
session ends or nobody watches any more. -/
inductive AwaitsPing (due ends : Instant) : List (Instant × Beat) → Prop where
  | pinged (rest : List (Instant × Beat)) : AwaitsPing due ends ((due, .pinged) :: rest)
  | unasked {now : Instant} {rest : List (Instant × Beat)} (inTime : now ≤ due)
      (later : AwaitsPing due ends rest) : AwaitsPing due ends ((now, .heardPong) :: rest)
  | ended {now : Instant} (outcome : Outcome) (inTime : now ≤ due) :
      AwaitsPing due ends [(now, .ended outcome)]
  | unfinished (early : ends ≤ due) : AwaitsPing due ends []

/-- What comes behind a ping: a pong in time, or the end of the session exactly at the limit,
unless the session ends before or nobody watches any more. -/
inductive AwaitsPong (timeout : Duration) (limit ends : Instant) :
    List (Instant × Beat) → Prop where
  | heard {now : Instant} (rest : List (Instant × Beat)) (inTime : now ≤ limit) :
      AwaitsPong timeout limit ends ((now, .heardPong) :: rest)
  | overdue : AwaitsPong timeout limit ends [(limit, .ended (some (.pongTimeout timeout)))]
  | ended {now : Instant} {outcome : Outcome} (inTime : now ≤ limit)
      (other : ∀ limit, outcome ≠ some (.pongTimeout limit)) :
      AwaitsPong timeout limit ends [(now, .ended outcome)]
  | unfinished (early : ends ≤ limit) : AwaitsPong timeout limit ends []

def upcoming (ends : Instant) : List (Instant × Beat) → Instant
  | [] => ends
  | (now, _) :: _ => now

/-- No ping stays unanswered for the whole timeout while the session and the run go on. -/
def Punctual (settings : Settings) (ends : Instant) (log : List (Instant × Beat)) : Prop :=
  ∀ {before after : List (Instant × Beat)} {pinged : Instant},
    log = before ++ (pinged, .pinged) :: after →
      upcoming ends after < pinged + settings.pongTimeout

/-- What a history that is watched until `ends` says about pings and pongs. -/
structure Rhythmic (settings : Settings) (ends : Instant) (log : List (Instant × Beat)) :
    Prop where
  /-- The next ping comes one interval after the wait for it began. -/
  pings : ∀ {before after : List (Instant × Beat)} {armed : Instant}, log = before ++ after →
    Armed before armed → AwaitsPing (armed + settings.pingInterval) ends after
  /-- No ping comes at another time. -/
  pinged : ∀ {before after : List (Instant × Beat)} {pinged : Instant},
    log = before ++ (pinged, .pinged) :: after →
      ∃ armed, Armed before armed ∧ pinged = armed + settings.pingInterval
  /-- A ping is answered in time, or the session ends. -/
  pongs : ∀ {before after : List (Instant × Beat)} {pinged : Instant},
    log = before ++ (pinged, .pinged) :: after →
      AwaitsPong settings.pongTimeout (pinged + settings.pongTimeout) ends after
  /-- Without a pong the session ends only after a ping, by a whole timeout. -/
  overdue : ∀ {before after : List (Instant × Beat)} {now : Instant} {limit : Duration},
    log = before ++ (now, .ended (some (.pongTimeout limit))) :: after →
      ∃ front pinged, before = front ++ [(pinged, .pinged)] ∧ now = pinged + settings.pongTimeout
  /-- A device that answers in time is not given up. -/
  kept : Punctual settings ends log → ∀ now limit,
    (now, .ended (some (.pongTimeout limit))) ∉ log
  /-- If the interval and the timeout fit into the limit for silence, it is not found silent. -/
  heard : Punctual settings ends log → 0 < settings.pongTimeout →
    settings.pingInterval + settings.pongTimeout ≤ settings.readTimeout → ∀ now limit,
      (now, .ended (some (.readTimeout limit))) ∉ log

/-! ## Stages are told by histories -/

def Stage.Told (settings : Settings) (log : List (Instant × Beat)) : Stage → Prop
  | .pinging armed => Armed log armed
  | .awaiting armed =>
    ∃ before, log = before ++ [(armed + settings.pingInterval, .pinged)] ∧ Armed before armed
  | .unaccepted | .finished => True

theorem Armed.concat_pong {log : List (Instant × Beat)} {armed : Instant} (told : Armed log armed)
    (now : Instant) : Armed (log ++ [(now, .heardPong)]) armed := by
  have more {pongs : List (Instant × Beat)} (unasked : ∀ beat ∈ pongs, beat.2 = .heardPong) :
      ∀ beat ∈ pongs ++ [(now, .heardPong)], beat.2 = .heardPong := by
    intro beat member
    rcases List.mem_append.mp member with old | new
    · exact unasked beat old
    · rw [List.mem_singleton.mp new]
  cases told with
  | welcomed split unasked =>
      exact .welcomed (by rw [split, List.append_assoc, List.cons_append]) (more unasked)
  | answered split unasked =>
      exact .answered (by rw [split, List.append_assoc, List.cons_append, List.cons_append])
        (more unasked)

section Told

variable {settings : Settings} {first mid last : Stage} {log before after : List (Instant × Beat)}
  {armed ends : Instant}

theorem Stage.Told.next {beat : Instant × Beat} (told : first.Told settings log)
    (next : first.Next settings beat mid) : mid.Told settings (log ++ [beat]) := by
  cases next with
  | accepted now => exact .welcomed rfl nofun
  | unasked => exact told.concat_pong _
  | ping => exact ⟨log, rfl, told⟩
  | answered =>
      obtain ⟨before, rfl, -⟩ := told
      rw [List.append_assoc, List.singleton_append]
      exact .answered rfl nofun
  | overdue | ends => trivial

theorem Stage.told (beats : Follows (Next settings) .unaccepted log last) :
    last.Told settings log := by
  have told : last.Told settings ([] ++ log) :=
    Follows.carry (fun history stage => stage.Told settings history)
      (fun told next => told.next next) beats trivial
  exact told

theorem Stage.nil_of_finished (beats : Follows (Next settings) .finished log last) : log = [] := by
  refine beats.nil_of_stuck fun next => ?_
  cases next with
  | ends going => exact going rfl

/-- Pongs that nobody asked for leave the stage as it is. -/
theorem Stage.eq_of_pongs (beats : Follows (Stage.Next settings) (.pinging armed) after last)
    (unasked : ∀ beat ∈ after, beat.2 = .heardPong) : last = .pinging armed := by
  induction after with
  | nil =>
      cases beats
      rfl
  | cons beat rest ih =>
      have isPong := unasked beat List.mem_cons_self
      cases beats with
      | cons next later =>
          cases next with
          | unasked =>
              exact ih later fun beat member => unasked beat (List.mem_cons_of_mem _ member)
          | ping | ends => cases isPong

/-- A history tells that the next ping is waited for, and since when. -/
theorem Armed.stage (told : Armed log armed)
    (beats : Follows (Stage.Next settings) .unaccepted log last) : last = .pinging armed := by
  cases told with
  | welcomed split unasked =>
      rw [split] at beats
      obtain ⟨_, -, later⟩ := beats.split
      cases later with
      | cons next later =>
          cases next
          exact Stage.eq_of_pongs later unasked
  | answered split unasked =>
      rw [split] at beats
      obtain ⟨_, -, later⟩ := beats.split
      cases later with
      | cons next later =>
          cases next
          cases later with
          | cons next later =>
              cases next
              exact Stage.eq_of_pongs later unasked

theorem Stage.awaitsPing (beats : Follows (Stage.Next settings) (.pinging armed) after last)
    (lasts : last.Lasts settings ends) :
    AwaitsPing (armed + settings.pingInterval) ends after := by
  induction after with
  | nil =>
      cases beats
      exact .unfinished (lasts rfl)
  | cons beat rest ih =>
      cases beats with
      | cons next later =>
          cases next with
          | unasked inTime => exact .unasked inTime (ih later)
          | ping => exact .pinged rest
          | ends going inTime =>
              obtain rfl := Stage.nil_of_finished later
              exact .ended _ (inTime rfl)

theorem Stage.awaitsPong (beats : Follows (Stage.Next settings) (.awaiting armed) after last)
    (lasts : last.Lasts settings ends) :
    AwaitsPong settings.pongTimeout (armed + settings.pingInterval + settings.pongTimeout) ends
      after := by
  cases beats with
  | nil => exact .unfinished (lasts rfl)
  | cons next later =>
      cases next with
      | answered inTime => exact .heard _ inTime
      | overdue =>
          obtain rfl := Stage.nil_of_finished later
          exact .overdue
      | ends going inTime other =>
          obtain rfl := Stage.nil_of_finished later
          exact .ended (inTime rfl) other

theorem Stage.pinged {pinged : Instant}
    (beats : Follows (Stage.Next settings) .unaccepted (before ++ (pinged, .pinged) :: after)
      last) :
    ∃ armed, Armed before armed ∧ pinged = armed + settings.pingInterval ∧
      Follows (Stage.Next settings) (.awaiting armed) after last := by
  obtain ⟨mid, front, back⟩ := beats.split
  cases back with
  | cons next later =>
      cases next with
      | ping armed => exact ⟨armed, Stage.told front, rfl, later⟩

/-- A session that is given up was pinged last, and the ping stayed unanswered. -/
theorem Stage.overdue {now : Instant} {limit : Duration}
    (beats : Follows (Stage.Next settings) .unaccepted
      (before ++ (now, .ended (some (.pongTimeout limit))) :: after) last) :
    ∃ front pinged, before = front ++ [(pinged, .pinged)] ∧
      now = pinged + settings.pongTimeout := by
  obtain ⟨mid, front, back⟩ := beats.split
  cases back with
  | cons next later =>
      cases next with
      | overdue armed =>
          obtain ⟨earlier, split, -⟩ := Stage.told front
          exact ⟨earlier, _, split, rfl⟩
      | ends going inTime other => exact absurd rfl (other limit)

/-- An accepted session that is found silent was silent for the whole limit. -/
theorem Stage.silence {now : Instant} {limit : Duration}
    (beats : Follows (Stage.Next settings) .unaccepted
      (before ++ (now, .ended (some (.readTimeout limit))) :: after) last) :
    ∃ (stage : Stage) (armed : Instant), stage.Told settings before ∧ stage.armed? = some armed ∧
      stage.Lasts settings now ∧ armed + settings.readTimeout ≤ now := by
  obtain ⟨mid, front, back⟩ := beats.split
  cases back with
  | cons next later =>
      cases next with
      | ends going inTime other silent =>
          obtain ⟨armed, isArmed, whole⟩ := silent limit rfl
          exact ⟨mid, armed, Stage.told front, isArmed, inTime, whole⟩

theorem Stage.rhythmic (beats : Follows (Stage.Next settings) .unaccepted log last)
    (lasts : last.Lasts settings ends) : Rhythmic settings ends log := by
  constructor
  case pings =>
    intro before after armed split told
    rw [split] at beats
    obtain ⟨mid, front, back⟩ := beats.split
    obtain rfl := told.stage front
    exact Stage.awaitsPing back lasts
  case pinged =>
    intro before after pinged split
    obtain ⟨armed, told, due, -⟩ := Stage.pinged (split ▸ beats)
    exact ⟨armed, told, due⟩
  case pongs =>
    intro before after pinged split
    obtain ⟨armed, -, rfl, later⟩ := Stage.pinged (split ▸ beats)
    exact Stage.awaitsPong later lasts
  case overdue =>
    intro before after now limit split
    exact Stage.overdue (split ▸ beats)
  case kept =>
    intro punctual now limit member
    obtain ⟨before, after, split⟩ := List.append_of_mem member
    obtain ⟨front, pinged, rfl, whole⟩ := Stage.overdue (split ▸ beats)
    rw [List.append_assoc] at split
    exact absurd (punctual split) (Nat.not_lt.mpr (Nat.le_of_eq whole.symm))
  case heard =>
    intro punctual positive fits now limit member
    obtain ⟨before, after, split⟩ := List.append_of_mem member
    obtain ⟨stage, armed, told, isArmed, inTime, whole⟩ := Stage.silence (split ▸ beats)
    have late : armed + settings.pingInterval + settings.pongTimeout ≤ now := by
      rw [Nat.add_assoc]
      exact Nat.le_trans (Nat.add_le_add_left fits armed) whole
    cases stage with
    | unaccepted | finished => cases isArmed
    | pinging since =>
        cases isArmed
        have early : now < armed + settings.pingInterval + settings.pongTimeout :=
          Nat.lt_of_le_of_lt (inTime rfl) (Nat.lt_add_of_pos_right positive)
        exact absurd late (Nat.not_le.mpr early)
    | awaiting since =>
        cases isArmed
        obtain ⟨front, rfl, -⟩ := told
        rw [List.append_assoc] at split
        exact absurd late (Nat.not_le.mpr (punctual split))

end Told

end Device

end StationRelay
