import StationRelay.Proofs.BrowserTurns
import StationRelay.Proofs.Clock
import StationRelay.Proofs.Language
import StationRelay.Proofs.Outgoing

/-!
# What a missing pong is charged to

A browser session counts the time for a pong from the instant at which it puts
the ping into its outbox.  `Charges` lists what one event does to the keepalive,
and `ping_before_pongTimeout_run` is what follows for whole runs: a session that
is given up enqueued a ping a whole timeout before, and if no ping is held up in
the outbox it had sent one by then.  Behind a send that is slow a ping is held
up, and then the session can be given up for a ping that never went out.
-/

namespace StationRelay

namespace Browser

/-- What can be told of the keepalive of a session from outside. -/
inductive Sign where
  | passed (passage : Passage)
  | heardPong
  | ended (outcome : Outcome)
  deriving DecidableEq

namespace Session

def heard (session : Session) : Event → List Sign
  | .pong => if session.IsOpen then [.heardPong] else []
  | _ => []

def signs (directory : Directory) (now : Instant) (hub : Hub) (session : Session)
    (event : Event) : List Sign :=
  (session.passages directory now hub event).map .passed ++ session.heard event ++
    session.ending .ended (session.step directory now hub event).session

def waiting (session : Session) : List Message :=
  session.sender.outbox.waiting

/-- The session did not end for a missing pong. -/
def Fair (session : Session) : Prop :=
  ∀ limit, session.outcome ≠ some (some (.pongTimeout limit))

end Session

/-! ## What one event does to the keepalive -/

/-- What one event does to the keepalive, with its signs. -/
inductive Charges (now : Instant) (session : Session) : List Sign → Session → Prop where
  /-- Nothing, and a ping in the outbox stays there unless it is sent. -/
  | aside {signs : List Sign} {last : Session} (settings : last.settings = session.settings)
      (keepalive : last.keepalive = session.keepalive)
      (running : last.outcome = none → session.outcome = none) (silent : .heardPong ∉ signs)
      (fair : ∀ limit, .ended (some (.pongTimeout limit)) ∉ signs)
      (waits : last.outcome = none → .ping ∈ session.waiting →
        .ping ∈ last.waiting ∨ .passed (.sent .ping) ∈ signs) :
      Charges now session signs last
  | hears (isOpen : session.IsOpen) :
      Charges now session [.heardPong]
        { session with keepalive := session.keepalive.pongReceived now }
  | pings {signs : List Sign} {last : Session} (settings : last.settings = session.settings)
      (keepalive : last.keepalive = session.keepalive.pingSent now)
      (running : session.outcome = none) (enqueued : .passed (.enqueued .ping) ∈ signs)
      (silent : .heardPong ∉ signs) (fair : ∀ limit, .ended (some (.pongTimeout limit)) ∉ signs)
      (waits : .ping ∈ last.waiting) : Charges now session signs last
  | givesUp {due : Instant} {last : Session} (settings : last.settings = session.settings)
      (keepalive : last.keepalive = session.keepalive) (running : session.outcome = none)
      (ended : last.outcome ≠ none)
      (pending : session.keepalive.pending = some (due, .pongTimeout)) (overdue : due ≤ now) :
      Charges now session [.ended (some (.pongTimeout session.settings.pongTimeout))] last

/-- An act that does not touch the keepalive and takes nothing out of the outbox. -/
structure Progress.Aside (before after : Progress) : Prop where
  settings : after.session.settings = before.session.settings
  keepalive : after.session.keepalive = before.session.keepalive
  outcome : after.session.outcome = before.session.outcome
  waiting : before.session.waiting <+: after.session.waiting

namespace Progress.Aside

variable {first second third : Progress}

theorem refl (progress : Progress) : progress.Aside progress :=
  ⟨rfl, rfl, rfl, List.prefix_refl _⟩

theorem trans (left : first.Aside second) (right : second.Aside third) : first.Aside third :=
  ⟨right.settings.trans left.settings, right.keepalive.trans left.keepalive,
    right.outcome.trans left.outcome, left.waiting.trans right.waiting⟩

theorem enqueue (now : Instant) (progress : Progress) (message : Message) :
    progress.Aside (progress.enqueue now message) := by
  refine ⟨rfl, rfl, rfl, ?_⟩
  change _ <+: (progress.session.sender.enqueue _ message).1.outbox.waiting
  rw [Sender.waiting_enqueue]
  exact List.prefix_append ..

theorem enqueueReplies (now : Instant) (progress : Progress) (replies : List Reply) :
    progress.Aside (progress.enqueueReplies now replies) := by
  induction replies generalizing progress with
  | nil => exact .refl progress
  | cons reply rest ih => exact (enqueue now progress (.reply reply)).trans (ih _)

theorem beginClose (now : Instant) (progress : Progress) (breach : Breach) :
    progress.Aside (progress.beginClose now breach) := by
  have aside := enqueue now
    { progress with session := { progress.session with buffer := [] } } (.close breach)
  exact ⟨rfl, rfl, rfl, aside.waiting⟩

theorem drains {directory : Directory} {now : Instant} {progress last : Progress}
    (drains : Progress.Drains directory now progress last) : progress.Aside last := by
  induction drains with
  | stop => exact .refl _
  | breach => exact .beginClose ..
  | @next progress last handled nonempty called good goesOn ih =>
      have advances : progress.Aside (progress.advance handled) :=
        ⟨rfl, rfl, rfl, List.prefix_refl _⟩
      exact (advances.trans (.enqueueReplies ..)).trans ih

end Progress.Aside

/-- A closing session that ends does so for its breach. -/
theorem Progress.conclude_aside {progress : Progress} (running : progress.session.outcome = none) :
    progress.conclude.session.settings = progress.session.settings ∧
      progress.conclude.session.keepalive = progress.session.keepalive ∧
      progress.conclude.session.waiting = progress.session.waiting ∧
      progress.conclude.session.Fair := by
  have fair : progress.session.Fair := by
    intro limit
    rw [running]
    exact nofun
  unfold conclude
  split
  · rename_i breach _ _
    split
    · refine ⟨rfl, rfl, rfl, fun limit ended => ?_⟩
      cases breach <;> cases ended
    · exact ⟨rfl, rfl, rfl, fair⟩
  · exact ⟨rfl, rfl, rfl, fair⟩

section Step

variable {directory : Directory} {now : Instant} {hub : Hub} {session : Session} {event : Event}

theorem Session.heardPong_not_mem (other : event ≠ .pong) :
    .heardPong ∉ session.signs directory now hub event := by
  have nothing : session.heard event = [] := by
    cases event with
    | pong => exact absurd rfl other
    | _ => rfl
  unfold signs ending
  rw [nothing, List.append_nil]
  split <;> simp

theorem Session.ended_not_mem (fair : (session.step directory now hub event).session.Fair) :
    ∀ limit, .ended (some (.pongTimeout limit)) ∉ session.signs directory now hub event := by
  intro limit member
  rcases List.mem_append.mp member with early | last
  · rcases List.mem_append.mp early with passed | pong
    · obtain ⟨_, _, same⟩ := List.mem_map.mp passed
      cases same
    · unfold heard at pong
      split at pong
      · split at pong <;> simp at pong
      · cases pong
  · unfold ending at last
    split at last
    · simp only [Option.mem_toList, Option.map_eq_some_iff] at last
      obtain ⟨outcome, ended, same⟩ := last
      cases same
      exact fair limit ended
    · cases last

theorem Session.passed_mem {passage : Passage}
    (passed : passage ∈ session.passages directory now hub event) :
    .passed passage ∈ session.signs directory now hub event :=
  List.mem_append_left _ (List.mem_append_left _ (List.mem_map.mpr ⟨_, passed, rfl⟩))

/-- What is known of an act becomes a charge when the session is asked whether it is done. -/
theorem Charges.of_aside {acted : Progress} (other : event ≠ .pong)
    (result : session.step directory now hub event = acted.conclude)
    (aside : (Progress.of hub session).Aside acted) (running : session.outcome = none) :
    Charges now session (session.signs directory now hub event)
      (session.step directory now hub event).session := by
  have goesOn : acted.session.outcome = none := aside.outcome.trans running
  obtain ⟨settings, keepalive, waiting, fair⟩ := Progress.conclude_aside goesOn
  rw [← result] at settings keepalive waiting fair
  refine .aside (settings.trans aside.settings) (keepalive.trans aside.keepalive)
    (fun _ => running) (Session.heardPong_not_mem other) (Session.ended_not_mem fair) ?_
  intro _ pinged
  rw [waiting]
  exact Or.inl (aside.waiting.subset pinged)

/-- A session that ends for another reason than a missing pong. -/
theorem Charges.of_finish {progress : Progress} {outcome : Outcome} (other : event ≠ .pong)
    (result : session.step directory now hub event = progress.finish outcome)
    (settings : progress.session.settings = session.settings)
    (keepalive : progress.session.keepalive = session.keepalive)
    (fair : ∀ limit, outcome ≠ some (.pongTimeout limit)) :
    Charges now session (session.signs directory now hub event)
      (session.step directory now hub event).session := by
  have ended : (session.step directory now hub event).session.outcome = some outcome := by
    rw [result]
    rfl
  refine .aside ?_ ?_ ?_ (Session.heardPong_not_mem other) (Session.ended_not_mem ?_) ?_
  · rw [result]
    exact settings
  · rw [result]
    exact keepalive
  · intro goesOn
    rw [ended] at goesOn
    cases goesOn
  · intro limit same
    rw [ended] at same
    exact fair limit (Option.some.inj same)
  · intro goesOn
    rw [ended] at goesOn
    cases goesOn

theorem Charges.of_still (quiet : session.sent? event = none) (unheard : session.heard event = [])
    (still : session.step directory now hub event = Progress.of hub session) :
    Charges now session (session.signs directory now hub event)
      (session.step directory now hub event).session := by
  have signs : session.signs directory now hub event = [] := by
    rw [Session.signs, Session.passages, still, quiet, unheard]
    exact session.ending_self _
  rw [signs, still]
  exact .aside rfl rfl id List.not_mem_nil (fun _ => List.not_mem_nil) fun _ => Or.inl

theorem charges_pong :
    Charges now session (session.signs directory now hub .pong)
      (session.step directory now hub .pong).session := by
  by_cases isOpen : session.IsOpen
  · have acted : session.step directory now hub .pong =
        (Progress.of hub session).setKeepalive (session.keepalive.pongReceived now) := by
      rw [Session.step_of_message isOpen .pong]
      exact Progress.conclude_of_isOpen isOpen
    have signs : session.signs directory now hub .pong = [.heardPong] := by
      rw [Session.signs, Session.passages, acted, Session.heard, if_pos isOpen,
        Session.ending_of_running isOpen.1]
      change [] ++ [Sign.heardPong] ++ (session.outcome.map Sign.ended).toList = _
      rw [isOpen.1]
      rfl
    rw [signs, acted]
    exact .hears isOpen
  · exact .of_still rfl (if_neg isOpen) (Session.step_of_shut isOpen .pong)

/-- Of the messages in the outbox only the one that is being sent can leave it. -/
theorem mem_waiting_complete {sender : Sender} {message : Message} {due deadline : Instant}
    (inFlight : sender.inFlight = some (message, due))
    (head : sender.inFlight.map Prod.fst = sender.outbox.waiting.head?) {other : Message}
    (waits : other ∈ sender.outbox.waiting) :
    other ∈ (sender.complete deadline).1.outbox.waiting ∨ other = message := by
  have left : (sender.complete deadline).1.outbox.waiting = sender.outbox.waiting.tail := by
    rw [Sender.complete, Sender.outbox_dispatch]
    rfl
  rw [left]
  rw [inFlight] at head
  cases waiting : sender.outbox.waiting with
  | nil =>
      rw [waiting] at waits
      cases waits
  | cons first rest =>
      rw [waiting] at head waits
      cases head
      exact (List.mem_cons.mp waits).symm

theorem charges_ping {deadline : Instant} (isOpen : session.IsOpen)
    (pending : session.keepalive.pending = some (deadline, .ping)) (due : deadline ≤ now) :
    Charges now session (session.signs directory now hub .keepaliveDue)
      (session.step directory now hub .keepaliveDue).session := by
  have result : session.step directory now hub .keepaliveDue =
      ((Progress.of hub session).enqueue now .ping).setKeepalive (session.keepalive.pingSent now) :=
    Session.step_of_ping isOpen pending due
  have enqueued : .enqueued .ping ∈ session.passages directory now hub .keepaliveDue := by
    rw [Session.passages, result]
    exact List.mem_append_left _ List.mem_cons_self
  have fair : (session.step directory now hub .keepaliveDue).session.Fair := by
    intro limit timedOut
    rw [result] at timedOut
    cases isOpen.1.symm.trans timedOut
  have waits : .ping ∈ (session.step directory now hub .keepaliveDue).session.waiting := by
    rw [result]
    change _ ∈ (session.sender.enqueue _ .ping).1.outbox.waiting
    rw [Sender.waiting_enqueue]
    exact List.mem_append_right _ List.mem_cons_self
  exact .pings (by rw [result]; rfl) (by rw [result]; rfl) isOpen.1
    (Session.passed_mem enqueued) (Session.heardPong_not_mem (by rintro ⟨⟩))
    (Session.ended_not_mem fair) waits

theorem charges_noPong {deadline : Instant} (isOpen : session.IsOpen)
    (pending : session.keepalive.pending = some (deadline, .pongTimeout)) (due : deadline ≤ now) :
    Charges now session (session.signs directory now hub .keepaliveDue)
      (session.step directory now hub .keepaliveDue).session := by
  have result : session.step directory now hub .keepaliveDue =
      (Progress.of hub session).finish (some (.pongTimeout session.settings.pongTimeout)) :=
    Session.step_of_ending isOpen (.noPong pending due)
  have signs : session.signs directory now hub .keepaliveDue =
      [.ended (some (.pongTimeout session.settings.pongTimeout))] := by
    rw [Session.signs, Session.passages, result, Session.ending_of_running isOpen.1]
    rfl
  rw [signs, result]
  exact .givesUp rfl rfl isOpen.1 (Option.some_ne_none _) pending due

theorem charges_sent {message : Message} {deadline : Instant} (running : session.outcome = none)
    (inFlight : session.sender.inFlight = some (message, deadline))
    (head : session.sender.inFlight.map Prod.fst = session.waiting.head?) :
    Charges now session (session.signs directory now hub .sent)
      (session.step directory now hub .sent).session := by
  obtain ⟨settings, keepalive, waiting, fair⟩ :=
    @Progress.conclude_aside ((Progress.of hub session).onSent now) running
  rw [← Session.step_of_inFlight running inFlight] at settings keepalive waiting fair
  refine .aside settings keepalive (fun _ => running) (Session.heardPong_not_mem (by rintro ⟨⟩))
    (Session.ended_not_mem fair) ?_
  intro _ pinged
  rw [waiting]
  refine (mem_waiting_complete inFlight head pinged).imp_right ?_
  rintro rfl
  refine Session.passed_mem (List.mem_append_left _ (List.mem_append_left _ ?_))
  rw [Session.sent?, if_pos running, inFlight]
  exact List.mem_cons_self

theorem charges_step (directory : Directory) (now : Instant) (hub : Hub) {session : Session}
    (event : Event) (head : session.outcome = none →
      session.sender.inFlight.map Prod.fst = session.waiting.head?) :
    Charges now session (session.signs directory now hub event)
      (session.step directory now hub event).session := by
  by_cases isPong : event = .pong
  · subst isPong
    exact charges_pong
  have unheard : session.heard event = [] := by
    cases event with
    | pong => exact absurd rfl isPong
    | _ => rfl
  rcases session.step_cases directory now hub event with
    ⟨quiet, still⟩ | ⟨acted, running, acts, result⟩
  · exact .of_still quiet unheard still
  cases acts with
  | idle => exact .of_aside isPong result (.refl _) running
  | hears => exact absurd rfl isPong
  | @feeds bytes last isOpen nonempty drains =>
      have grows : (Progress.of hub session).Aside
          ((Progress.of hub session).extend now bytes) := ⟨rfl, rfl, rfl, List.prefix_refl _⟩
      exact .of_aside isPong result (grows.trans (.drains drains)) running
  | @delivers reading isOpen first =>
      have takes : (Progress.of hub session).Aside
          { Progress.of hub session with
            hub := { hub with browsers := hub.browsers.take session.link } } :=
        ⟨rfl, rfl, rfl, List.prefix_refl _⟩
      exact .of_aside isPong result (takes.trans (.enqueue ..)) running
  | pings isOpen pending due => exact charges_ping isOpen pending due
  | @ends event outcome isOpen ending =>
      have result := result.trans (Progress.conclude_of_ended rfl)
      cases ending with
      | endOfStream | fault | slowRequest =>
          refine .of_finish isPong result rfl rfl ?_
          rintro limit ⟨⟩
      | noPong pending due => exact charges_noPong isOpen pending due
  | sends inFlight => exact charges_sent running inFlight (head running)
  | @fails event message deadline error inFlight failure =>
      have result := result.trans (Progress.conclude_of_ended rfl)
      refine .of_finish isPong result rfl rfl ?_
      cases failure <;> rintro limit ⟨⟩

end Step

/-! ## Histories -/

/-- In this history the sign came at this instant, and no pong was heard behind it. -/
def Since (log : List (Instant × Sign)) (since : Instant) (sign : Sign) : Prop :=
  ∃ before after, log = before ++ (since, sign) :: after ∧
    ∀ entry ∈ after, entry.2 ≠ .heardPong

/-- Whenever a session is given up, such a sign came a whole timeout before, and no pong was heard
behind it. -/
def Accounted (settings : Settings) (sign : Sign) (log : List (Instant × Sign)) : Prop :=
  ∀ (before after : List (Instant × Sign)) (now : Instant) (limit : Duration),
    log = before ++ (now, .ended (some (.pongTimeout limit))) :: after →
      ∃ since, since + settings.pongTimeout ≤ now ∧ Since before since sign

section Histories

variable {settings : Settings} {log : List (Instant × Sign)} {signs : List Sign} {sign : Sign}
  {now since : Instant}

theorem not_heardPong_of_mem_map (silent : .heardPong ∉ signs) :
    ∀ entry ∈ signs.map (now, ·), entry.2 ≠ .heardPong := by
  rintro entry member same
  obtain ⟨sign, there, rfl⟩ := List.mem_map.mp member
  exact silent (same ▸ there)

theorem Since.append (isSince : Since log since sign) (silent : .heardPong ∉ signs) :
    Since (log ++ signs.map (now, ·)) since sign := by
  obtain ⟨before, after, rfl, quiet⟩ := isSince
  refine ⟨before, after ++ signs.map (now, ·), by rw [List.append_assoc, List.cons_append], ?_⟩
  intro entry member
  exact (List.mem_append.mp member).elim (quiet entry) (not_heardPong_of_mem_map silent entry)

theorem Since.of_mem (member : sign ∈ signs) (silent : .heardPong ∉ signs) :
    Since (log ++ signs.map (now, ·)) now sign := by
  obtain ⟨first, second, rfl⟩ := List.append_of_mem member
  refine ⟨log ++ first.map (now, ·), second.map (now, ·), by simp, ?_⟩
  exact not_heardPong_of_mem_map fun later =>
    silent (List.mem_append_right _ (List.mem_cons_of_mem _ later))

theorem Accounted.nil : Accounted settings sign [] := by
  intro before after now limit split
  cases before <;> cases split

theorem Accounted.append (accounted : Accounted settings sign log)
    (fair : ∀ limit, .ended (some (.pongTimeout limit)) ∉ signs) :
    Accounted settings sign (log ++ signs.map (now, ·)) := by
  intro before after instant limit split
  have free : (instant, .ended (some (.pongTimeout limit))) ∉ signs.map (now, ·) := by
    intro member
    obtain ⟨other, there, same⟩ := List.mem_map.mp member
    cases same
    exact fair limit there
  obtain ⟨rest, front, -⟩ := Device.split_first free split
  exact accounted before rest instant limit front

theorem Accounted.concat {limit : Duration} (accounted : Accounted settings sign log)
    (whole : since + settings.pongTimeout ≤ now) (isSince : Since log since sign) :
    Accounted settings sign (log ++ [(now, .ended (some (.pongTimeout limit)))]) := by
  intro before after instant other split
  rcases List.eq_nil_or_concat after with rfl | ⟨rest, last, rfl⟩
  · obtain ⟨front, final⟩ := List.append_inj' split rfl
    cases final
    exact ⟨since, whole, front ▸ isSince⟩
  · rw [List.concat_eq_append, ← List.cons_append, ← List.append_assoc] at split
    exact accounted before rest instant other (List.append_inj_left' split rfl)

end Histories

/-! ## The invariant -/

/-- The ping that a session waits to be answered, by its signs. -/
abbrev enqueuedPing : Sign := .passed (.enqueued .ping)

abbrev sentPing : Sign := .passed (.sent .ping)

/-- What holds of a session and its signs between two events.  If pings are prompt, the ping that
is not answered is sent, or was enqueued just now. -/
structure Charging (prompt : Prop) (settings : Settings) (clock : Instant) (session : Session)
    (log : List (Instant × Sign)) : Prop where
  own : session.settings = settings
  timeout : session.keepalive.pongTimeout = settings.pongTimeout
  enqueued : Accounted settings enqueuedPing log
  sent : prompt → Accounted settings sentPing log
  owes : session.outcome = none → ∀ {due}, session.keepalive.pending = some (due, .pongTimeout) →
    ∃ since, due = since + settings.pongTimeout ∧ Since log since enqueuedPing ∧
      (prompt → clock = since ∧ .ping ∈ session.waiting ∨ Since log since sentPing)

section Charging

variable {prompt : Prop} {settings : Settings} {clock : Instant} {session last : Session}
  {log : List (Instant × Sign)}

/-- Every event keeps the account; a timeout that takes no time would be over at once. -/
theorem Charging.step {signs : List Sign} (charging : Charging prompt settings clock session log)
    (positive : prompt → 0 < settings.pongTimeout) (charges : Charges clock session signs last) :
    Charging prompt settings clock last (log ++ signs.map (clock, ·)) := by
  obtain ⟨own, timeout, enqueued, sent, owes⟩ := charging
  cases charges with
  | aside sameSettings keepalive running silent fair waits =>
      refine ⟨sameSettings.trans own, keepalive ▸ timeout, enqueued.append fair,
        fun isPrompt => (sent isPrompt).append fair, ?_⟩
      intro goesOn due pending
      obtain ⟨since, whole, begun, out⟩ := owes (running goesOn) (keepalive ▸ pending)
      refine ⟨since, whole, begun.append silent, fun isPrompt => ?_⟩
      rcases out isPrompt with ⟨rfl, pinged⟩ | isSent
      · exact (waits goesOn pinged).imp (⟨rfl, ·⟩) (Since.of_mem · silent)
      · exact Or.inr (isSent.append silent)
  | hears isOpen =>
      have fair : ∀ limit, Sign.ended (some (.pongTimeout limit)) ∉ [Sign.heardPong] := by
        intro limit
        simp
      refine ⟨own, ?_, enqueued.append fair, fun isPrompt => (sent isPrompt).append fair, ?_⟩
      · change (session.keepalive.pongReceived clock).pongTimeout = _
        unfold Keepalive.pongReceived
        split <;> exact timeout
      · intro goesOn due pending
        change (session.keepalive.pongReceived clock).pending = _ at pending
        unfold Keepalive.pongReceived at pending
        split at pending
        · cases pending
        · rename_i notOwed
          exact absurd pending (notOwed due)
  | pings sameSettings keepalive running begun silent fair waits =>
      refine ⟨sameSettings.trans own, ?_, enqueued.append fair,
        fun isPrompt => (sent isPrompt).append fair, ?_⟩
      · rw [keepalive]
        exact timeout
      · intro goesOn due pending
        rw [keepalive, Keepalive.pingSent, timeout] at pending
        cases pending
        exact ⟨clock, rfl, .of_mem begun silent, fun _ => Or.inl ⟨rfl, waits⟩⟩
  | givesUp sameSettings keepalive running ended pending overdue =>
      obtain ⟨since, rfl, begun, out⟩ := owes running pending
      refine ⟨sameSettings.trans own, keepalive ▸ timeout, enqueued.concat overdue begun, ?_,
        fun goesOn => absurd goesOn ended⟩
      intro isPrompt
      rcases out isPrompt with ⟨rfl, -⟩ | isSent
      · exact absurd overdue (Nat.not_le.mpr (Nat.lt_add_of_pos_right (positive isPrompt)))
      · exact (sent isPrompt).concat overdue isSent

/-- Time passes, while no ping waits if pings are prompt. -/
theorem Charging.passes {now : Instant} (charging : Charging prompt settings clock session log)
    (gone : prompt → session.outcome = none → .ping ∉ session.waiting) :
    Charging prompt settings now session log := by
  obtain ⟨own, timeout, enqueued, sent, owes⟩ := charging
  refine ⟨own, timeout, enqueued, sent, ?_⟩
  intro goesOn due pending
  obtain ⟨since, whole, begun, out⟩ := owes goesOn pending
  refine ⟨since, whole, begun, fun isPrompt => ?_⟩
  rcases out isPrompt with ⟨-, pinged⟩ | isSent
  · exact absurd pinged (gone isPrompt goesOn)
  · exact Or.inr isSent

/-- A session that begins waits for no pong. -/
theorem Charging.start (now : Instant) (hub : Hub) (name : Uuid) (flag : TransportFlag) :
    Charging prompt settings clock (Session.start settings now hub name flag).2 [] := by
  simp only [Session.start]
  split
  · refine ⟨rfl, rfl, .nil, fun _ => .nil, ?_⟩
    rintro _ _ ⟨⟩
  · refine ⟨rfl, rfl, .nil, fun _ => .nil, ?_⟩
    rintro _ _ ⟨⟩

end Charging

end Browser

/-! ## Every session of every run -/

namespace Switchboard

open Browser

def signsOf (index : Nat) (board : Switchboard) : Move → List Sign :=
  ofBrowser Session.signs index board

/-- No ping of this browser session is held up: none waits to be sent. -/
def Prompt (index : Nat) (board : Switchboard) : Prop :=
  ∀ session ∈ board.browsers[index]?, session.outcome = none → .ping ∉ session.waiting

instance (index : Nat) (board : Switchboard) : Decidable (Prompt index board) :=
  inferInstanceAs (Decidable (∀ session ∈ board.browsers[index]?,
    session.outcome = none → .ping ∉ session.waiting))

structure Ledger (index : Nat) (prompt : Prop) (settings : Settings) (board : Switchboard)
    (clock : Instant) (log : List (Instant × Sign)) : Prop where
  own : board.settings = settings
  attending : ∃ passages, Attending index board passages
  watched : Watched (Charging prompt settings clock) board.browsers[index]? log

section Ledger

variable {index : Nat} {prompt : Prop} {settings : Settings} {board : Switchboard}
  {clock : Instant} {log : List (Instant × Sign)}

theorem accounted_of_watched {session? : Option Session}
    (watched : Watched (Charging prompt settings clock) session? log) :
    Accounted settings enqueuedPing log ∧ (prompt → Accounted settings sentPing log) := by
  cases watched with
  | nobody => exact ⟨.nil, fun _ => .nil⟩
  | somebody charging => exact ⟨charging.enqueued, charging.sent⟩

theorem Attending.head {passages : List Passage} (attending : Attending index board passages)
    {session : Session} (found : board.browsers[index]? = some session)
    (running : session.outcome = none) :
    session.sender.inFlight.map Prod.fst = session.waiting.head? := by
  rw [Attending, found] at attending
  cases attending.holds with
  | running goesOn => exact goesOn.sending.head_eq
  | ended ended => cases running.symm.trans ended

theorem Ledger.passes {now : Instant} (ledger : Ledger index prompt settings board clock log)
    (gone : prompt → Prompt index board) : Ledger index prompt settings board now log :=
  ⟨ledger.own, ledger.attending, ledger.watched.mono fun session found charging =>
    charging.passes fun isPrompt => gone isPrompt session found⟩

theorem Ledger.step (positive : prompt → 0 < settings.pongTimeout) (move : Move)
    (ledger : Ledger index prompt settings board move.instant log) :
    Ledger index prompt settings (board.step move) move.instant
      (log ++ stamped (signsOf index) board move) := by
  obtain ⟨own, ⟨passages, attending⟩, watched⟩ := ledger
  refine ⟨(settings_step board move).trans own, ⟨_, attending.step move⟩, ?_⟩
  have fate := browserFate_step Session.signs index board move
  unfold stamped signsOf
  generalize found : board.browsers[index]? = before, (board.step move).browsers[index]? = after,
    ofBrowser Session.signs index board move = shown at fate watched ⊢
  cases fate with
  | acts session now event =>
      exact .somebody (watched.holds.step positive
        (charges_step board.directory now board.hub event (attending.head found)))
  | stays | nobody =>
      rw [List.map_nil, List.append_nil]
      exact watched
  | begins now name flag =>
      cases watched
      rw [own]
      exact .somebody (.start ..)

end Ledger

/-- In every run by the clock a browser session that is given up enqueued a ping a whole timeout
before, and heard no pong since.  If no time passes while a ping waits to be sent, and the timeout
takes time at all, it had sent one by then, and heard no pong since. -/
theorem ping_before_pongTimeout_run (directory : Directory) (settings : Settings)
    {lets : Switchboard → Instant → Prop} {begins ends : Instant} {moves : List Move}
    (paced : Paced lets (start directory settings) begins moves ends) (index : Nat) :
    let log := (start directory settings).trace (stamped (signsOf index)) moves
    Accounted settings enqueuedPing log ∧
      ((∀ board now, lets board now → Prompt index board) → 0 < settings.pongTimeout →
        Accounted settings sentPing log) := by
  intro log
  let prompt : Prop :=
    (∀ board now, lets board now → Prompt index board) ∧ 0 < settings.pongTimeout
  have begun : Ledger index prompt settings (start directory settings) begins [] :=
    ⟨rfl, ⟨[], .nobody⟩, .nobody⟩
  have ledger : Ledger index prompt settings ((start directory settings).run moves) ends log :=
    @Paced.induction lets Sign (signsOf index) (Ledger index prompt settings)
      (fun _ allowed ledger => ledger.passes fun isPrompt => isPrompt.1 _ _ allowed)
      (fun move ledger => ledger.step And.right move) _ _ _ [] moves paced begun
  obtain ⟨enqueued, sent⟩ := accounted_of_watched ledger.watched
  exact ⟨enqueued, fun gone positive => sent ⟨gone, positive⟩⟩

/-- A ping goes out at once, and no pong comes. -/
theorem ping_before_pongTimeout_run_sent :
    let directory : Directory := ⟨fun _ => true, Station.defaultName⟩
    let name : Uuid := ⟨List.replicate 16 0x40, rfl⟩
    let moves : List Move :=
      [.connectBrowser 0 name .plain, .browser 0 10000 .keepaliveDue, .browser 0 10000 .sent,
        .browser 0 20000 .keepaliveDue]
    let log := (start directory {}).trace (stamped (signsOf 0)) moves
    Paced (fun board _ => Prompt 0 board) (start directory {}) 0 moves 20000 ∧
      Accounted {} enqueuedPing log ∧ Accounted {} sentPing log ∧
      log = [(10000, enqueuedPing), (10000, .passed (.handed .ping)), (10000, sentPing),
        (20000, .ended (some (.pongTimeout 10000)))] := by
  intro directory name moves log
  have paced : Paced (fun board _ => Prompt 0 board) (start directory {}) 0 moves 20000 := by
    decide +kernel
  obtain ⟨enqueued, sent⟩ := ping_before_pongTimeout_run directory {} paced 0
  exact ⟨paced, enqueued, sent (fun _ _ => id) (by decide), by decide +kernel⟩

/-- A ping is held up by a slow sink: the session is given up though no ping was sent, long before
the send is overdue. -/
theorem not_accounted_held_up :
    let directory : Directory := ⟨fun _ => true, Station.defaultName⟩
    let name : Uuid := ⟨List.replicate 16 0x40, rfl⟩
    let moves : List Move :=
      [.connectBrowser 0 name .plain, .browser 0 10000 .keepaliveDue,
        .browser 0 20000 .keepaliveDue]
    let log := (start directory {}).trace (stamped (signsOf 0)) moves
    Paced (fun _ _ => True) (start directory {}) 0 moves 20000 ∧
      log = [(10000, enqueuedPing), (10000, .passed (.handed .ping)),
        (20000, .ended (some (.pongTimeout 10000)))] ∧ ¬ Accounted {} sentPing log := by
  intro directory name moves log
  have shown : log = [(10000, enqueuedPing), (10000, .passed (.handed .ping)),
      (20000, .ended (some (.pongTimeout 10000)))] := by decide +kernel
  refine ⟨by decide +kernel, shown, fun accounted => ?_⟩
  obtain ⟨since, -, before, after, split, -⟩ :=
    accounted [(10000, enqueuedPing), (10000, .passed (.handed .ping))] [] 20000 10000 shown
  have member : (since, sentPing) ∈
      [((10000 : Instant), enqueuedPing), (10000, Sign.passed (.handed .ping))] :=
    split ▸ List.mem_append_right _ List.mem_cons_self
  simp at member

end Switchboard

end StationRelay
