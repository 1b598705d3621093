import StationRelay.Proofs.BrowserSteps
import StationRelay.Proofs.Switchboard

/-!
# What a browser is sent

A message passes through a session in three stages: it is enqueued, handed to
the sink, and sent.  `Sending` is the invariant of the sending side, `Running`
adds what is known of a session that closes itself, and `Disciplined` covers
the sessions that have ended.  `Dispatched` is what follows for every session
of every run.
-/

namespace StationRelay

namespace Browser

/-! ## The sending side -/

namespace Sender

variable {sender : Sender}

theorem enqueue_of_alone (alone : sender.outbox.waiting = []) (deadline : Instant)
    (message : Message) :
    sender.enqueue deadline message = { sender with outbox := ⟨[message]⟩ }.dispatch deadline := by
  simp [Sender.enqueue, Outbox.push, alone]

theorem enqueue_of_behind (behind : sender.outbox.waiting ≠ []) (deadline : Instant)
    (message : Message) :
    sender.enqueue deadline message =
      ({ sender with outbox := ⟨sender.outbox.waiting ++ [message]⟩ }, none) := by
  simp [Sender.enqueue, Outbox.push, behind]

end Sender

/-- The sending side after these messages were sent, enqueued and handed to the sink. -/
structure Sending (sent enqueued handed : List Message) (sender : Sender) : Prop where
  enqueued_eq : enqueued = sent ++ sender.outbox.waiting
  handed_eq : handed = sent ++ (sender.inFlight.map Prod.fst).toList
  head_eq : sender.inFlight.map Prod.fst = sender.outbox.waiting.head?
  sink_iff : sender.holdsSink = true ↔ sender.inFlight = none

namespace Sending

variable {sent enqueued handed : List Message} {sender : Sender}

theorem idle : Sending [] [] [] Sender.idle :=
  ⟨rfl, rfl, rfl, by decide⟩

theorem handed_prefix_enqueued (sending : Sending sent enqueued handed sender) :
    handed <+: enqueued := by
  rw [sending.handed_eq, sending.enqueued_eq, sending.head_eq]
  refine (List.prefix_append_right_inj sent).mpr ?_
  cases sender.outbox.waiting with
  | nil => exact List.prefix_refl []
  | cons message rest => exact ⟨rest, rfl⟩

theorem sent_prefix_handed (sending : Sending sent enqueued handed sender) : sent <+: handed := by
  rw [sending.handed_eq]
  exact List.prefix_append sent _

theorem inFlight_iff (sending : Sending sent enqueued handed sender) :
    sender.inFlight.isSome = true ↔ sender.outbox.waiting ≠ [] := by
  have same := congrArg Option.isSome sending.head_eq
  rw [Option.isSome_map] at same
  rw [same]
  cases sender.outbox.waiting <;> simp

theorem dispatch (deadline : Instant) (enqueued_eq : enqueued = sent ++ sender.outbox.waiting)
    (handed_eq : handed = sent) (free : sender.inFlight = none) (sink : sender.holdsSink = true) :
    Sending sent enqueued (handed ++ (sender.dispatch deadline).2.toList)
      (sender.dispatch deadline).1 := by
  subst handed_eq
  have none : ¬ sender.inFlight.isSome = true := by simp [free]
  rw [Sender.dispatch, if_neg none]
  cases waiting : sender.outbox.waiting with
  | nil =>
      simp only [Outbox.head?, waiting, List.head?_nil]
      exact ⟨enqueued_eq, by simp [free], by simp [free, waiting], by simp [free, sink]⟩
  | cons message rest =>
      simp only [Outbox.head?, waiting, List.head?_cons, if_pos sink]
      exact ⟨enqueued_eq, rfl, by simp [waiting], by simp⟩

theorem enqueue (sending : Sending sent enqueued handed sender) (deadline : Instant)
    (message : Message) :
    Sending sent (enqueued ++ [message]) (handed ++ (sender.enqueue deadline message).2.toList)
      (sender.enqueue deadline message).1 := by
  obtain ⟨enqueued_eq, handed_eq, head_eq, sink_iff⟩ := sending
  by_cases alone : sender.outbox.waiting = []
  · rw [Sender.enqueue_of_alone alone]
    rw [alone] at enqueued_eq head_eq
    have free : sender.inFlight = none := Option.map_eq_none_iff.mp head_eq
    refine Sending.dispatch deadline ?_ ?_ free (sink_iff.mpr free)
    · rw [enqueued_eq, List.append_nil]
    · rw [handed_eq, free]
      exact List.append_nil sent
  · rw [Sender.enqueue_of_behind alone]
    refine ⟨?_, ?_, ?_, sink_iff⟩
    · rw [enqueued_eq, List.append_assoc]
    · rw [handed_eq]
      exact List.append_nil _
    · rw [head_eq]
      obtain ⟨first, rest, front⟩ := List.exists_cons_of_ne_nil alone
      rw [front]
      rfl

theorem complete (sending : Sending sent enqueued handed sender) {message : Message}
    {due : Instant} (inFlight : sender.inFlight = some (message, due)) (deadline : Instant) :
    Sending (sent ++ [message]) enqueued (handed ++ (sender.complete deadline).2.toList)
      (sender.complete deadline).1 := by
  obtain ⟨enqueued_eq, handed_eq, head_eq, sink_iff⟩ := sending
  rw [inFlight] at handed_eq head_eq
  refine Sending.dispatch deadline ?_ handed_eq rfl rfl
  cases waiting : sender.outbox.waiting with
  | nil =>
      rw [waiting] at head_eq
      cases head_eq
  | cons first rest =>
      rw [waiting] at head_eq enqueued_eq
      cases head_eq
      rw [enqueued_eq, List.append_assoc]
      simp [Outbox.complete, waiting]

end Sending

/-! ## Sessions that close themselves -/

/-- The closing message is the last one: there is none, or it ends the list. -/
inductive Closing (enqueued : List Message) : Option Breach → Prop where
  | unclosed (noClose : ∀ breach, .close breach ∉ enqueued) : Closing enqueued none
  | closes {before : List Message} {breach : Breach} (last : enqueued = before ++ [.close breach])
      (noClose : ∀ other, .close other ∉ before) : Closing enqueued (some breach)

theorem Closing.last {enqueued before after : List Message} {closing : Option Breach}
    {breach : Breach} (isClosing : Closing enqueued closing)
    (split : enqueued = before ++ .close breach :: after) : after = [] := by
  cases isClosing with
  | unclosed noClose =>
      refine absurd ?_ (noClose breach)
      rw [split]
      exact List.mem_append_right _ (List.mem_cons_self ..)
  | closes last noClose =>
      rcases List.eq_nil_or_concat after with empty | ⟨rest, final, rfl⟩
      · exact empty
      · rw [last, List.concat_eq_append, ← List.cons_append, ← List.append_assoc] at split
        have front := List.append_inj_left' split rfl
        refine absurd ?_ (noClose breach)
        rw [front]
        exact List.mem_append_right _ (List.mem_cons_self ..)

theorem Closing.exists_before {enqueued : List Message} {breach : Breach}
    (closing : Closing enqueued (some breach)) :
    ∃ before, enqueued = before ++ [.close breach] := by
  cases closing with
  | closes last noClose => exact ⟨_, last⟩

/-- The errors with which a session ends after closing itself. -/
inductive OfBreach : SessionError → Prop where
  | badRequest : OfBreach .badRequest
  | payloadTooBig (limit : Nat) : OfBreach (.payloadTooBig limit)

/-- A session that has not ended, after these messages were sent, enqueued and handed over. -/
structure Running (sent enqueued handed : List Message) (session : Session) : Prop where
  running : session.outcome = none
  sending : Sending sent enqueued handed session.sender
  closing : Closing enqueued session.closing

/-- A session after these messages were sent, enqueued and handed over. -/
inductive Disciplined (sent enqueued handed : List Message) (session : Session) : Prop where
  | running (running : Running sent enqueued handed session) :
      Disciplined sent enqueued handed session
  | ended {outcome : Outcome} (ended : session.outcome = some outcome)
      (sent_prefix_handed : sent <+: handed) (handed_prefix_enqueued : handed <+: enqueued)
      (closing : Closing enqueued session.closing)
      (allSent : ∀ error, outcome = some error → OfBreach error → sent = enqueued ∧
        ∃ breach, session.closing = some breach ∧ error = breach.error session.settings) :
      Disciplined sent enqueued handed session

namespace Running

variable {sent enqueued handed : List Message} {progress last : Progress} {now : Instant}

/-- The messages that a step has put out so far come behind those of the steps before. -/
abbrev During (sent enqueued handed : List Message) (progress : Progress) : Prop :=
  Running sent (enqueued ++ progress.enqueued) (handed ++ progress.handed) progress.session

theorem enqueue (running : During sent enqueued handed progress) (now : Instant)
    {message : Message} (isOpen : progress.session.closing = none)
    (notClose : ∀ breach, message ≠ .close breach) :
    During sent enqueued handed (progress.enqueue now message) := by
  obtain ⟨running, sending, closing⟩ := running
  have sends := sending.enqueue (progress.session.sendDeadline now) message
  refine ⟨running, ?_, ?_⟩
  · rw [List.append_assoc, List.append_assoc] at sends
    exact sends
  · change Closing (enqueued ++ (progress.enqueued ++ [message])) progress.session.closing
    rw [isOpen] at closing ⊢
    cases closing with
    | unclosed noClose =>
        refine .unclosed ?_
        intro breach member
        rw [← List.append_assoc] at member
        rcases List.mem_append.mp member with old | new
        · exact noClose breach old
        · exact notClose breach (List.mem_singleton.mp new).symm

theorem enqueueReplies (running : During sent enqueued handed progress) (now : Instant)
    (isOpen : progress.session.closing = none) (replies : List Reply) :
    During sent enqueued handed (progress.enqueueReplies now replies) ∧
      (progress.enqueueReplies now replies).session.closing = none := by
  induction replies generalizing progress with
  | nil => exact ⟨running, isOpen⟩
  | cons reply rest ih => exact ih (running.enqueue now isOpen fun _ => nofun) isOpen

theorem beginClose (running : During sent enqueued handed progress) (now : Instant)
    (isOpen : progress.session.closing = none) (breach : Breach) :
    During sent enqueued handed (progress.beginClose now breach) := by
  obtain ⟨running, sending, closing⟩ := running
  have sends := sending.enqueue (progress.session.sendDeadline now) (.close breach)
  rw [isOpen] at closing
  cases closing with
  | unclosed noClose =>
      refine ⟨running, ?_, .closes (List.append_assoc ..).symm noClose⟩
      rw [List.append_assoc, List.append_assoc] at sends
      exact sends

theorem drains {directory : Directory} (drains : Progress.Drains directory now progress last)
    (running : During sent enqueued handed progress) (isOpen : progress.session.closing = none) :
    During sent enqueued handed last := by
  induction drains with
  | stop => exact running
  | @breach progress breach nonempty verdict => exact running.beginClose now isOpen breach
  | @next progress last handled nonempty called good goesOn ih =>
      have advanced : During sent enqueued handed (progress.advance handled) :=
        ⟨running.running, running.sending, running.closing⟩
      obtain ⟨replied, stillOpen⟩ := advanced.enqueueReplies now isOpen handled.engine.replies
      exact ih replied stillOpen

theorem finish (running : During sent enqueued handed progress) {outcome : Outcome}
    (ordinary : ∀ error, outcome = some error → ¬ OfBreach error) :
    Disciplined sent (enqueued ++ (progress.finish outcome).enqueued)
      (handed ++ (progress.finish outcome).handed) (progress.finish outcome).session :=
  .ended rfl running.sending.sent_prefix_handed running.sending.handed_prefix_enqueued
    running.closing fun error isError ofBreach => absurd ofBreach (ordinary error isError)

/-- A session that closes itself ends once everything is out. -/
theorem conclude (running : During sent enqueued handed progress) :
    Disciplined sent (enqueued ++ progress.conclude.enqueued)
      (handed ++ progress.conclude.handed) progress.conclude.session := by
  unfold Progress.conclude
  rw [running.running]
  cases closing : progress.session.closing with
  | none => exact .running running
  | some breach =>
      dsimp only
      by_cases empty : progress.session.sender.outbox.isEmpty = true
      · rw [if_pos empty]
        have nothing : progress.session.sender.outbox.waiting = [] := List.isEmpty_iff.mp empty
        have all := running.sending.enqueued_eq
        rw [nothing, List.append_nil] at all
        refine .ended rfl running.sending.sent_prefix_handed running.sending.handed_prefix_enqueued
          running.closing ?_
        intro error isError _
        cases isError
        exact ⟨all.symm, breach, closing, rfl⟩
      · rw [if_neg empty]
        exact .running running

end Running

theorem Session.Ending.ordinary {session : Session} {now : Instant} {event : Event}
    {outcome : Outcome} (ending : session.Ending now event outcome) :
    ∀ error, outcome = some error → ¬ OfBreach error := by
  intro error isError ofBreach
  cases ending <;> cases isError <;> cases ofBreach

theorem Session.Failure.ordinary {session : Session} {now deadline : Instant} {event : Event}
    {error : SessionError} (failure : session.Failure now deadline event error) :
    ¬ OfBreach error := by
  intro ofBreach
  cases failure <;> cases ofBreach

theorem Progress.conclude_of_ended {progress : Progress} {outcome : Outcome}
    (ended : progress.session.outcome = some outcome) : progress.conclude = progress := by
  rw [Progress.conclude, ended]

section Steps

variable {sent enqueued handed : List Message}

theorem Disciplined.of_quiet {session after : Session} {event : Event}
    (disciplined : Disciplined sent enqueued handed after) (quiet : session.sent? event = none) :
    Disciplined (sent ++ (session.sent? event).toList) enqueued handed after := by
  rw [quiet, Option.toList_none, List.append_nil]
  exact disciplined

theorem Running.acts {directory : Directory} {now : Instant} {progress acted : Progress}
    {event : Event} (running : Running.During sent enqueued handed progress)
    (acts : Session.Acts directory now progress event acted) :
    Disciplined (sent ++ (progress.session.sent? event).toList)
      (enqueued ++ acted.conclude.enqueued) (handed ++ acted.conclude.handed)
      acted.conclude.session := by
  obtain ⟨notEnded, sending, closing⟩ := running
  cases acts with
  | idle quiet => exact .of_quiet (conclude ⟨notEnded, sending, closing⟩) quiet
  | feeds isOpen nonempty goesOn =>
      exact .of_quiet (drains goesOn ⟨notEnded, sending, closing⟩ isOpen.2).conclude rfl
  | hears isOpen => exact .of_quiet (conclude ⟨notEnded, sending, closing⟩) rfl
  | @delivers reading isOpen first =>
      have begins : Running.During sent enqueued handed
          { progress with hub := { progress.hub with
              browsers := progress.hub.browsers.take progress.session.link } } :=
        ⟨notEnded, sending, closing⟩
      have delivered := begins.enqueue now isOpen.2
        (show ∀ breach, Message.reply (.reading reading) ≠ .close breach from fun _ => nofun)
      exact .of_quiet delivered.conclude rfl
  | pings isOpen pending due =>
      have begins : Running.During sent enqueued handed progress := ⟨notEnded, sending, closing⟩
      have notClose : ∀ breach, Message.ping ≠ .close breach := by
        intro breach
        exact nofun
      obtain ⟨notEnded, sending, closing⟩ := begins.enqueue now isOpen.2 notClose
      exact .of_quiet (conclude ⟨notEnded, sending, closing⟩) rfl
  | ends isOpen ending =>
      have quiet : progress.session.sent? event = none := by cases ending <;> rfl
      rw [Progress.conclude_of_ended rfl]
      exact .of_quiet (finish ⟨notEnded, sending, closing⟩ ending.ordinary) quiet
  | @sends message deadline inFlight =>
      have sends := sending.complete inFlight (progress.session.sendDeadline now)
      have sentNow : progress.session.sent? .sent = some message := by
        rw [Session.sent?, if_pos notEnded, inFlight]
        rfl
      rw [List.append_assoc] at sends
      rw [sentNow, Option.toList_some]
      exact conclude ⟨notEnded, sends, closing⟩
  | @fails event message deadline error inFlight failure =>
      have quiet : progress.session.sent? event = none := by cases failure <;> rfl
      rw [Progress.conclude_of_ended rfl]
      refine .of_quiet (.ended rfl sending.sent_prefix_handed sending.handed_prefix_enqueued
        closing ?_) quiet
      intro other isError ofBreach
      cases isError
      exact absurd ofBreach failure.ordinary

theorem Disciplined.step {session : Session}
    (disciplined : Disciplined sent enqueued handed session) (directory : Directory)
    (now : Instant) (hub : Hub) (event : Event) :
    Disciplined (sent ++ (session.sent? event).toList)
      (enqueued ++ (session.step directory now hub event).enqueued)
      (handed ++ (session.step directory now hub event).handed)
      (session.step directory now hub event).session := by
  rcases session.step_cases directory now hub event with
    ⟨quiet, same⟩ | ⟨acted, running, acts, result⟩
  · rw [same]
    simp only [Progress.of, List.append_nil]
    exact disciplined.of_quiet quiet
  · rw [result]
    cases disciplined with
    | running holds =>
        have begins : Running.During sent enqueued handed (Progress.of hub session) := by
          simp only [Progress.of, Running.During, List.append_nil]
          exact holds
        exact begins.acts acts
    | ended ended =>
        rw [running] at ended
        cases ended

end Steps

/-! ## What passes through a session -/

/-- A message reaches one of its stages. -/
inductive Passage where
  | enqueued (message : Message)
  | handed (message : Message)
  | sent (message : Message)
  deriving DecidableEq

/-- What an event lets pass; the order within each stage is the order in which it happens. -/
def Session.passages (directory : Directory) (now : Instant) (hub : Hub) (session : Session)
    (event : Event) : List Passage :=
  let progress := session.step directory now hub event
  (session.sent? event).toList.map .sent ++ progress.enqueued.map .enqueued ++
    progress.handed.map .handed

namespace Passage

def enqueued? : Passage → Option Message
  | .enqueued message => some message
  | _ => none

def handed? : Passage → Option Message
  | .handed message => some message
  | _ => none

def sent? : Passage → Option Message
  | .sent message => some message
  | _ => none

end Passage

def enqueuedIn (log : List Passage) : List Message :=
  log.filterMap Passage.enqueued?

def handedIn (log : List Passage) : List Message :=
  log.filterMap Passage.handed?

def sentIn (log : List Passage) : List Message :=
  log.filterMap Passage.sent?

section Passages

variable (log : List Passage) (directory : Directory) (now : Instant) (hub : Hub)
  (session : Session) (event : Event)

theorem filterMap_none (messages : List Message) :
    messages.filterMap (fun _ => (none : Option Message)) = [] :=
  List.filterMap_eq_nil_iff.mpr fun _ _ => rfl

theorem enqueuedIn_append :
    enqueuedIn (log ++ session.passages directory now hub event) =
      enqueuedIn log ++ (session.step directory now hub event).enqueued := by
  simp only [enqueuedIn, Session.passages, List.filterMap_append, List.filterMap_map,
    Function.comp_def, Passage.enqueued?, filterMap_none, List.filterMap_some, List.nil_append,
    List.append_nil]

theorem handedIn_append :
    handedIn (log ++ session.passages directory now hub event) =
      handedIn log ++ (session.step directory now hub event).handed := by
  simp only [handedIn, Session.passages, List.filterMap_append, List.filterMap_map,
    Function.comp_def, Passage.handed?, filterMap_none, List.filterMap_some, List.nil_append,
    List.append_nil]

theorem sentIn_append :
    sentIn (log ++ session.passages directory now hub event) =
      sentIn log ++ (session.sent? event).toList := by
  simp only [sentIn, Session.passages, List.filterMap_append, List.filterMap_map,
    Function.comp_def, Passage.sent?, filterMap_none, List.filterMap_some, List.append_nil]

end Passages

/-- A session has sent nothing when it begins, whether its name is taken or not. -/
theorem Disciplined.start (settings : Settings) (now : Instant) (hub : Hub) (name : Uuid)
    (flag : TransportFlag) :
    Disciplined [] [] [] (Session.start settings now hub name flag).2 := by
  have unclosed : Closing [] none := .unclosed fun _ => nofun
  simp only [Session.start]
  split
  · exact .running ⟨rfl, .idle, unclosed⟩
  · refine .ended rfl (List.prefix_refl []) (List.prefix_refl []) unclosed ?_
    intro error isError ofBreach
    cases isError
    cases ofBreach

end Browser

/-! ## Every session of every run -/

namespace Switchboard

open Browser

def passagesOf (index : Nat) (board : Switchboard) : Move → List Passage :=
  ofBrowser Session.passages index board

def Attending (index : Nat) (board : Switchboard) (log : List Passage) : Prop :=
  Watched (fun session log => Disciplined (sentIn log) (enqueuedIn log) (handedIn log) session)
    board.browsers[index]? log

theorem Attending.step {index : Nat} {board : Switchboard} {log : List Passage} (move : Move)
    (attending : Attending index board log) :
    Attending index (board.step move) (log ++ passagesOf index board move) := by
  have fate := browserFate_step Session.passages index board move
  unfold Attending passagesOf at *
  generalize board.browsers[index]? = before, (board.step move).browsers[index]? = after,
    ofBrowser Session.passages index board move = passed at attending fate ⊢
  cases fate with
  | acts session now event =>
      refine .somebody ?_
      rw [sentIn_append, enqueuedIn_append, handedIn_append]
      exact attending.holds.step board.directory now board.hub event
  | stays | nobody =>
      rw [List.append_nil]
      exact attending
  | begins now name flag =>
      cases attending
      exact .somebody (.start board.settings now board.hub name flag)

/-- What every run keeps of a browser session and of what passed through it. -/
structure Dispatched (session : Session) (log : List Passage) : Prop where
  /-- As long as the session goes on, a message is in flight exactly if one waits. -/
  inFlight_iff : session.outcome = none →
    (session.sender.inFlight.isSome = true ↔ session.sender.outbox.waiting ≠ [])
  inFlight_head : session.outcome = none → ∀ {message : Message} {deadline : Instant},
    session.sender.inFlight = some (message, deadline) →
      session.sender.outbox.head? = some message
  sink_iff : session.outcome = none →
    (session.sender.holdsSink = true ↔ session.sender.inFlight = none)
  handed_prefix_enqueued : handedIn log <+: enqueuedIn log
  sent_prefix_handed : sentIn log <+: handedIn log
  /-- Nothing is enqueued behind the closing message. -/
  close_last : ∀ {before after : List Message} {breach : Breach},
    enqueuedIn log = before ++ .close breach :: after → after = []
  /-- A session ends for its own closing only once all is sent, the closing message last. -/
  all_sent : ∀ {error : SessionError}, session.outcome = some (some error) → OfBreach error →
    sentIn log = enqueuedIn log ∧ ∃ before breach,
      enqueuedIn log = before ++ [.close breach] ∧ error = breach.error session.settings

theorem dispatched_of_disciplined {session : Session} {log : List Passage}
    (disciplined : Disciplined (sentIn log) (enqueuedIn log) (handedIn log) session) :
    Dispatched session log := by
  cases disciplined with
  | running running =>
      obtain ⟨notEnded, sending, closing⟩ := running
      refine ⟨fun _ => sending.inFlight_iff, ?_, fun _ => sending.sink_iff,
        sending.handed_prefix_enqueued, sending.sent_prefix_handed, closing.last, ?_⟩
      · intro _ message deadline inFlight
        have head := sending.head_eq
        rw [inFlight] at head
        exact head.symm
      · intro error ended
        rw [notEnded] at ended
        cases ended
  | @ended outcome ended sent_prefix_handed handed_prefix_enqueued closing allSent =>
      have hasEnded : session.outcome ≠ none := by
        rw [ended]
        exact nofun
      refine ⟨fun running => absurd running hasEnded, fun running => absurd running hasEnded,
        fun running => absurd running hasEnded, handed_prefix_enqueued, sent_prefix_handed,
        closing.last, ?_⟩
      intro error isError ofBreach
      rw [ended] at isError
      obtain ⟨all, breach, closes, isBreach⟩ := allSent error (Option.some.inj isError) ofBreach
      rw [closes] at closing
      obtain ⟨before, last⟩ := closing.exists_before
      exact ⟨all, before, breach, last, isBreach⟩

/-- In every run the messages of every browser session are handed over and sent in the order in
which they were enqueued, one at a time, and the closing message is the last. -/
theorem dispatched_run (directory : Directory) (settings : Settings) (moves : List Move)
    {index : Nat} {session : Session}
    (found : ((start directory settings).run moves).browsers[index]? = some session) :
    Dispatched session ((start directory settings).trace (passagesOf index) moves) := by
  have begins : Attending index (start directory settings) [] := .nobody
  have attending : Attending index _ ([] ++ Switchboard.trace _ _ moves) :=
    run_induction Attending.step begins moves
  rw [Attending, found] at attending
  exact dispatched_of_disciplined attending.holds

/-- A request that is no JSON comes in while a ping is being sent: the ping and the closing
message are sent, and then the session ends. -/
theorem dispatched_run_closed :
    let directory : Directory := ⟨fun _ => true, Station.defaultName⟩
    let name : Uuid := ⟨List.replicate 16 0x40, rfl⟩
    let moves : List Move :=
      [.connectBrowser 0 name .plain, .browser 0 10000 .keepaliveDue,
        .browser 0 10001 (.data [1, 0, 0x7d]), .browser 0 10002 .sent, .browser 0 10003 .sent]
    let log := (start directory {}).trace (passagesOf 0) moves
    ∃ session, ((start directory {}).run moves).browsers[0]? = some session ∧
      Dispatched session log ∧ session.outcome = some (some .badRequest) ∧
      sentIn log = [.ping, .close .invalidRequest] := by
  intro directory name moves log
  have there : ((start directory {}).run moves).browsers[0]?.map Session.outcome =
      some (some (some .badRequest)) := by decide +kernel
  obtain ⟨session, found, outcome⟩ := Option.map_eq_some_iff.mp there
  exact ⟨session, found, dispatched_run directory {} moves found, outcome, by decide +kernel⟩

end Switchboard

end StationRelay
