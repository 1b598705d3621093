import StationRelay.Proofs.BrowserAdvances
import StationRelay.Proofs.DeviceLoads
import StationRelay.Proofs.Requests

/-!
# What an advance of a browser takes up

The same sum as for a device, with two more places for the load to go: the outbox
of the session and the channel behind it.  What the session does is charged here
function by function; `Connection.load_of_advance?` is the result, for connections
that are `Sound`.
-/

namespace StationRelay

namespace Browser

variable {directory : Directory} {now : Instant}

theorem load_forwardTo_le (hub : Hub) (command : Command) (raw : UInt8) :
    (forwardTo hub command raw).1.load ≤ hub.load + 2 := by
  unfold forwardTo
  split
  · rename_i link _
    have posted := hub.devices.load_post_le link command
    simp only [Hub.postCommand, Hub.load]
    omega
  · exact Nat.le_add_right _ _

theorem load_forward_le (hub : Hub) (command : Command) (stationIds : List UInt8) :
    (forward hub command stationIds).1.load ≤ hub.load + 2 * stationIds.length := by
  induction stationIds generalizing hub with
  | nil => exact Nat.le_refl _
  | cons raw rest ih =>
      have first := load_forwardTo_le hub command raw
      have others := ih (forwardTo hub command raw).1
      simp only [forward, List.length_cons]
      omega

/-- A good request leaves a reply, or no more commands than its payload has bytes. -/
theorem load_handle_le {hub : Hub} {engine : Engine} {buffer : Bytes}
    (good : (handle directory hub engine buffer).verdict = .good) :
    (handle directory hub engine buffer).hub.load
        + 2 * (handle directory hub engine buffer).engine.replies.length
        + 2 * (buffer.length - (handle directory hub engine buffer).consumed) ≤
      hub.load + 2 * engine.replies.length + 2 * buffer.length := by
  unfold handle at good ⊢
  cases decoded : Frame.decode engine.maxPayload buffer with
  | error error =>
      rw [decoded] at good
      cases error <;> cases good
  | ok read =>
      obtain ⟨payload, consumed⟩ := read
      obtain ⟨size, fits⟩ := Frame.consumed_of_decode decoded
      simp only [Frame.headerSize] at size
      rw [decoded] at good
      dsimp only at good ⊢
      cases parsed : Request.parse payload with
      | error error =>
          rw [parsed] at good
          cases good
      | ok request =>
          cases request with
          | stations =>
              simp only [dispatch, List.length_append, List.length_singleton]
              omega
          | readings stationIds =>
              have few := Request.length_stationIds_le parsed
              have posted := load_forward_le hub ⟨engine.session, engine.flag⟩ stationIds
              simp only [dispatch]
              omega

namespace Sender

theorem length_handed_le (handed : Option Message) : handed.toList.length ≤ 1 := by
  cases handed <;> simp

theorem length_dispatch_le (sender : Sender) (deadline : Instant) :
    (sender.dispatch deadline).2.toList.length ≤ min 1 sender.outbox.size := by
  refine Nat.le_min.mpr ⟨length_handed_le _, ?_⟩
  unfold dispatch
  split
  · exact Nat.zero_le _
  · split
    · exact Nat.zero_le _
    · rename_i message head
      have waits : 1 ≤ sender.outbox.size := by
        obtain ⟨rest, waiting⟩ := List.head?_eq_some_iff.mp head
        rw [Outbox.size, waiting]
        exact Nat.le_add_left _ _
      split
      · exact waits
      · exact Nat.zero_le _

theorem load_enqueue_le (sender : Sender) (deadline : Instant) (message : Message) :
    (sender.enqueue deadline message).1.outbox.size
        + (sender.enqueue deadline message).2.toList.length ≤ sender.outbox.size + 2 := by
  have handed := length_handed_le (sender.enqueue deadline message).2
  rw [Outbox.size, waiting_enqueue, List.length_append, List.length_singleton, Outbox.size]
  omega

/-- The message that is out makes room for the next. -/
theorem load_complete_le (sender : Sender) (deadline : Instant) :
    (sender.complete deadline).1.outbox.size + (sender.complete deadline).2.toList.length ≤
      sender.outbox.size := by
  have next := length_dispatch_le { sender.reclaim with outbox := sender.outbox.complete } deadline
  rw [complete, outbox_dispatch]
  simp only [Outbox.size, Outbox.complete, List.length_tail] at next ⊢
  omega

end Sender

namespace Progress

def load (progress : Progress) : Nat :=
  progress.hub.load + progress.session.load + progress.handed.length

variable {progress last : Progress}

/-- A session that ends takes up what it still counted for. -/
theorem load_finish_lt (progress : Progress) (running : progress.session.outcome = none)
    (outcome : Outcome) :
    (progress.finish outcome).load < progress.load := by
  have closed := progress.hub.browsers.load_closeMailbox_release_le progress.session.link
  simp only [finish, Session.finish, load, Session.load, Hub.load, Hub.leaveBrowser, running,
    Option.elim_some, Option.elim_none]
  omega

theorem load_conclude_le (progress : Progress) : progress.conclude.load ≤ progress.load := by
  unfold conclude
  split
  · rename_i running _
    split
    · exact Nat.le_of_lt (load_finish_lt _ running _)
    · exact Nat.le_refl _
  · exact Nat.le_refl _

theorem load_enqueue_le (now : Instant) (progress : Progress) (message : Message) :
    (progress.enqueue now message).load ≤ progress.load + 2 := by
  have sends := progress.session.sender.load_enqueue_le (progress.session.sendDeadline now) message
  simp only [enqueue, load, Session.load, List.length_append]
  omega

theorem load_enqueueReplies_le (now : Instant) (progress : Progress) (replies : List Reply) :
    (progress.enqueueReplies now replies).load ≤ progress.load + 2 * replies.length := by
  induction replies generalizing progress with
  | nil => exact Nat.le_refl _
  | cons reply rest ih =>
      have first := load_enqueue_le now progress (.reply reply)
      have others := ih (progress.enqueue now (.reply reply))
      rw [enqueueReplies] at others ⊢
      simp only [List.foldl_cons, List.length_cons]
      omega

/-- The bytes that are thrown away outweigh the closing message. -/
theorem load_beginClose_le (now : Instant) (nonempty : progress.session.buffer ≠ [])
    (breach : Breach) : (progress.beginClose now breach).load ≤ progress.load := by
  have counted := List.length_pos_iff.mpr nonempty
  have sends := load_enqueue_le now
    { progress with session := { progress.session with buffer := [] } } (.close breach)
  simp only [beginClose, load, Session.load, List.length_nil] at sends ⊢
  omega

theorem load_onSent_le (now : Instant) (progress : Progress) :
    (progress.onSent now).load ≤ progress.load := by
  have sends := progress.session.sender.load_complete_le (progress.session.sendDeadline now)
  simp only [onSent, load, Session.load, List.length_append]
  omega

theorem Drains.load_le (drains : Drains directory now progress last) :
    last.load ≤ progress.load := by
  induction drains with
  | stop => exact Nat.le_refl _
  | @breach progress breach nonempty => exact load_beginClose_le now nonempty breach
  | @next progress last handled nonempty called good _ ih =>
      subst called
      have answered := load_handle_le good
      have replied := load_enqueueReplies_le now (progress.advance (handle directory progress.hub
        progress.session.engine progress.session.buffer)) (handle directory progress.hub
        progress.session.engine progress.session.buffer).engine.replies
      refine Nat.le_trans ih (Nat.le_trans replied ?_)
      simp only [advance, load, Session.load, Engine.takeReplies, List.length_drop, List.length_nil]
      omega

theorem load_onSendFailed_lt (progress : Progress) (running : progress.session.outcome = none)
    (error : SessionError) :
    (progress.onSendFailed error).load < progress.load :=
  load_finish_lt { progress with session := { progress.session with
    sender := progress.session.sender.reclaim } } running _

/-- A ping that goes out weighs less than the one that was to come. -/
theorem load_ping_lt (now : Instant) (hub : Hub) {session : Session} {deadline : Instant}
    (pending : session.keepalive.pending = some (deadline, .ping)) :
    (((of hub session).enqueue now .ping).setKeepalive (session.keepalive.pingSent now)).load <
      hub.load + session.load := by
  have sends := session.sender.load_enqueue_le (session.sendDeadline now) .ping
  have comes : session.keepalive.load = 3 := by rw [Keepalive.load, pending]
  simp only [setKeepalive, enqueue, of, load, Session.load, Keepalive.load, Keepalive.pingSent,
    List.length_append, List.length_nil] at comes ⊢
  omega

theorem load_pong_le (now : Instant) (hub : Hub) (session : Session) :
    ((of hub session).setKeepalive (session.keepalive.pongReceived now)).load ≤
      hub.load + session.load + 3 := by
  have heard := session.keepalive.load_pongReceived_le now
  simp only [setKeepalive, of, load, Session.load, List.length_nil]
  omega

theorem load_feed_le (directory : Directory) (now : Instant) (progress : Progress)
    (bytes : Bytes) :
    (progress.feed directory now bytes).load ≤ progress.load + 2 * bytes.length := by
  unfold feed
  split
  · exact Nat.le_add_right _ _
  · have handled := (drains_drain directory now (progress.extend now bytes)).load_le
    refine Nat.le_trans handled ?_
    simp only [extend, load, Session.load, List.length_append]
    omega

end Progress

theorem Incoming.load_of_data {message : Incoming} {bytes : Bytes}
    (means : message.meaning = .data bytes) : message.load = 2 * bytes.length + 4 := by
  cases message with
  | binary content =>
      cases means
      rfl
  | text content =>
      simp only [meaning] at means
      split at means <;> cases means
      rfl
  | ping content | pong content =>
      simp only [meaning] at means
      split at means <;> cases means
  | close status =>
      cases status with
      | none => cases means
      | some status =>
          simp only [meaning] at means
          split at means
          · cases means
          · split at means <;> cases means
  | malformed => cases means

theorem Incoming.four_le_load (message : Incoming) : 4 ≤ message.load := by
  cases message <;> simp only [load] <;> omega

namespace Connection

variable {hub : Hub} {connection moved : Connection} {session : Session} {advance : Advance}

def Advance.load (advance : Advance) : Nat :=
  advance.hub.load + advance.connection.load

theorem length_accept_le (channel : Channel) (handed : List Message) :
    (handed.foldl Channel.accept channel).outgoing.length ≤
      channel.outgoing.length + handed.length := by
  induction handed generalizing channel with
  | nil => exact Nat.le_refl _
  | cons message rest ih =>
      have others := ih (channel.accept message)
      have first : (channel.accept message).outgoing.length ≤ channel.outgoing.length + 1 := by
        unfold Channel.accept
        split
        · exact Nat.le_add_right _ _
        · rw [List.length_append]
          exact Nat.le_refl _
      simp only [List.foldl_cons, List.length_cons]
      omega

/-- What a session hands over weighs no less than what the channel gets. -/
theorem load_happen_le (directory : Directory) (now : Instant) (hub : Hub)
    (connection : Connection) (session : Session) (event : Event)
    (notices : List (Notice Outgoing)) :
    (connection.happen directory now hub session event notices).load ≤
      (session.step directory now hub event).load + connection.channel.outgoing.length
        + total Incoming.load connection.wire.incoming := by
  have carried := length_accept_le connection.channel
    (session.step directory now hub event).handed
  simp only [happen, Advance.load, load, Stage.load, Progress.load]
  omega

theorem total_afterMessage {message : Incoming} {rest : List Incoming}
    (front : connection.wire.incoming = message :: rest) :
    total Incoming.load connection.wire.incoming =
      message.load + total Incoming.load connection.afterMessage.wire.incoming := by
  rw [front, total, afterMessage, Wire.drop, front]
  rfl

/-- An event weighs more, on the wire and in the session, than what it leaves. -/
theorem Happens.load_lt (directory : Directory) {event : Event} (running : session.outcome = none)
    (happens : Happens now hub connection session moved event) :
    (session.step directory now hub event).load + moved.channel.outgoing.length
        + total Incoming.load moved.wire.incoming <
      hub.load + session.load + connection.channel.outgoing.length
        + total Incoming.load connection.wire.incoming := by
  have counted : (Progress.of hub session).load = hub.load + session.load := rfl
  cases happens with
  | @fails event message deadline error inFlight failure =>
      have lower := Progress.load_onSendFailed_lt (Progress.of hub session) running error
      rw [Session.step_of_failure running inFlight failure]
      omega
  | @ends event outcome accepting isOpen ending =>
      have lower := Progress.load_finish_lt (Progress.of hub session) running outcome
      rw [Session.step_of_ending isOpen ending]
      omega
  | @reads reading accepting isOpen first =>
      have taken := hub.browsers.load_take session.link first
      have sends := Progress.load_enqueue_le now
        (Progress.of { hub with browsers := hub.browsers.take session.link } session)
        (.reply (.reading reading))
      rw [Session.step_of_first isOpen first]
      simp only [Progress.load, Progress.of, Hub.load, List.length_nil] at sends ⊢
      omega
  | pings accepting isOpen pending due =>
      have lower := Progress.load_ping_lt now hub pending
      rw [Session.step_of_ping isOpen pending due]
      omega
  | sends accepting waits inFlight =>
      have fewer := List.length_pos_iff.mpr waits
      have sent := Progress.load_onSent_le now (Progress.of hub session)
      have ended := Progress.load_conclude_le ((Progress.of hub session).onSent now)
      rw [Session.step_of_inFlight running inFlight]
      simp only [emptied, List.length_nil]
      omega
  | @data message rest bytes accepting isOpen front means =>
      have weight := Incoming.load_of_data means
      have fed := Progress.load_feed_le directory now (Progress.of hub session) bytes
      have ended := Progress.load_conclude_le ((Progress.of hub session).feed directory now bytes)
      rw [Session.step_of_message isOpen (.data bytes), total_afterMessage front]
      simp only [afterMessage, Session.onOpen]
      omega
  | @pong message rest accepting isOpen front =>
      have weight := message.four_le_load
      have heard := Progress.load_pong_le now hub session
      have ended := Progress.load_conclude_le
        ((Progress.of hub session).setKeepalive (session.keepalive.pongReceived now))
      have result : session.step directory now hub .pong = ((Progress.of hub session).setKeepalive
          (session.keepalive.pongReceived now)).conclude :=
        Session.step_of_message isOpen .pong
      rw [result, total_afterMessage front]
      simp only [afterMessage]
      omega
  | @answers message rest accepting isOpen front reply isClose =>
      have weight := message.four_le_load
      have ended := Progress.load_conclude_le (Progress.of hub session)
      rw [Session.step_of_message isOpen .control, total_afterMessage front]
      simp only [Session.onOpen, Channel.answer, List.length_append, List.length_singleton]
      omega
  | @violates message rest accepting isOpen front fault =>
      have lower := Progress.load_finish_lt (Progress.of hub session) running
        (some (.message fault))
      rw [Session.step_of_ending isOpen (.fault fault), total_afterMessage front]
      simp only [afterMessage]
      omega

theorem load_of_serving (serving : connection.stage = .serving session) :
    connection.load = session.load + connection.channel.outgoing.length
      + total Incoming.load connection.wire.incoming := by
  rw [load, serving]
  rfl

theorem Moves.load_lt (running : session.outcome = none)
    (serving : connection.stage = .serving session)
    (moves : Moves directory now hub connection session advance) :
    advance.load < hub.load + connection.load := by
  rw [load_of_serving serving]
  cases moves with
  | @happens moved event happens notices =>
      have carried := load_happen_le directory now hub moved session event notices
      have lower := happens.load_lt directory running
      omega
  | flushes accepting waits =>
      have fewer := List.length_pos_iff.mpr waits
      have left := @load_of_serving connection.emptied _ serving
      simp only [emptied, List.length_nil] at left
      simp only [Advance.load, emptied, left]
      omega

/-- A session that begins counts for no more than its first ping. -/
theorem load_start_le (settings : Settings) (now : Instant) (hub : Hub) (name : Uuid)
    (flag : TransportFlag) :
    (Session.start settings now hub name flag).1.load
        + (Session.start settings now hub name flag).2.load ≤ hub.load + 4 := by
  have made := hub.browsers.load_create settings.queueCapacity
  have closed := (hub.browsers.create settings.queueCapacity).load_closeMailbox_release_le
    hub.browsers.nextId
  unfold Session.start Hub.joinBrowser
  dsimp only
  split
  · rename_i joined registered
    split at registered <;> cases registered
    simp only [Hub.load, Session.load, made, Keepalive.load_start, Sender.idle]
    simp [Outbox.size, Outbox.empty]
  · simp only [Hub.load, Session.load, Keepalive.load_start, Sender.idle]
    simp [Outbox.size, Outbox.empty]
    omega

theorem load_of_advance? (sound : connection.Sound)
    (found : connection.advance? directory now hub = some advance) :
    advance.load < hub.load + connection.load := by
  cases advances_of_advance? sound found with
  | rejects upgrading error =>
      simp only [reject, Advance.load, load, upgrading, Stage.load]
      omega
  | upgrades upgrading =>
      have started := load_start_le connection.settings now hub connection.name connection.flag
      simp only [upgrade, Advance.load, load, upgrading, Stage.load]
      omega
  | moves serving running moves => exact moves.load_lt running serving

end Connection

end Browser

end StationRelay
