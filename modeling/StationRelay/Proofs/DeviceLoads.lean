import StationRelay.Relay
import StationRelay.Proofs.Deeds
import StationRelay.Proofs.Handling

/-!
# What an advance of a device takes up

The load of a relay is a sum over its connections and mailboxes.  Here every
function of a device session is charged: what it adds to the hub it takes off the
session.  `load_of_advance?` is the result: an advance lowers the load of the hub
and of its connection together, at whatever instant it happens.
-/

namespace StationRelay

/-! ## Sums -/

section Total

variable {α : Type} {weight : α → Nat} {list : List α} {index : Nat}

theorem total_append (list other : List α) :
    total weight (list ++ other) = total weight list + total weight other := by
  induction list with
  | nil => exact (Nat.zero_add _).symm
  | cons item rest ih =>
      simp only [List.cons_append, total, ih]
      omega

theorem total_set (weight : α → Nat) {item : α} (found : list[index]? = some item) (new : α) :
    total weight (list.set index new) + weight item = total weight list + weight new := by
  induction list generalizing index with
  | nil => cases found
  | cons first rest ih =>
      cases index with
      | zero =>
          cases found
          simp only [List.set_cons_zero, total]
          omega
      | succ index =>
          have changed := @ih index found
          simp only [List.set_cons_succ, total]
          omega

theorem total_modify (weight : α → Nat) {item : α} (found : list[index]? = some item)
    (change : α → α) :
    total weight (list.modify index change) + weight item =
      total weight list + weight (change item) := by
  have same : list.modify index change = list.set index (change item) := by
    apply List.ext_getElem?
    intro other
    rw [List.getElem?_modify, List.getElem?_set]
    obtain ⟨inside, rfl⟩ := List.getElem?_eq_some_iff.mp found
    by_cases here : index = other
    · subst here
      simp [inside]
    · simp [here]
  rw [same]
  exact total_set weight found (change item)

theorem total_modify_le {change : α → α} (extra : Nat)
    (grows : ∀ item, weight (change item) ≤ weight item + extra) :
    total weight (list.modify index change) ≤ total weight list + extra := by
  cases found : list[index]? with
  | none =>
      rw [List.modify_eq_self (List.getElem?_eq_none_iff.mp found)]
      exact Nat.le_add_right _ _
  | some item =>
      have changed := total_modify weight found change
      have grown := grows item
      omega

end Total

/-! ## Mailboxes -/

namespace Links

variable {α : Type} (links : Links α) (id : LinkId)

@[simp] theorem load_create (capacity : Nat) :
    (links.create capacity).load = links.load := by
  rw [load, create, total_append]
  rfl

theorem load_post_le (item : α) : (links.post id item).load ≤ links.load + 1 := by
  refine total_modify_le 1 fun link => ?_
  dsimp only [Mailbox.post]
  split
  · rw [List.length_append]
    exact Nat.le_refl _
  · exact Nat.le_add_right _ _

theorem load_closeMailbox_release_le :
    ((links.release id).closeMailbox id).load ≤ links.load := by
  have closed : ((links.release id).closeMailbox id).load ≤ (links.release id).load :=
    total_modify_le 0 fun _ => Nat.zero_le _
  have released : (links.release id).load ≤ links.load :=
    total_modify_le 0 fun _ => Nat.le_refl _
  exact Nat.le_trans closed released

theorem load_take {item : α} (first : links.first? id = some item) :
    (links.take id).load + 1 = links.load := by
  unfold first? get? at first
  split at first
  · rename_i link found
    obtain ⟨rest, items⟩ := List.head?_eq_some_iff.mp first
    have taken : (links.take id).load + link.mailbox.items.length =
        links.load + link.mailbox.drop.items.length := total_modify _ found _
    simp only [Mailbox.drop, items, List.tail_cons, List.length_cons] at taken
    omega
  · cases first

end Links

theorem Keepalive.load_start (keepalive : Keepalive) (now : Instant) :
    (keepalive.start now).load = 3 := rfl

theorem Keepalive.load_pongReceived_le (keepalive : Keepalive) (now : Instant) :
    (keepalive.pongReceived now).load ≤ keepalive.load + 3 := by
  unfold pongReceived
  split
  · exact Nat.le_add_left _ _
  · exact Nat.le_add_right _ _

/-! ## Devices -/

namespace Device

variable {directory : Directory} {now : Instant} {hub : Hub} {session : Session}

theorem load_close (hub : Hub) (engine : Engine) : (close hub engine).1.load = hub.load := by
  unfold close
  dsimp only
  split <;> rfl

/-- A good packet leaves two actions or a reading, if anything. -/
theorem load_handle_le {engine : Engine} {buffer : Bytes}
    (good : (handle directory hub engine buffer).verdict = .good) :
    (handle directory hub engine buffer).hub.load
        + 3 * (handle directory hub engine buffer).engine.actions.length ≤
      hub.load + 3 * engine.actions.length + 6 := by
  have listed := handling_handle directory hub engine buffer
  generalize handle directory hub engine buffer = handled at listed good ⊢
  cases listed with
  | closed | incomplete | unreadable | outOfTurn => cases good
  | refused =>
      simp only [Engine.refuse, Engine.record, List.length_append, List.length_singleton]
      omega
  | accepted =>
      simp only [Engine.accept, Engine.record, List.length_append, List.length_cons,
        List.length_nil, Hub.load]
      omega
  | pong =>
      simp only [Engine.record, List.length_append, List.length_singleton]
      omega
  | @report station report =>
      have posted (notifier : LinkId) (reading : Reading) :
          (hub.notify notifier reading).load ≤ hub.load + 3 := by
        unfold Hub.notify
        split
        · have waits := hub.browsers.load_post_le notifier reading
          simp only [Hub.postReading, Hub.load]
          omega
        · exact Nat.le_add_right _ _
      have passed : (onReport hub station report).load ≤ hub.load + 3 := by
        unfold onReport
        split
        · exact posted _ _
        · exact Nat.le_add_right _ _
      simp only
      omega

namespace Session

theorem load_of_waiting (waiting : session.phase = .waiting) :
    session.load = session.backlog + session.keepalive.load + 1 := by
  rw [load, waiting]
  rfl

theorem load_of_writing {packet : Downlink} {deadline : Instant} {next : Continuation}
    (writing : session.phase = .writing packet deadline next) :
    session.load = session.backlog + next.load session.keepalive + 2 := by
  rw [load, writing]
  rfl

theorem load_finish_le (hub : Hub) (session : Session) (outcome : Outcome) :
    (finish hub session outcome).1.load + (finish hub session outcome).2.load ≤
      hub.load + session.backlog := by
  have left := load_close hub session.engine
  have closed := (close hub session.engine).1.devices.load_closeMailbox_release_le session.link
  have kept : (finish hub session outcome).2.load = session.backlog := rfl
  rw [kept]
  simp only [Hub.load] at left
  simp only [finish, Hub.load]
  omega

/-- A write is done for an action, and what is left to do behind it is recorded with it. -/
theorem load_perform {keepalive after : Keepalive} {actions : List Action}
    {reply : Option (Downlink × List Action)}
    (performed : perform now keepalive actions = (after, reply)) :
    after.load + reply.elim 0 (fun waits => 3 * waits.2.length + 3) ≤
      keepalive.load + 3 * actions.length := by
  induction actions generalizing keepalive with
  | nil =>
      cases performed
      exact Nat.le_refl _
  | cons action rest ih =>
      cases action with
      | send packet =>
          cases performed
          simp only [Option.elim_some, List.length_cons]
          omega
      | startKeepalive =>
          have later := ih performed
          rw [Keepalive.load_start] at later
          simp only [List.length_cons]
          omega
      | pongReceived =>
          have later := ih performed
          have heard := keepalive.load_pongReceived_le now
          simp only [List.length_cons]
          omega

theorem load_write (session : Session) (now : Instant) (packet : Downlink) (next : Continuation) :
    (session.write now packet next).load =
      session.backlog + next.load session.keepalive + 2 :=
  load_of_writing rfl

/-- A good packet and what it calls for take up its bytes. -/
theorem load_advance_le {handled : Handled} {after : Keepalive}
    {reply : Option (Downlink × List Action)}
    (called : handle directory hub session.engine session.buffer = handled)
    (good : handled.verdict = .good)
    (performed : perform now session.keepalive handled.engine.actions = (after, reply)) :
    handled.hub.load + (session.advance handled).backlog + after.load
        + reply.elim 0 (fun waits => 3 * waits.2.length + 3) ≤
      hub.load + session.backlog + session.keepalive.load := by
  subst called
  have consumed := consumed_of_good good
  have recorded := load_handle_le good
  have carried := load_perform performed
  simp only [backlog, advance, Engine.takeActions, List.length_nil, List.length_drop]
  omega

/-- The loop over the buffer takes up what it handles, and ends in a session that waits, writes or
has ended. -/
theorem Drains.load_le {deeds : List Deed} {after : Hub} {last : Session}
    (drains : Drains directory now hub session deeds after last) :
    after.load + last.load ≤ hub.load + session.backlog + session.keepalive.load + 1 := by
  induction drains with
  | stop =>
      simp only [load, backlog, Phase.load]
      omega
  | @breach hub session tag =>
      have ended := load_finish_le hub session (some (.badPacket tag))
      omega
  | write _ called good performed =>
      have advanced := load_advance_le called good performed
      simp only [Option.elim_some] at advanced
      rw [load_write]
      simp only [backlog, Continuation.load] at advanced ⊢
      omega
  | next _ called good performed _ ih =>
      have advanced := load_advance_le called good performed
      simp only [Option.elim_none, backlog] at advanced ih ⊢
      omega

theorem load_drain_le (directory : Directory) (now : Instant) (hub : Hub) (session : Session) :
    (drain directory now hub session).1.load + (drain directory now hub session).2.load ≤
      hub.load + session.backlog + session.keepalive.load + 1 :=
  (drains_drain directory now hub session).load_le

/-- Once a write is done less is left to do than before. -/
theorem load_proceed_lt (directory : Directory) (now : Instant) (hub : Hub) (session : Session)
    (next : Continuation) :
    (proceed directory now hub session next).1.load
        + (proceed directory now hub session next).2.load <
      hub.load + session.backlog + next.load session.keepalive + 2 := by
  cases next with
  | listen | wait | awaitPong =>
      simp only [proceed, load, backlog, Phase.load, Continuation.load, Keepalive.load,
        Keepalive.pingSent]
      omega
  | resume actions =>
      simp only [proceed, Continuation.load]
      rcases performed : perform now session.keepalive actions with
        ⟨keepalive, _ | ⟨packet, rest⟩⟩
      · have carried := load_perform performed
        have drained := load_drain_le directory now hub { session with keepalive }
        simp only [Option.elim_none, backlog] at carried drained ⊢
        omega
      · have carried := load_perform performed
        simp only [Option.elim_some] at carried
        simp only [load_write, backlog, Continuation.load]
        omega

/-- An event that ends a session takes up what the session still counted for. -/
theorem load_finish_lt (hub : Hub) (running : session.outcome? = none) (outcome : Outcome) :
    (finish hub session outcome).1.load + (finish hub session outcome).2.load <
      hub.load + session.load := by
  have ended := load_finish_le hub session outcome
  have counted : session.backlog < session.load := by
    unfold load outcome? at *
    cases phase : session.phase with
    | waiting | writing =>
        simp only [Phase.load]
        omega
    | ended other =>
        rw [phase] at running
        cases running
  omega

theorem load_receive_le (directory : Directory) (now : Instant) (hub : Hub) (session : Session)
    {bytes : Bytes} (nonempty : bytes ≠ []) :
    (receive directory now hub session bytes).1.load
        + (receive directory now hub session bytes).2.load ≤
      hub.load + session.backlog + 6 * bytes.length + session.keepalive.load + 1 := by
  have drained := load_drain_le directory now hub { session with
    buffer := session.buffer ++ bytes
    readDeadline := now + session.settings.readTimeout }
  rw [receive, if_neg nonempty]
  simp only [backlog, List.length_append] at drained ⊢
  omega

theorem load_takeCommand_lt (now : Instant) {command : Command}
    (first : hub.devices.first? session.link = some command) :
    (takeCommand now hub session).1.load + (takeCommand now hub session).2.load <
      hub.load + session.backlog + session.keepalive.load + 1 := by
  have taken := hub.devices.load_take session.link first
  simp only [takeCommand, first, load_write, Continuation.load, Hub.load]
  omega

theorem load_onKeepalive_lt {deadline : Instant} {timer : KeepaliveTimer}
    (waiting : session.phase = .waiting)
    (pending : session.keepalive.pending = some (deadline, timer)) (due : deadline ≤ now) :
    (onKeepalive now hub session).1.load + (onKeepalive now hub session).2.load <
      hub.load + session.load := by
  rw [onKeepalive, pending]
  dsimp only
  rw [if_pos due]
  cases timer with
  | ping =>
      have comes : session.keepalive.load = 3 := by rw [Keepalive.load, pending]
      rw [load_of_waiting waiting, comes, load_write]
      simp only [Continuation.load]
      omega
  | pongTimeout => exact load_finish_lt hub (by rw [outcome?, waiting]) _

end Session

namespace Connection

variable {wire : Wire UInt8} {event : Event}

theorem load_step_write (directory : Directory) (hub : Hub) {packet : Downlink}
    {deadline : Instant} {next : Continuation}
    (writing : session.phase = .writing packet deadline next)
    (found : write? now wire deadline = some event) :
    (session.step directory now hub event).1.load + (session.step directory now hub event).2.load <
        hub.load + session.load ∧ afterEvent wire event = wire := by
  have running : session.outcome? = none := by rw [Session.outcome?, writing]
  unfold write? at found
  split at found
  · cases found
    simp only [Session.step, writing]
    exact ⟨Session.load_finish_lt hub running _, rfl⟩
  · cases found
    have lower := Session.load_proceed_lt directory now hub session next
    rw [Session.load_of_writing writing]
    simp only [Session.step, writing]
    exact ⟨by omega, rfl⟩
  · split at found
    · rename_i due
      cases found
      simp only [Session.step, writing, if_pos due]
      exact ⟨Session.load_finish_lt hub running _, rfl⟩
    · cases found

theorem load_step_timer (directory : Directory) (hub : Hub) (wire : Wire UInt8)
    (waiting : session.phase = .waiting) (found : timer? now session = some event) :
    (session.step directory now hub event).1.load + (session.step directory now hub event).2.load <
        hub.load + session.load ∧ afterEvent wire event = wire := by
  have idle (due : session.idleDeadline ≤ now) :
      (session.step directory now hub .idleDue).1.load
          + (session.step directory now hub .idleDue).2.load < hub.load + session.load := by
    simp only [Session.step, waiting, if_pos due]
    exact Session.load_finish_lt hub (by rw [Session.outcome?, waiting]) _
  unfold timer? at found
  split at found
  · rename_i deadline timer pending
    split at found
    · rename_i due
      cases found
      simp only [Session.step, waiting]
      exact ⟨Session.load_onKeepalive_lt waiting pending due, rfl⟩
    · split at found
      · rename_i due
        cases found
        exact ⟨idle due, rfl⟩
      · cases found
  · split at found
    · rename_i due
      cases found
      exact ⟨idle due, rfl⟩
    · cases found

/-- Bytes that are read weigh less in the buffer than on the wire. -/
theorem load_step_read (directory : Directory) (now : Instant) (hub : Hub)
    (waiting : session.phase = .waiting) (found : read? wire = some event) :
    (session.step directory now hub event).1.load + (session.step directory now hub event).2.load
        + 7 * (afterEvent wire event).incoming.length <
      hub.load + session.load + 7 * wire.incoming.length := by
  have running : session.outcome? = none := by rw [Session.outcome?, waiting]
  unfold read? at found
  split at found
  · rename_i nonempty
    cases found
    have some_byte : wire.incoming.take readSize ≠ [] := by
      rw [Ne, List.take_eq_nil_iff]
      exact fun nothing => nothing.elim (by decide) nonempty
    have received := Session.load_receive_le directory now hub session some_byte
    have counted := List.length_pos_iff.mpr some_byte
    have whole := List.length_take_le' readSize wire.incoming
    rw [Session.load_of_waiting waiting]
    simp only [Session.step, waiting, afterEvent, Wire.drop, List.length_drop]
    omega
  · split at found
    · cases found
      have ended := Session.load_finish_lt hub running (some (.transport ‹_›))
      simp only [Session.step, waiting, afterEvent]
      omega
    · split at found
      · cases found
        have ended := Session.load_finish_lt hub running none
        simp only [Session.step, waiting, Session.receive, afterEvent, Wire.drop, List.length_nil,
          List.drop_zero]
        exact Nat.add_lt_add_right ended _
      · cases found

theorem load_of_advance? {connection stepped : Connection} {after : Hub}
    {notices : List (Notice Downlink)}
    (advanced : connection.advance? directory now hub = some (after, stepped, notices)) :
    after.load + stepped.load < hub.load + connection.load := by
  obtain ⟨session, wire⟩ := connection
  obtain ⟨event, next, result⟩ := Option.map_eq_some_iff.mp advanced
  rcases acted : session.step directory now hub event with ⟨later, moved⟩
  simp only [acted] at result
  cases result
  simp only [load]
  cases phase : session.phase with
  | ended outcome =>
      simp only [nextEvent?, phase] at next
      cases next
  | writing packet deadline continuation =>
      simp only [nextEvent?, phase] at next
      obtain ⟨lower, same⟩ := load_step_write directory hub phase next
      simp only [acted] at lower
      rw [same]
      omega
  | waiting =>
      simp only [nextEvent?, phase, Option.or_eq_some_iff] at next
      rcases next with timer | ⟨-, read | ⟨-, command⟩⟩
      · obtain ⟨lower, same⟩ := load_step_timer directory hub wire phase timer
        simp only [acted] at lower
        rw [same]
        omega
      · have lower := load_step_read directory now hub phase read
        simp only [acted] at lower
        omega
      · split at command
        · rename_i some_command
          obtain ⟨first, isFirst⟩ := Option.isSome_iff_exists.mp some_command
          cases command
          have lower := Session.load_takeCommand_lt now isFirst
          simp only [Session.step, phase] at acted
          simp only [acted] at lower
          rw [Session.load_of_waiting phase]
          simp only [afterEvent]
          omega
        · cases command

end Connection

end Device

end StationRelay
