import StationRelay.Proofs.Divergence

/-!
# The limits for silence of a device

One timer of a device session serves two limits.  Until the device is accepted
it stands for a limit that is fixed by the connection; from then on for one that
every read moves.  A contact is what shows of the two at one instant, `Patience`
is which of them is in force, and `limited_run` says of every run, without a word
about patience, that neither limit is missed, moved by anything else or taken for
the other.
-/

namespace StationRelay

namespace Device

/-! ## Contacts -/

inductive Contact where
  | connected
  /-- A read gave some bytes. -/
  | heard
  /-- A handshake was accepted: the welcome is given to be written. -/
  | accepted
  | ended (outcome : Outcome)
  deriving DecidableEq

/-- The last instant at which the device was heard. -/
def lastHeard? (log : List (Instant × Contact)) : Option Instant :=
  (log.filterMap fun (now, contact) => if contact = .heard then some now else none).getLast?

/-- In this history the device is accepted, was last heard at this instant, and nothing ended. -/
structure Held (log : List (Instant × Contact)) (last : Instant) : Prop where
  accepted : ∃ now, (now, .accepted) ∈ log
  goesOn : ∀ now outcome, (now, .ended outcome) ∉ log
  heard : lastHeard? log = some last

/-- What comes behind the connection: reads as they may be, until a handshake is accepted in time,
the session ends exactly at the limit or for another reason before, or nobody watches any more. -/
inductive AwaitsAcceptance (timeout : Duration) (limit ends : Instant) :
    List (Instant × Contact) → Prop where
  | heard {now : Instant} {rest : List (Instant × Contact)} (inTime : now ≤ limit)
      (later : AwaitsAcceptance timeout limit ends rest) :
      AwaitsAcceptance timeout limit ends ((now, .heard) :: rest)
  | accepted {now : Instant} (rest : List (Instant × Contact)) (inTime : now ≤ limit) :
      AwaitsAcceptance timeout limit ends ((now, .accepted) :: rest)
  | overdue :
      AwaitsAcceptance timeout limit ends [(limit, .ended (some (.handshakeTimeout timeout)))]
  | ended {now : Instant} {outcome : Outcome} (inTime : now ≤ limit)
      (other : ∀ limit, outcome ≠ some (.handshakeTimeout limit)) :
      AwaitsAcceptance timeout limit ends [(now, .ended outcome)]
  | unfinished (early : ends ≤ limit) : AwaitsAcceptance timeout limit ends []

/-- What comes behind a read of an accepted device: another in time, or the end of the session
exactly at the limit or for another reason before, unless nobody watches any more. -/
inductive AwaitsBytes (timeout : Duration) (limit ends : Instant) :
    List (Instant × Contact) → Prop where
  | heard {now : Instant} (rest : List (Instant × Contact)) (inTime : now ≤ limit) :
      AwaitsBytes timeout limit ends ((now, .heard) :: rest)
  | overdue : AwaitsBytes timeout limit ends [(limit, .ended (some (.readTimeout timeout)))]
  | ended {now : Instant} {outcome : Outcome} (inTime : now ≤ limit)
      (other : ∀ limit, outcome ≠ some (.readTimeout limit)) :
      AwaitsBytes timeout limit ends [(now, .ended outcome)]
  | unfinished (early : ends ≤ limit) : AwaitsBytes timeout limit ends []

/-- What a history that is watched until `ends` says about the two limits. -/
structure Limited (settings : Settings) (ends : Instant) (log : List (Instant × Contact)) :
    Prop where
  /-- Nothing but the connection moves the limit for the handshake. -/
  handshake : ∀ {before after : List (Instant × Contact)} {since : Instant},
    log = before ++ (since, .connected) :: after →
      AwaitsAcceptance settings.handshakeTimeout (since + settings.handshakeTimeout) ends after
  /-- That limit is passed only without a handshake that was accepted, and exactly then. -/
  unaccepted : ∀ {before after : List (Instant × Contact)} {now : Instant} {limit : Duration},
    log = before ++ (now, .ended (some (.handshakeTimeout limit))) :: after →
      ∃ since early, before = (since, .connected) :: early ∧
        (∀ contact ∈ early, contact.2 = .heard) ∧ now = since + settings.handshakeTimeout
  /-- Once the device is accepted, nothing but its last read moves the limit for silence. -/
  read : ∀ {before after : List (Instant × Contact)} {last : Instant}, log = before ++ after →
    Held before last → AwaitsBytes settings.readTimeout (last + settings.readTimeout) ends after
  /-- That limit is passed only by an accepted device, and exactly then. -/
  silent : ∀ {before after : List (Instant × Contact)} {now : Instant} {limit : Duration},
    log = before ++ (now, .ended (some (.readTimeout limit))) :: after →
      ∃ last, Held before last ∧ now = last + settings.readTimeout

/-! ## Patiences -/

inductive Patience where
  | unconnected
  /-- Connected at this instant, last heard at that one, and not yet accepted. -/
  | pending (since : Instant) (last : Option Instant)
  /-- Accepted, and last heard at this instant. -/
  | held (last : Instant)
  | finished

namespace Patience

def due? (settings : Settings) : Patience → Option Instant
  | .pending since _ => some (since + settings.handshakeTimeout)
  | .held last => some (last + settings.readTimeout)
  | .unconnected | .finished => none

def last? : Patience → Option Instant
  | .pending _ last => last
  | .held last => some last
  | .unconnected | .finished => none

def Lasts (settings : Settings) (patience : Patience) (now : Instant) : Prop :=
  ∀ due ∈ patience.due? settings, now ≤ due

inductive Next (settings : Settings) : Patience → Instant × Contact → Patience → Prop where
  | connected (now : Instant) : Next settings .unconnected (now, .connected) (.pending now none)
  | pendingHeard {since now : Instant} {last : Option Instant}
      (inTime : now ≤ since + settings.handshakeTimeout) :
      Next settings (.pending since last) (now, .heard) (.pending since (some now))
  | accepted {since last now : Instant} (inTime : now ≤ since + settings.handshakeTimeout) :
      Next settings (.pending since (some last)) (now, .accepted) (.held last)
  | heldHeard {last now : Instant} (inTime : now ≤ last + settings.readTimeout) :
      Next settings (.held last) (now, .heard) (.held now)
  | unaccepted (since : Instant) (last : Option Instant) :
      Next settings (.pending since last)
        (since + settings.handshakeTimeout,
          .ended (some (.handshakeTimeout settings.handshakeTimeout))) .finished
  | silent (last : Instant) :
      Next settings (.held last)
        (last + settings.readTimeout, .ended (some (.readTimeout settings.readTimeout))) .finished
  /-- The session ends for another reason. -/
  | ends {patience : Patience} {now due : Instant} {outcome : Outcome}
      (limited : patience.due? settings = some due) (inTime : now ≤ due)
      (notUnaccepted : ∀ limit, outcome ≠ some (.handshakeTimeout limit))
      (notSilent : ∀ limit, outcome ≠ some (.readTimeout limit)) :
      Next settings patience (now, .ended outcome) .finished

def Told (log : List (Instant × Contact)) : Patience → Prop
  | .unconnected => log = []
  | .pending since last =>
    (∃ early, log = (since, .connected) :: early ∧ ∀ contact ∈ early, contact.2 = .heard) ∧
      lastHeard? log = last
  | .held last => Held log last
  | .finished => ∃ now outcome, (now, .ended outcome) ∈ log

end Patience

section Histories

variable {settings : Settings} {first mid last : Patience}
  {log before after : List (Instant × Contact)} {now ends : Instant}

theorem lastHeard_concat_heard (log : List (Instant × Contact)) (now : Instant) :
    lastHeard? (log ++ [(now, .heard)]) = some now := by
  rw [lastHeard?, List.filterMap_append]
  exact List.getLast?_concat ..

theorem lastHeard_concat {contact : Contact} (other : contact ≠ .heard) :
    lastHeard? (log ++ [(now, contact)]) = lastHeard? log := by
  rw [lastHeard?, List.filterMap_append, List.filterMap_cons]
  simp only [if_neg other, List.filterMap_nil, List.append_nil]
  rfl

theorem Held.concat_heard {old : Instant} (held : Held log old) (now : Instant) :
    Held (log ++ [(now, .heard)]) now := by
  obtain ⟨instant, accepted⟩ := held.accepted
  refine ⟨⟨instant, List.mem_append_left _ accepted⟩, ?_, lastHeard_concat_heard log now⟩
  intro other outcome member
  rcases List.mem_append.mp member with early | new
  · exact held.goesOn other outcome early
  · cases List.mem_singleton.mp new

theorem Patience.Told.next {contact : Instant × Contact} (told : first.Told log)
    (next : first.Next settings contact mid) : mid.Told (log ++ [contact]) := by
  cases next with
  | connected =>
      obtain rfl : log = [] := told
      exact ⟨⟨[], rfl, nofun⟩, rfl⟩
  | @pendingHeard since now last =>
      obtain ⟨⟨early, rfl, reads⟩, -⟩ := told
      refine ⟨⟨early ++ [(now, .heard)], rfl, ?_⟩, lastHeard_concat_heard _ now⟩
      intro contact member
      rcases List.mem_append.mp member with old | new
      · exact reads contact old
      · rw [List.mem_singleton.mp new]
  | accepted =>
      obtain ⟨⟨early, rfl, reads⟩, heard⟩ := told
      refine ⟨⟨_, List.mem_append_right _ List.mem_cons_self⟩, ?_, ?_⟩
      · intro now outcome member
        rcases List.mem_append.mp member with old | new
        · rcases List.mem_cons.mp old with same | later
          · cases same
          · cases reads _ later
        · cases List.mem_singleton.mp new
      · rw [lastHeard_concat (nofun : Contact.accepted ≠ .heard)]
        exact heard
  | heldHeard => exact Held.concat_heard told _
  | unaccepted | silent | ends => exact ⟨_, _, List.mem_append_right _ List.mem_cons_self⟩

theorem Patience.told (follows : Follows (Patience.Next settings) .unconnected log last) :
    last.Told log := by
  have told : last.Told ([] ++ log) :=
    Follows.carry (fun history patience => patience.Told history)
      (fun told next => told.next next) follows rfl
  exact told

/-- The first contact is the connection. -/
theorem Patience.begins (follows : Follows (Patience.Next settings) .unconnected log last)
    (begun : last ≠ .unconnected) : ∃ since rest, log = (since, .connected) :: rest := by
  cases follows with
  | nil => exact absurd rfl begun
  | cons next later =>
      cases next with
      | connected since => exact ⟨since, _, rfl⟩
      | ends limited => cases limited

theorem Patience.nil_of_finished (follows : Follows (Patience.Next settings) .finished log last) :
    log = [] := by
  refine follows.nil_of_stuck fun next => ?_
  cases next with
  | ends limited => cases limited

/-- A history tells that the device is held, and when it was last heard. -/
theorem Held.patience {heard : Instant} (held : Held log heard)
    (follows : Follows (Patience.Next settings) .unconnected log last) : last = .held heard := by
  have told := Patience.told follows
  obtain ⟨instant, accepted⟩ := held.accepted
  cases last with
  | unconnected =>
      obtain rfl : log = [] := told
      cases accepted
  | pending since last =>
      obtain ⟨⟨early, rfl, reads⟩, -⟩ := told
      rcases List.mem_cons.mp accepted with same | later
      · cases same
      · cases reads _ later
  | held last =>
      have same : some last = some heard := (Held.heard told).symm.trans held.heard
      rw [Option.some.inj same]
  | finished =>
      obtain ⟨now, outcome, ended⟩ := told
      exact absurd ended (held.goesOn now outcome)

theorem Patience.awaitsAcceptance {since : Instant} {heard : Option Instant}
    (follows : Follows (Patience.Next settings) (.pending since heard) after last)
    (lasts : last.Lasts settings ends) :
    AwaitsAcceptance settings.handshakeTimeout (since + settings.handshakeTimeout) ends after := by
  induction after generalizing heard with
  | nil =>
      cases follows
      exact .unfinished (lasts _ rfl)
  | cons contact rest ih =>
      cases follows with
      | cons next later =>
          cases next with
          | pendingHeard inTime => exact .heard inTime (ih later)
          | accepted inTime => exact .accepted rest inTime
          | unaccepted =>
              obtain rfl := Patience.nil_of_finished later
              exact .overdue
          | ends limited inTime notUnaccepted =>
              obtain rfl := Patience.nil_of_finished later
              cases limited
              exact .ended inTime notUnaccepted

theorem Patience.awaitsBytes {heard : Instant}
    (follows : Follows (Patience.Next settings) (.held heard) after last)
    (lasts : last.Lasts settings ends) :
    AwaitsBytes settings.readTimeout (heard + settings.readTimeout) ends after := by
  cases follows with
  | nil => exact .unfinished (lasts _ rfl)
  | cons next later =>
      cases next with
      | heldHeard inTime => exact .heard _ inTime
      | silent =>
          obtain rfl := Patience.nil_of_finished later
          exact .overdue
      | ends limited inTime _ notSilent =>
          obtain rfl := Patience.nil_of_finished later
          cases limited
          exact .ended inTime notSilent

theorem Patience.limited (follows : Follows (Patience.Next settings) .unconnected log last)
    (lasts : last.Lasts settings ends) : Limited settings ends log := by
  constructor
  case handshake =>
    intro before after since split
    obtain ⟨mid, -, back⟩ := (split ▸ follows).split
    cases back with
    | cons next later =>
        cases next
        exact Patience.awaitsAcceptance later lasts
  case unaccepted =>
    intro before after now limit split
    obtain ⟨mid, front, back⟩ := (split ▸ follows).split
    cases back with
    | cons next later =>
        cases next with
        | unaccepted since heard =>
            obtain ⟨⟨early, isFront, reads⟩, -⟩ := Patience.told front
            exact ⟨since, early, isFront, reads, rfl⟩
        | ends _ _ notUnaccepted => exact absurd rfl (notUnaccepted limit)
  case read =>
    intro before after heard split held
    obtain ⟨mid, front, back⟩ := (split ▸ follows).split
    obtain rfl := held.patience front
    exact Patience.awaitsBytes back lasts
  case silent =>
    intro before after now limit split
    obtain ⟨mid, front, back⟩ := (split ▸ follows).split
    cases back with
    | cons next later =>
        cases next with
        | silent heard => exact ⟨heard, Patience.told front, rfl⟩
        | ends _ _ _ notSilent => exact absurd rfl (notSilent limit)

end Histories

/-! ## Contacts of a session -/

def Deed.contact? : Deed → Option Contact
  | .began .welcome => some .accepted
  | _ => none

namespace Session

def hearing (session : Session) : Event → List Contact
  | .read bytes => if session.phase = .waiting ∧ bytes ≠ [] then [.heard] else []
  | _ => []

def shownBy (deeds : List Deed) (last : Session) : List Contact :=
  deeds.filterMap Deed.contact? ++ (last.outcome?.map .ended).toList

def contacts (directory : Directory) (now : Instant) (hub : Hub) (session : Session)
    (event : Event) : List Contact :=
  if session.outcome? = none then
    session.hearing event ++
      shownBy (session.deeds directory now hub event) (session.step directory now hub event).2
  else []

end Session

/-! ## The invariant -/

def Patience.Fits : Patience → State → Prop
  | .pending .., state => state = .connected
  | .held _, state => ∃ station, state = .authenticated station
  | .unconnected, _ | .finished, _ => False

/-- The deadlines of the session are those of the patience. -/
def Patience.Sets (settings : Settings) (session : Session) : Patience → Prop
  | .pending since last =>
    session.handshakeDeadline = since + settings.handshakeTimeout ∧
      ∀ heard ∈ last, session.readDeadline = heard + settings.readTimeout
  | .held last => session.readDeadline = last + settings.readTimeout
  | .unconnected | .finished => True

/-- A session that has not ended keeps to a patience. -/
structure KeepsTo (settings : Settings) (clock : Instant) (session : Session)
    (log : List (Instant × Contact)) (patience : Patience) : Prop where
  follows : Follows (Patience.Next settings) .unconnected log patience
  own : session.settings = settings
  noActions : session.engine.actions = []
  fits : patience.Fits session.engine.state
  sets : patience.Sets settings session
  lasts : patience.Lasts settings clock

inductive Leaves (settings : Settings) (clock : Instant) (patience : Patience) :
    Continuation → Prop where
  /-- The greeting takes no time, and nothing was heard yet. -/
  | listen (fresh : patience = .pending clock none) : Leaves settings clock patience .listen
  /-- An answer goes out, and the device was heard in time. -/
  | resume {actions : List Action} {heard : Instant}
      (silent : actions = [] ∨ actions = [.startKeepalive])
      (known : patience.last? = some heard) (fresh : clock ≤ heard + settings.readTimeout) :
      Leaves settings clock patience (.resume actions)
  | wait : Leaves settings clock patience .wait
  | awaitPong : Leaves settings clock patience .awaitPong

/-- What holds of a session and its contacts between two events. -/
inductive Patient (settings : Settings) (clock : Instant) (session : Session)
    (log : List (Instant × Contact)) : Prop where
  | waiting {patience : Patience} (waiting : session.phase = .waiting)
      (keeps : KeepsTo settings clock session log patience) : Patient settings clock session log
  | writing {packet : Downlink} {deadline : Instant} {next : Continuation} {patience : Patience}
      (writing : session.phase = .writing packet deadline next)
      (keeps : KeepsTo settings clock session log patience)
      (leaves : Leaves settings clock patience next) : Patient settings clock session log
  | ended {outcome : Outcome} {now : Instant} (ended : session.phase = .ended outcome)
      (follows : Follows (Patience.Next settings) .unconnected log .finished)
      (told : (now, .ended outcome) ∈ log) : Patient settings clock session log

section KeepsTo

variable {settings : Settings} {clock now : Instant} {session : Session}
  {log : List (Instant × Contact)} {patience : Patience}

theorem KeepsTo.phase (keeps : KeepsTo settings clock session log patience) (phase : Phase) :
    KeepsTo settings clock { session with phase } log patience :=
  ⟨keeps.follows, keeps.own, keeps.noActions, keeps.fits, by cases patience <;> exact keeps.sets,
    keeps.lasts⟩

theorem KeepsTo.keepalive (keeps : KeepsTo settings clock session log patience)
    (keepalive : Keepalive) : KeepsTo settings clock { session with keepalive } log patience :=
  ⟨keeps.follows, keeps.own, keeps.noActions, keeps.fits, by cases patience <;> exact keeps.sets,
    keeps.lasts⟩

theorem KeepsTo.notAuthenticated {since : Instant} {heard : Option Instant}
    (keeps : KeepsTo settings clock session log (.pending since heard)) :
    ¬ session.engine.IsAuthenticated := by
  rw [Engine.isAuthenticated_iff]
  rintro ⟨station, held⟩
  cases held.symm.trans keeps.fits

theorem KeepsTo.authenticated {heard : Instant}
    (keeps : KeepsTo settings clock session log (.held heard)) : session.engine.IsAuthenticated :=
  session.engine.isAuthenticated_iff.mpr keeps.fits

theorem KeepsTo.due_eq (keeps : KeepsTo settings clock session log patience) :
    patience.due? settings = some session.idleDeadline := by
  rw [Session.idleDeadline]
  cases patience with
  | unconnected | finished => exact keeps.fits.elim
  | pending since last =>
      rw [if_neg keeps.notAuthenticated]
      exact congrArg some keeps.sets.1.symm
  | held last =>
      rw [if_pos keeps.authenticated]
      exact congrArg some (Eq.symm keeps.sets)

theorem KeepsTo.hear (keeps : KeepsTo settings clock session log patience) (buffer : Bytes) :
    ∃ next, next.last? = some clock ∧
      KeepsTo settings clock
        { session with buffer, readDeadline := clock + session.settings.readTimeout }
        (log ++ [(clock, .heard)]) next := by
  obtain ⟨follows, own, noActions, fits, sets, lasts⟩ := keeps
  cases patience with
  | unconnected | finished => exact fits.elim
  | pending since last =>
      refine ⟨.pending since (some clock), rfl, follows.concat (.pendingHeard (lasts _ rfl)), own,
        noActions, fits, ⟨sets.1, ?_⟩, lasts⟩
      rintro heard ⟨⟩
      rw [own]
  | held last =>
      refine ⟨.held clock, rfl, follows.concat (.heldHeard (lasts _ rfl)), own, noActions, fits,
        congrArg (clock + Settings.readTimeout ·) own, ?_⟩
      rintro due ⟨⟩
      exact Nat.le_add_right clock settings.readTimeout

theorem KeepsTo.advance {handled : Handled} (keeps : KeepsTo settings clock session log patience)
    (same : handled.engine.state = session.engine.state) :
    KeepsTo settings clock (session.advance handled) log patience :=
  ⟨keeps.follows, keeps.own, rfl, same ▸ keeps.fits, by cases patience <;> exact keeps.sets,
    keeps.lasts⟩

/-- A handshake is accepted: the last read gives the limit from now on. -/
theorem KeepsTo.accept {handled : Handled} {station : Station} {heard : Instant}
    (keeps : KeepsTo settings clock session log patience)
    (fresh : session.engine.state = .connected)
    (held : handled.engine.state = .authenticated station) (known : patience.last? = some heard)
    (inTime : clock ≤ heard + settings.readTimeout) :
    KeepsTo settings clock (session.advance handled) (log ++ [(clock, .accepted)])
      (.held heard) := by
  obtain ⟨follows, own, noActions, fits, sets, lasts⟩ := keeps
  cases patience with
  | unconnected | finished => exact fits.elim
  | held last =>
      obtain ⟨_, held⟩ := fits
      rw [fresh] at held
      cases held
  | pending since last =>
      obtain rfl : last = some heard := known
      refine ⟨follows.concat (.accepted (lasts _ rfl)), own, rfl, ⟨station, held⟩, sets.2 _ rfl, ?_⟩
      rintro due ⟨⟩
      exact inTime

/-- A session ends for a reason that is none of the two limits. -/
theorem KeepsTo.ends {outcome : Outcome} (keeps : KeepsTo settings clock session log patience)
    (notUnaccepted : ∀ limit, outcome ≠ some (.handshakeTimeout limit))
    (notSilent : ∀ limit, outcome ≠ some (.readTimeout limit)) :
    Follows (Patience.Next settings) .unconnected (log ++ [(clock, .ended outcome)]) .finished := by
  have limited := keeps.due_eq
  exact keeps.follows.concat (.ends limited (keeps.lasts _ limited) notUnaccepted notSilent)

/-- A session ends because the limit in force is passed. -/
theorem KeepsTo.overdue (keeps : KeepsTo settings clock session log patience)
    (due : session.idleDeadline ≤ clock) :
    Follows (Patience.Next settings) .unconnected
      (log ++ [(clock, .ended (some session.idleError))]) .finished := by
  have limited := keeps.due_eq
  obtain rfl : clock = session.idleDeadline := Nat.le_antisymm (keeps.lasts _ limited) due
  rw [Session.idleError, keeps.own]
  cases patience with
  | unconnected | finished => exact keeps.fits.elim
  | pending since last =>
      rw [if_neg keeps.notAuthenticated, ← Option.some.inj limited]
      exact keeps.follows.concat (.unaccepted since last)
  | held last =>
      rw [if_pos keeps.authenticated, ← Option.some.inj limited]
      exact keeps.follows.concat (.silent last)

end KeepsTo

/-! ## From one event to the next -/

section Events

variable {settings : Settings} {directory : Directory} {clock : Instant} {hub after : Hub}
  {session last : Session} {log : List (Instant × Contact)} {deeds : List Deed}
  {patience : Patience}

theorem Patient.drains (drains : Session.Drains directory clock hub session deeds after last)
    (keeps : KeepsTo settings clock session log patience) {heard : Instant}
    (known : patience.last? = some heard) (inTime : clock ≤ heard + settings.readTimeout) :
    Patient settings clock last (log ++ (Session.shownBy deeds last).map (clock, ·)) := by
  induction drains generalizing log patience with
  | stop =>
      change Patient settings clock _ (log ++ [])
      rw [List.append_nil]
      exact .waiting rfl (keeps.phase _)
  | breach =>
      exact .ended rfl (keeps.ends nofun nofun) (List.mem_append_right _ List.mem_cons_self)
  | @write hub session handled keepalive packet rest nonempty called good performed =>
      have responds := responds_of_good keeps.noActions called good performed
      generalize Session.frontDeeds session.buffer ++
        Session.performDeeds handled.engine.actions = deeds at responds ⊢
      generalize state : handled.engine.state = reached at responds
      cases responds with
      | refuses =>
          change Patient settings clock _ (log ++ [])
          rw [List.append_nil]
          exact .writing rfl (((keeps.advance state).keepalive _).phase _)
            (.resume (Or.inl rfl) known inTime)
      | welcomes fresh =>
          exact .writing rfl (((keeps.accept fresh state known inTime).keepalive _).phase _)
            (.resume (Or.inr rfl) rfl inTime)
  | @next hub after session last handled keepalive later nonempty called good performed _ ih =>
      have responds := responds_of_good keeps.noActions called good performed
      have silent : (Session.frontDeeds session.buffer ++
          Session.performDeeds handled.engine.actions).filterMap Deed.contact? = [] ∧
          handled.engine.state = session.engine.state := by
        generalize Session.frontDeeds session.buffer ++
          Session.performDeeds handled.engine.actions = deeds at responds ⊢
        generalize state : handled.engine.state = reached at responds ⊢
        cases responds with
        | hears | reports => exact ⟨rfl, rfl⟩
      rw [Session.shownBy, List.filterMap_append, silent.1]
      exact ih ((keeps.advance silent.2).keepalive _) known

theorem Patient.keepsTo (patient : Patient settings clock session log)
    (waiting : session.phase = .waiting) :
    ∃ patience, KeepsTo settings clock session log patience := by
  cases patient with
  | waiting _ keeps => exact ⟨_, keeps⟩
  | writing other | ended other => cases waiting.symm.trans other

theorem Patient.leaves {packet : Downlink} {deadline : Instant} {next : Continuation}
    (patient : Patient settings clock session log)
    (writing : session.phase = .writing packet deadline next) :
    ∃ patience, KeepsTo settings clock session log patience ∧
      Leaves settings clock patience next := by
  cases patient with
  | writing other keeps leaves =>
      cases writing.symm.trans other
      exact ⟨_, keeps, leaves⟩
  | waiting other | ended other => cases writing.symm.trans other

/-- Whatever ends a session, the limits allow it now. -/
theorem Patient.ends {event : Event} {outcome : Outcome}
    (patient : Patient settings clock session log) (ending : session.Ending clock event outcome) :
    Follows (Patience.Next settings) .unconnected (log ++ [(clock, .ended outcome)]) .finished := by
  cases ending with
  | endOfStream waiting | readFault waiting | noPong waiting =>
      obtain ⟨patience, keeps⟩ := patient.keepsTo waiting
      exact keeps.ends nofun nofun
  | silence waiting due =>
      obtain ⟨patience, keeps⟩ := patient.keepsTo waiting
      exact keeps.overdue due
  | writeFault writing | slowWrite writing =>
      obtain ⟨patience, keeps, -⟩ := patient.leaves writing
      exact keeps.ends nofun nofun

theorem Patient.reads {bytes : Bytes} (patient : Patient settings clock session log)
    (waiting : session.phase = .waiting) (nonempty : bytes ≠ []) (hub : Hub) :
    Patient settings clock (session.step directory clock hub (.read bytes)).2
      (log ++ [(clock, .heard)] ++
        (Session.shownBy (session.deeds directory clock hub (.read bytes))
          (session.step directory clock hub (.read bytes)).2).map (clock, ·)) := by
  obtain ⟨patience, keeps⟩ := patient.keepsTo waiting
  obtain ⟨next, known, hears⟩ := keeps.hear (session.buffer ++ bytes)
  exact .drains (Session.drains_read directory clock hub waiting nonempty) hears known
    (Nat.le_add_right clock settings.readTimeout)

theorem Patient.steps {event : Event} (patient : Patient settings clock session log)
    (goesOn : session.outcome? = none) (unheard : session.hearing event = [])
    (steps : Session.Steps directory clock hub session event deeds after last) :
    Patient settings clock last (log ++ (Session.shownBy deeds last).map (clock, ·)) := by
  have aside {deeds : List Deed} {last : Session} (silent : Session.shownBy deeds last = [])
      (holds : Patient settings clock last log) :
      Patient settings clock last (log ++ (Session.shownBy deeds last).map (clock, ·)) := by
    rw [silent, List.map_nil, List.append_nil]
    exact holds
  cases steps with
  | idle =>
      refine aside ?_ patient
      rw [Session.shownBy, goesOn]
      rfl
  | ends ending =>
      exact .ended rfl (patient.ends ending) (List.mem_append_right _ List.mem_cons_self)
  | reads waiting nonempty =>
      rw [Session.hearing, if_pos ⟨waiting, nonempty⟩] at unheard
      cases unheard
  | requests waiting =>
      obtain ⟨patience, keeps⟩ := patient.keepsTo waiting
      exact aside rfl (.writing rfl (keeps.phase _) .wait)
  | pings waiting =>
      obtain ⟨patience, keeps⟩ := patient.keepsTo waiting
      exact aside rfl (.writing rfl (keeps.phase _) .awaitPong)
  | listens writing =>
      obtain ⟨patience, keeps, leaves⟩ := patient.leaves writing
      obtain ⟨follows, own, noActions, fits, sets, lasts⟩ := keeps
      cases leaves with
      | listen fresh =>
          subst fresh
          have renewed : clock + session.settings.handshakeTimeout =
              clock + settings.handshakeTimeout := by rw [own]
          exact aside rfl (.waiting rfl ⟨follows, own, noActions, fits, ⟨renewed, nofun⟩, lasts⟩)
  | waits writing =>
      obtain ⟨patience, keeps, -⟩ := patient.leaves writing
      exact aside rfl (.waiting rfl (keeps.phase _))
  | awaits writing =>
      obtain ⟨patience, keeps, -⟩ := patient.leaves writing
      exact aside rfl (.waiting rfl ((keeps.keepalive (session.keepalive.pingSent clock)).phase _))
  | replies writing performed =>
      obtain ⟨patience, -, leaves⟩ := patient.leaves writing
      cases leaves with
      | resume silent =>
          obtain rfl | rfl := silent <;> cases performed
  | @resumes packet deadline actions keepalive later after last writing performed drains =>
      obtain ⟨patience, keeps, leaves⟩ := patient.leaves writing
      cases leaves with
      | resume silent known inTime =>
          have quiet : (Session.performDeeds actions).filterMap Deed.contact? = [] := by
            obtain rfl | rfl := silent <;> rfl
          have shown : Session.shownBy (.wrote packet :: (Session.performDeeds actions ++ later))
              last = Session.shownBy later last := by
            change ((Session.performDeeds actions ++ later).filterMap Deed.contact?) ++ _ = _
            rw [List.filterMap_append, quiet]
            rfl
          rw [shown]
          exact .drains drains (keeps.keepalive _) known inTime

theorem Patient.step (patient : Patient settings clock session log) (hub : Hub) (event : Event) :
    Patient settings clock (session.step directory clock hub event).2
      (log ++ (session.contacts directory clock hub event).map (clock, ·)) := by
  have steps := session.steps_step directory clock hub event
  by_cases goesOn : session.outcome? = none
  · rw [Session.contacts, if_pos goesOn, List.map_append, ← List.append_assoc]
    by_cases unheard : session.hearing event = []
    · rw [unheard, List.map_nil, List.append_nil]
      exact patient.steps goesOn unheard steps
    · cases event with
      | read bytes =>
          by_cases reads : session.phase = .waiting ∧ bytes ≠ []
          · rw [Session.hearing, if_pos reads]
            exact patient.reads reads.1 reads.2 hub
          · exact absurd (if_neg reads) unheard
      | _ => exact absurd rfl unheard
  · rw [Session.contacts, if_neg goesOn, List.map_nil, List.append_nil]
    cases patient with
    | waiting waiting => exact absurd (outcome_of_waiting waiting) goesOn
    | writing writing => exact absurd (outcome_of_writing writing) goesOn
    | ended ended follows told =>
        have same : (session.step directory clock hub event).2 = session := by
          simp only [Session.step, ended]
        rw [same]
        exact .ended ended follows told

theorem Patient.start (settings : Settings) (now : Instant) (hub : Hub) :
    Patient settings now (Session.start settings now hub).2 [(now, .connected)] := by
  have begun : Follows (Patience.Next settings) .unconnected [(now, .connected)]
      (.pending now none) := .cons (.connected now) (.nil _)
  refine .writing rfl ⟨begun, rfl, rfl, rfl, ⟨rfl, nofun⟩, ?_⟩ (.listen rfl)
  rintro due ⟨⟩
  exact Nat.le_add_right now settings.handshakeTimeout

theorem Patient.passes {now : Instant} (patient : Patient settings clock session log)
    (lets : session.Lets now) : Patient settings now session log := by
  rw [Session.Lets] at lets
  cases patient with
  | @waiting patience waiting keeps =>
      rw [waiting] at lets
      refine .waiting waiting { keeps with lasts := ?_ }
      intro due limited
      rw [keeps.due_eq] at limited
      cases limited
      exact lets.2
  | writing writing =>
      rw [writing] at lets
      exact lets.elim
  | ended ended follows told => exact .ended ended follows told

/-- Whatever the session does, it is connected, and its limit is not passed yet. -/
theorem Patient.follows (patient : Patient settings clock session log) :
    ∃ patience, Follows (Patience.Next settings) .unconnected log patience ∧
      patience ≠ .unconnected ∧ patience.Lasts settings clock := by
  cases patient with
  | waiting _ keeps | writing _ keeps =>
      refine ⟨_, keeps.follows, ?_, keeps.lasts⟩
      rintro rfl
      exact keeps.fits
  | ended _ follows => exact ⟨.finished, follows, nofun, nofun⟩

theorem Patient.told {outcome : Outcome} (patient : Patient settings clock session log)
    (ended : session.outcome? = some outcome) : ∃ now, (now, .ended outcome) ∈ log := by
  cases patient with
  | waiting waiting => cases (outcome_of_waiting waiting).symm.trans ended
  | writing writing => cases (outcome_of_writing writing).symm.trans ended
  | ended isOver _ told =>
      rw [Session.outcome?, isOver] at ended
      cases ended
      exact ⟨_, told⟩

end Events

end Device

/-! ## Every session of every run -/

namespace Switchboard

open Device

def contactsOf (index : Nat) (board : Switchboard) : Move → List Contact :=
  ofDevice [.connected] Session.contacts index board

structure Waiting (index : Nat) (settings : Settings) (board : Switchboard) (clock : Instant)
    (log : List (Instant × Contact)) : Prop where
  own : board.settings = settings
  watched : Watched (Patient settings clock) board.devices[index]? log

section Waiting

variable {index : Nat} {settings : Settings} {board : Switchboard} {clock : Instant}
  {log : List (Instant × Contact)}

theorem limited_of_watched {session? : Option Session}
    (watched : Watched (Patient settings clock) session? log) : Limited settings clock log := by
  cases watched with
  | nobody => exact Patience.limited (.nil Patience.unconnected) nofun
  | somebody patient =>
      obtain ⟨patience, follows, -, lasts⟩ := patient.follows
      exact Patience.limited follows lasts

theorem Waiting.passes {now : Instant} (onTime : OnTime index board now)
    (waiting : Waiting index settings board clock log) : Waiting index settings board now log :=
  ⟨waiting.own, waiting.watched.mono fun session found patient =>
    patient.passes (onTime session found)⟩

theorem Waiting.step (move : Move) (waiting : Waiting index settings board move.instant log) :
    Waiting index settings (board.step move) move.instant
      (log ++ stamped (contactsOf index) board move) := by
  obtain ⟨own, watched⟩ := waiting
  refine ⟨(settings_step board move).trans own, ?_⟩
  have fate := deviceFate_step [.connected] Session.contacts index board move
  unfold stamped contactsOf
  generalize board.devices[index]? = before, (board.step move).devices[index]? = after,
    ofDevice [.connected] Session.contacts index board move = shown at fate watched ⊢
  cases fate with
  | acts session now event => exact .somebody (watched.holds.step board.hub event)
  | stays | nobody =>
      rw [List.map_nil, List.append_nil]
      exact watched
  | begins now =>
      cases watched
      rw [own]
      exact .somebody (.start ..)

end Waiting

/-- In every run in which its timers fire when they are due and its writes take no time, a device
session keeps to the limit for the handshake and to the limit for silence.  Every such run can go on
to any later instant. -/
theorem limited_run (directory : Directory) (settings : Settings) {begins ends : Instant}
    {moves : List Move} {index : Nat}
    (paced : Paced (OnTime index) (start directory settings) begins moves ends) :
    let log := (start directory settings).trace (stamped (contactsOf index)) moves
    Limited settings ends log ∧ (log.map Prod.fst).Pairwise (· ≤ ·) ∧
      (∀ {session : Session},
        ((start directory settings).run moves).devices[index]? = some session →
          (∃ since rest, log = (since, .connected) :: rest) ∧
            ∀ {outcome : Outcome}, session.outcome? = some outcome →
              ∃ now, (now, .ended outcome) ∈ log) ∧
      ∀ {later : Instant}, ends ≤ later → ∃ more, (∀ move ∈ more, Move.Tends index move) ∧
        Paced (OnTime index) (start directory settings) begins (moves ++ more) later := by
  intro log
  have begun : Waiting index settings (start directory settings) begins [] := ⟨rfl, .nobody⟩
  have waiting : Waiting index settings ((start directory settings).run moves) ends log :=
    @Paced.induction (OnTime index) Contact (contactsOf index) (Waiting index settings)
      (fun _ onTime waiting => waiting.passes onTime)
      (fun move waiting => waiting.step move) _ _ _ [] moves paced begun
  refine ⟨limited_of_watched waiting.watched, paced.sorted.1, ?_,
    paced.endures (endures_onTime index _ ends)⟩
  intro session found
  have patient := (found ▸ waiting.watched).holds
  obtain ⟨patience, follows, begun, -⟩ := patient.follows
  exact ⟨Patience.begins follows begun, patient.told⟩

/-- A handshake is refused, the next is accepted, and the device falls silent behind a part of a
packet; a ping does not help it. -/
theorem limited_run_part_of_a_packet :
    let directory : Directory := ⟨fun _ => true, Station.defaultName⟩
    let settings : Settings := { pongTimeout := 60000 }
    let hello := fun station => Uplink.encode (.hello ⟨List.replicate 16 0x40, rfl⟩ station)
    let moves : List Move :=
      [.connectDevice 0, .device 0 0 .written, .device 0 20000 (.read (hello 9)),
        .device 0 20000 .written, .device 0 25000 (.read (hello 1)), .device 0 25000 .written,
        .device 0 31000 (.read ((hello 1).take 5)), .device 0 35000 .keepaliveDue,
        .device 0 35000 .written, .device 0 61000 .idleDue]
    let log := (start directory settings).trace (stamped (contactsOf 0)) moves
    Paced (OnTime 0) (start directory settings) 0 moves 70000 ∧ Limited settings 70000 log ∧
      log = [(0, .connected), (20000, .heard), (25000, .heard), (25000, .accepted),
        (31000, .heard), (61000, .ended (some (.readTimeout 30000)))] := by
  intro directory settings hello moves log
  have paced : Paced (OnTime 0) (start directory settings) 0 moves 70000 := by decide +kernel
  exact ⟨paced, (limited_run directory settings paced).1, by decide +kernel⟩

end Switchboard

end StationRelay
