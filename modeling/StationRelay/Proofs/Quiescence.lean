import StationRelay.Proofs.BrowserLoads

/-!
# Relays come to rest

A relay settles, and waits, within a bound that it counts down.  The bound is
enough: it is the load, and every advance lowers the load.  A relay at rest stays
so until its earliest deadline, and there something can happen, so each stop of a
wait lowers the load as well.  `Reached.atRest` is the result: whatever comes from
outside, nothing more can happen once the relay has dealt with it.
-/

namespace StationRelay

/-! ## Deadlines -/

theorem exists_min?_le {instants : List Instant} {instant : Instant} (listed : instant ∈ instants) :
    ∃ least, instants.min? = some least ∧ least ≤ instant := by
  cases isLeast : instants.min? with
  | none =>
      rw [List.min?_eq_none_iff.mp isLeast] at listed
      cases listed
  | some least => exact ⟨least, rfl, (List.min?_eq_some_iff.mp isLeast).2 instant listed⟩

namespace Device.Connection

variable {directory : Directory} {now later : Instant} {hub : Hub} {connection : Connection}

/-- The timers of a session that waits act from one deadline on. -/
theorem exists_deadline_of_waiting (waiting : connection.session.phase = .waiting) :
    ∃ deadline, connection.nextDeadline? = some deadline ∧
      ∀ now, (timer? now connection.session).isSome = true ↔ deadline ≤ now := by
  unfold nextDeadline? timer?
  dsimp only
  rw [waiting]
  rcases connection.session.keepalive.pending with _ | ⟨limit, timer⟩
  · refine ⟨_, rfl, fun now => ?_⟩
    by_cases due : connection.session.idleDeadline ≤ now <;> simp [due]
  · refine ⟨_, rfl, fun now => ?_⟩
    have first (early late : Nat) : min early late ≤ now ↔ early ≤ now ∨ late ≤ now := by omega
    rw [first]
    by_cases rings : limit ≤ now
    · simp [rings]
    · by_cases due : connection.session.idleDeadline ≤ now <;> simp [rings, due]

/-- Something can happen at a deadline. -/
theorem isSome_advance?_of_due {deadline : Instant}
    (found : connection.nextDeadline? = some deadline) (due : deadline ≤ now) :
    (connection.advance? directory now hub).isSome = true := by
  rw [advance?, Option.isSome_map]
  unfold nextEvent?
  dsimp only
  cases phase : connection.session.phase with
  | ended =>
      rw [nextDeadline?, phase] at found
      cases found
  | writing packet limit next =>
      rw [nextDeadline?, phase] at found
      cases found
      dsimp only
      unfold write?
      split
      · rfl
      · rfl
      · rw [if_pos due]
        rfl
  | waiting =>
      obtain ⟨limit, isNext, rings⟩ := exists_deadline_of_waiting phase
      obtain rfl := Option.some.inj (isNext.symm.trans found)
      obtain ⟨event, next⟩ := Option.isSome_iff_exists.mp ((rings now).mpr due)
      dsimp only
      rw [next]
      rfl

/-- Only a deadline makes something happen that could not happen before. -/
theorem advance?_eq_none_of_early (rest : connection.advance? directory now hub = none)
    (early : ∀ deadline, connection.nextDeadline? = some deadline → later < deadline) :
    connection.advance? directory later hub = none := by
  rw [advance?, Option.map_eq_none_iff] at rest ⊢
  unfold nextEvent? at rest ⊢
  dsimp only at rest ⊢
  cases phase : connection.session.phase with
  | ended => rfl
  | writing packet limit next =>
      have waits := early limit (by rw [nextDeadline?, phase])
      simp only [phase] at rest ⊢
      unfold write? at rest ⊢
      split at rest
      · cases rest
      · cases rest
      · exact if_neg (Nat.not_le_of_lt waits)
  | waiting =>
      obtain ⟨limit, isNext, rings⟩ := exists_deadline_of_waiting phase
      have silent : timer? later connection.session = none := by
        rw [← Option.not_isSome_iff_eq_none, rings]
        exact Nat.not_le_of_lt (early limit isNext)
      simp only [phase, Option.or_eq_none_iff] at rest ⊢
      exact ⟨silent, rest.2⟩

end Device.Connection

namespace Browser.Connection

variable {directory : Directory} {now later : Instant} {hub : Hub} {connection : Connection}

theorem isSome_timer?_iff {session : Session} (running : session.outcome = none) :
    (timer? now session).isSome = true ↔ ∃ deadline ∈ deadlines session, deadline ≤ now := by
  have notEnded : ¬ session.outcome.isSome = true := by simp [running]
  have due (option : Option Instant) :
      option.any (· ≤ now) = true ↔ ∃ deadline ∈ option.toList, deadline ≤ now := by
    cases option <;> simp
  unfold timer? deadlines
  dsimp only
  rw [if_neg notEnded]
  simp only [due, List.mem_append, or_and_right, exists_or]
  by_cases sends : ∃ deadline ∈ (session.sender.inFlight.map Prod.snd).toList, deadline ≤ now
  · rw [if_pos sends]
    exact iff_of_true rfl (Or.inl sends)
  rw [if_neg sends, or_iff_right sends]
  by_cases isOpen : session.IsOpen
  · rw [if_pos isOpen]
    simp only [isOpen, true_and, List.mem_append, or_and_right, exists_or]
    by_cases pings : ∃ deadline ∈ (session.keepalive.pending.map Prod.fst).toList, deadline ≤ now
    · rw [if_pos pings]
      exact iff_of_true rfl (Or.inl pings)
    rw [if_neg pings, or_iff_right pings]
    by_cases part : session.buffer ≠ []
    · rw [if_pos part]
      by_cases slow : session.readDeadline ≤ now <;> simp [part, slow]
    · simp [part]
  · simp [isOpen]

section Instants

variable (directory : Directory) (now later : Instant) (hub : Hub) (connection : Connection)
  (session : Session)

/-- What is written does not depend on the instant. -/
theorem isSome_advanceWrite? :
    (connection.advanceWrite? directory now hub session).isSome =
      (connection.advanceWrite? directory later hub session).isSome := by
  unfold advanceWrite?
  dsimp only
  split
  · rfl
  split
  · rfl
  split
  · rfl
  · rfl
  · split <;> rfl

theorem isSome_advanceRead? :
    (connection.advanceRead? directory now hub session).isSome =
      (connection.advanceRead? directory later hub session).isSome := by
  unfold advanceRead?
  dsimp only
  split
  · rfl
  split
  · rfl
  split
  · rfl
  split
  · split <;> rfl
  · rfl

end Instants

theorem isSome_advance?_of_due {deadline : Instant}
    (found : connection.nextDeadline? = some deadline) (due : deadline ≤ now) :
    (connection.advance? directory now hub).isSome = true := by
  unfold nextDeadline? at found
  unfold advance?
  cases stage : connection.stage with
  | upgrading opening limit =>
      rw [stage] at found
      cases found
      dsimp only
      unfold advanceUpgrade?
      rw [if_pos due]
      split
      · rfl
      · split <;> rfl
      · split <;> rfl
  | rejected =>
      rw [stage] at found
      cases found
  | serving session =>
      rw [stage] at found
      dsimp only at found ⊢
      have listed := (List.min?_eq_some_iff.mp found).1
      have running : session.outcome = none := by
        cases ended : session.outcome with
        | none => rfl
        | some outcome => simp [deadlines, ended] at listed
      have notEnded : ¬ session.outcome.isSome = true := by simp [running]
      have rings := (isSome_timer?_iff running).mpr ⟨deadline, listed, due⟩
      rw [if_neg notEnded, advanceSession?, Option.isSome_or, Option.isSome_map, rings,
        Bool.or_true]

theorem advance?_eq_none_of_early (rest : connection.advance? directory now hub = none)
    (early : ∀ deadline, connection.nextDeadline? = some deadline → later < deadline) :
    connection.advance? directory later hub = none := by
  unfold nextDeadline? at early
  unfold advance? at rest ⊢
  cases stage : connection.stage with
  | upgrading opening limit =>
      rw [stage] at rest early
      dsimp only at rest ⊢
      have waits := Nat.not_le_of_lt (early limit rfl)
      unfold advanceUpgrade? at rest ⊢
      rw [if_neg waits]
      cases opening with
      | invalid => cases rest
      | unfinished =>
          dsimp only at rest ⊢
          split at rest
          · cases rest
          · rfl
      | valid =>
          dsimp only at rest ⊢
          split at rest
          · cases rest
          · cases rest
          · rfl
  | rejected => rfl
  | serving session =>
      rw [stage] at rest early
      dsimp only at rest early ⊢
      by_cases ended : session.outcome.isSome = true
      · exact if_pos ended
      · rw [if_neg ended] at rest ⊢
        have running := Option.not_isSome_iff_eq_none.mp ended
        have silent : timer? later session = none := by
          rw [← Option.not_isSome_iff_eq_none, isSome_timer?_iff running]
          rintro ⟨deadline, listed, due⟩
          obtain ⟨least, isLeast, first⟩ := exists_min?_le listed
          exact Nat.not_le_of_lt (early least isLeast) (Nat.le_trans first due)
        unfold advanceSession? at rest ⊢
        dsimp only at rest ⊢
        rw [Option.or_eq_none_iff, Option.or_eq_none_iff] at rest ⊢
        obtain ⟨⟨write, read⟩, -⟩ := rest
        refine ⟨⟨?_, ?_⟩, by rw [silent]; rfl⟩
        · rwa [← Option.not_isSome_iff_eq_none, isSome_advanceWrite? directory now later,
            Option.not_isSome_iff_eq_none] at write
        · split at read
          · rename_i isOpen
            rw [Option.or_eq_none_iff] at read
            obtain ⟨message, waits⟩ := read
            rw [← Option.not_isSome_iff_eq_none, isSome_advanceRead? directory now later,
              Option.not_isSome_iff_eq_none] at message
            rw [if_pos isOpen, message, Option.none_or]
            split at waits
            · cases waits
            · rename_i nothing
              exact if_neg nothing
          · rename_i shut
            exact if_neg shut

end Browser.Connection

namespace Connection

/-- What holds of a connection of either kind between two advances. -/
def Sound : Connection → Prop
  | .device _ => True
  | .browser connection => connection.Sound

def Idle (directory : Directory) (now : Instant) (hub : Hub) : Connection → Prop
  | .device connection => connection.advance? directory now hub = none
  | .browser connection => connection.advance? directory now hub = none

variable {directory : Directory} {now later : Instant} {hub : Hub} {connection : Connection}

theorem Idle.of_early (idle : connection.Idle directory now hub)
    (early : ∀ deadline, connection.nextDeadline? = some deadline → later < deadline) :
    connection.Idle directory later hub := by
  cases connection with
  | device connection => exact Device.Connection.advance?_eq_none_of_early idle early
  | browser connection => exact Browser.Connection.advance?_eq_none_of_early idle early

theorem not_idle_of_due {deadline : Instant} (isNext : connection.nextDeadline? = some deadline)
    (due : deadline ≤ now) : ¬ connection.Idle directory now hub := by
  cases connection with
  | device connection =>
      exact Option.isSome_iff_ne_none.mp (Device.Connection.isSome_advance?_of_due isNext due)
  | browser connection =>
      exact Option.isSome_iff_ne_none.mp (Browser.Connection.isSome_advance?_of_due isNext due)

end Connection

namespace Relay

variable {relay last : Relay} {index bound rounds : Nat}

/-! ## Advances -/

def Sound (relay : Relay) : Prop :=
  ∀ (index : Nat) (connection : Connection),
    relay.connections[index]? = some connection → connection.Sound

def AtRest (relay : Relay) : Prop :=
  ∀ index, relay.advance? index = none

theorem advance?_eq_none_iff : relay.advance? index = none ↔
    ∀ connection, relay.connections[index]? = some connection →
      connection.Idle relay.directory relay.now relay.hub := by
  unfold advance?
  split
  · rename_i absent
    exact iff_of_true rfl fun connection found => by rw [absent] at found; cases found
  all_goals
    rename_i connection found
    simp only [Option.map_eq_none_iff, found, Option.some.injEq, forall_eq']
    rfl

theorem isBusy_eq_false_iff : relay.isBusy = false ↔ relay.AtRest := by
  rw [isBusy, List.any_eq_false]
  constructor
  · intro idle index
    by_cases inside : index < relay.connections.length
    · exact Option.not_isSome_iff_eq_none.mp (idle index (List.mem_range.mpr inside))
    · rw [advance?, List.getElem?_eq_none (Nat.le_of_not_lt inside)]
  · intro rest index _
    rw [rest index]
    exact Bool.false_ne_true

theorem Sound.update {connection : Connection} (sound : relay.Sound) (keeps : connection.Sound)
    (index : Nat) (hub : Hub) (notices : List (Notice Sent)) :
    (relay.update index hub connection notices).Sound := by
  intro other found isFound
  simp only [Relay.update, List.getElem?_set] at isFound
  split at isFound
  · split at isFound
    · cases isFound
      exact keeps
    · cases isFound
  · exact sound other found isFound

theorem load_update_lt {old new : Connection} (found : relay.connections[index]? = some old)
    (hub : Hub) (notices : List (Notice Sent))
    (lower : hub.load + new.load < relay.hub.load + old.load) :
    (relay.update index hub new notices).load < relay.load := by
  have replaced := total_set Connection.load found new
  simp only [load, update] at replaced ⊢
  omega

/-- What advances one after another keep, and that they cannot raise the load. -/
structure Leads (relay last : Relay) : Prop where
  now : last.now = relay.now
  load : last.load ≤ relay.load
  sound : last.Sound

theorem Leads.refl (sound : relay.Sound) : Leads relay relay :=
  ⟨rfl, Nat.le_refl _, sound⟩

theorem Leads.trans {first : Relay} (leads : Leads first relay) (goesOn : Leads relay last) :
    Leads first last :=
  ⟨goesOn.now.trans leads.now, Nat.le_trans goesOn.load leads.load, goesOn.sound⟩

/-- Every advance lowers the load. -/
theorem leads_of_advance? (sound : relay.Sound) (advanced : relay.advance? index = some last) :
    Leads relay last ∧ last.load < relay.load := by
  have both : last.now = relay.now ∧ last.Sound ∧ last.load < relay.load := by
    unfold advance? at advanced
    split at advanced
    · cases advanced
    · rename_i connection found
      obtain ⟨⟨hub, stepped, notices⟩, steps, rfl⟩ := Option.map_eq_some_iff.mp advanced
      have keeps : (Connection.device stepped).Sound := trivial
      refine ⟨rfl, sound.update keeps index hub _, load_update_lt found hub _ ?_⟩
      exact Device.Connection.load_of_advance? steps
    · rename_i connection found
      obtain ⟨advance, steps, rfl⟩ := Option.map_eq_some_iff.mp advanced
      have keeps : (Connection.browser advance.connection).Sound :=
        Browser.Connection.sound_of_advance? (sound _ _ found) steps
      refine ⟨rfl, sound.update keeps index advance.hub _, load_update_lt found advance.hub _ ?_⟩
      exact Browser.Connection.load_of_advance? (sound _ _ found) steps
  obtain ⟨now, keeps, lower⟩ := both
  exact ⟨⟨now, Nat.le_of_lt lower, keeps⟩, lower⟩

/-! ## Settling -/

/-- What is allowed is enough for one advance more. -/
theorem lt_of_advance? (sound : relay.Sound) (advanced : relay.advance? index = some last)
    (enough : relay.load ≤ bound) : ∃ rest, bound = rest + 1 ∧ last.load ≤ rest := by
  have lower := (leads_of_advance? sound advanced).2
  exact ⟨bound - 1, by omega, by omega⟩

theorem leads_exhaust (sound : relay.Sound) (index bound : Nat) :
    Leads relay (exhaust index bound relay) := by
  induction bound generalizing relay with
  | zero => exact Leads.refl sound
  | succ bound ih =>
      rw [exhaust]
      split
      · rename_i mid advanced
        obtain ⟨leads, -⟩ := leads_of_advance? sound advanced
        exact leads.trans (ih leads.sound)
      · exact Leads.refl sound

theorem exhaust_of_none (nothing : relay.advance? index = none) (bound : Nat) :
    exhaust index bound relay = relay := by
  cases bound <;> simp only [exhaust, nothing]

theorem load_exhaust_lt (sound : relay.Sound) (some_bound : 0 < bound)
    (advanced : relay.advance? index = some last) :
    (exhaust index bound relay).load < relay.load := by
  obtain ⟨bound, rfl⟩ := Nat.exists_eq_add_one.mpr some_bound
  obtain ⟨leads, lower⟩ := leads_of_advance? sound advanced
  simp only [exhaust, advanced]
  exact Nat.lt_of_le_of_lt (leads_exhaust leads.sound index bound).load lower

/-- More advances than the load are of no use. -/
theorem exhaust_eq (sound : relay.Sound) (enough : relay.load ≤ bound) {other : Nat}
    (alsoEnough : relay.load ≤ other) : exhaust index bound relay = exhaust index other relay := by
  induction bound generalizing relay other with
  | zero =>
      cases advanced : relay.advance? index with
      | none => rw [exhaust_of_none advanced, exhaust_of_none advanced]
      | some mid =>
          obtain ⟨rest, empty, -⟩ := lt_of_advance? sound advanced enough
          cases empty
  | succ bound ih =>
      cases advanced : relay.advance? index with
      | none => rw [exhaust_of_none advanced, exhaust_of_none advanced]
      | some mid =>
          obtain ⟨rest, rfl, fewer⟩ := lt_of_advance? sound advanced alsoEnough
          have lower := (leads_of_advance? sound advanced).2
          simp only [exhaust, advanced]
          exact ih (leads_of_advance? sound advanced).1.sound (by omega) fewer

theorem leads_exhaustEach (sound : relay.Sound) (bound : Nat) (indices : List Nat) :
    Leads relay (exhaustEach bound indices relay) := by
  induction indices generalizing relay with
  | nil => exact Leads.refl sound
  | cons index rest ih =>
      have first := leads_exhaust sound index bound
      exact first.trans (ih first.sound)

theorem exhaustEach_eq (sound : relay.Sound) (enough : relay.load ≤ bound) {other : Nat}
    (alsoEnough : relay.load ≤ other) (indices : List Nat) :
    exhaustEach bound indices relay = exhaustEach other indices relay := by
  induction indices generalizing relay with
  | nil => rfl
  | cons index rest ih =>
      have first := leads_exhaust sound index other
      rw [exhaustEach, exhaustEach, exhaust_eq sound enough alsoEnough]
      exact ih first.sound (Nat.le_trans first.load enough) (Nat.le_trans first.load alsoEnough)

theorem load_exhaustEach_lt (sound : relay.Sound) (some_bound : 0 < bound) {indices : List Nat}
    (busy : ∃ index ∈ indices, relay.advance? index ≠ none) :
    (exhaustEach bound indices relay).load < relay.load := by
  induction indices with
  | nil =>
      obtain ⟨index, listed, -⟩ := busy
      cases listed
  | cons first rest ih =>
      rw [exhaustEach]
      cases advanced : relay.advance? first with
      | none =>
          obtain ⟨index, listed, possible⟩ := busy
          rw [exhaust_of_none advanced]
          rcases List.mem_cons.mp listed with rfl | later
          · exact absurd advanced possible
          · exact ih ⟨index, later, possible⟩
      | some mid =>
          have others := leads_exhaustEach (leads_exhaust sound first bound).sound bound rest
          exact Nat.lt_of_le_of_lt others.load (load_exhaust_lt sound some_bound advanced)

theorem exists_advance?_of_isBusy (busy : relay.isBusy = true) :
    ∃ index ∈ List.range relay.connections.length, relay.advance? index ≠ none := by
  obtain ⟨index, listed, possible⟩ := List.any_eq_true.mp busy
  exact ⟨index, listed, Option.isSome_iff_ne_none.mp possible⟩

/-- A round with something to do is allowed to do it, and lowers the load. -/
theorem load_round_lt (sound : relay.Sound) (enough : relay.load ≤ bound)
    (busy : relay.isBusy = true) : (relay.round bound).load < relay.load := by
  obtain ⟨index, listed, possible⟩ := exists_advance?_of_isBusy busy
  obtain ⟨mid, advanced⟩ := Option.ne_none_iff_exists'.mp possible
  obtain ⟨rest, rfl, -⟩ := lt_of_advance? sound advanced enough
  exact load_exhaustEach_lt sound (Nat.succ_pos rest) ⟨index, listed, possible⟩

theorem leads_settleWithin (sound : relay.Sound) (bound rounds : Nat) :
    Leads relay (settleWithin bound rounds relay) := by
  induction rounds generalizing relay with
  | zero => exact Leads.refl sound
  | succ rounds ih =>
      rw [settleWithin]
      split
      · have first : Leads relay (relay.round bound) := leads_exhaustEach sound bound _
        exact first.trans (ih first.sound)
      · exact Leads.refl sound

/-- As many rounds as the load are enough. -/
theorem atRest_settleWithin (sound : relay.Sound) (enough : relay.load ≤ bound)
    (rounds_enough : relay.load ≤ rounds) : (settleWithin bound rounds relay).AtRest := by
  induction rounds generalizing relay with
  | zero =>
      refine isBusy_eq_false_iff.mp (Bool.eq_false_iff.mpr fun busy => ?_)
      have lower := load_round_lt sound enough busy
      omega
  | succ rounds ih =>
      rw [settleWithin]
      split
      · rename_i busy
        have first : Leads relay (relay.round bound) := leads_exhaustEach sound bound _
        have lower := load_round_lt sound enough busy
        exact ih first.sound (Nat.le_trans first.load enough) (by omega)
      · rename_i idle
        exact isBusy_eq_false_iff.mp (Bool.eq_false_iff.mpr idle)

theorem settleWithin_of_atRest (rest : relay.AtRest) (bound rounds : Nat) :
    settleWithin bound rounds relay = relay := by
  cases rounds with
  | zero => rfl
  | succ rounds =>
      rw [settleWithin, isBusy_eq_false_iff.mpr rest]
      rfl

theorem settleWithin_eq {other more : Nat} (sound : relay.Sound) (enough : relay.load ≤ bound)
    (alsoEnough : relay.load ≤ other) (rounds_enough : relay.load ≤ rounds)
    (more_enough : relay.load ≤ more) :
    settleWithin bound rounds relay = settleWithin other more relay := by
  induction rounds generalizing relay more with
  | zero =>
      have rest := atRest_settleWithin sound enough rounds_enough
      exact (settleWithin_of_atRest rest other more).symm
  | succ rounds ih =>
      cases busy : relay.isBusy with
      | false =>
          have rest := isBusy_eq_false_iff.mp busy
          rw [settleWithin_of_atRest rest, settleWithin_of_atRest rest]
      | true =>
          have lower := load_round_lt sound enough busy
          obtain ⟨more, rfl⟩ : ∃ fewer, more = fewer + 1 := ⟨more - 1, by omega⟩
          have same : relay.round bound = relay.round other :=
            exhaustEach_eq sound enough alsoEnough _
          have first : Leads relay (relay.round bound) := leads_exhaustEach sound bound _
          rw [settleWithin, settleWithin, if_pos busy, if_pos busy, ← same]
          exact ih first.sound (by omega) (by omega) (by omega) (by omega)

/-- A round that is allowed lowers the load of a busy relay. -/
theorem load_settleWithin_lt (sound : relay.Sound) (enough : relay.load ≤ bound)
    (some_rounds : 0 < rounds) (busy : relay.isBusy = true) :
    (settleWithin bound rounds relay).load < relay.load := by
  obtain ⟨rounds, rfl⟩ := Nat.exists_eq_add_one.mpr some_rounds
  have first : Leads relay (relay.round bound) := leads_exhaustEach sound bound _
  have others := leads_settleWithin first.sound bound rounds
  rw [settleWithin, if_pos busy]
  exact Nat.lt_of_le_of_lt others.load (load_round_lt sound enough busy)

/-- A relay that has dealt with everything there is now. -/
structure Quiet (relay : Relay) : Prop where
  sound : relay.Sound
  atRest : relay.AtRest

theorem leads_settle (sound : relay.Sound) : Leads relay relay.settle :=
  leads_settleWithin sound _ _

/-- Settling stops because nothing more can happen. -/
theorem quiet_settle (sound : relay.Sound) : relay.settle.Quiet :=
  ⟨(leads_settle sound).sound, atRest_settleWithin sound (Nat.le_refl _) (Nat.le_refl _)⟩

/-- The bounds of settling do not count, if they are no less than the load. -/
theorem settle_eq (sound : relay.Sound) (enough : relay.load ≤ bound)
    (rounds_enough : relay.load ≤ rounds) : relay.settle = settleWithin bound rounds relay :=
  settleWithin_eq sound (Nat.le_refl _) enough (Nat.le_refl _) rounds_enough

theorem load_settle_lt (sound : relay.Sound) (unsettled : ¬ relay.AtRest) :
    relay.settle.load < relay.load := by
  have busy : relay.isBusy = true := by rwa [← Bool.not_eq_false, isBusy_eq_false_iff]
  have some_load : 0 < relay.load := Nat.zero_lt_of_lt (load_round_lt sound (Nat.le_refl _) busy)
  exact load_settleWithin_lt sound (Nat.le_refl _) some_load busy

/-! ## Waiting -/

theorem nextDeadline?_le {connection : Connection} {deadline : Instant}
    (found : relay.connections[index]? = some connection)
    (isNext : connection.nextDeadline? = some deadline) :
    ∃ earliest, relay.nextDeadline? = some earliest ∧ earliest ≤ deadline := by
  refine exists_min?_le (List.mem_filterMap.mpr ⟨connection, ?_, isNext⟩)
  exact List.mem_of_getElem? found

/-- A relay at rest stays so until its earliest deadline. -/
theorem AtRest.atInstant (rest : relay.AtRest) {instant : Instant}
    (early : ∀ deadline, relay.nextDeadline? = some deadline → instant < deadline) :
    (relay.atInstant instant).AtRest := by
  intro index
  refine advance?_eq_none_iff.mpr fun connection found => ?_
  refine (advance?_eq_none_iff.mp (rest index) connection found).of_early fun deadline isNext => ?_
  obtain ⟨earliest, isEarliest, first⟩ := nextDeadline?_le found isNext
  exact Nat.lt_of_lt_of_le (early earliest isEarliest) first

/-- At its earliest deadline something can happen to a relay. -/
theorem not_atRest_of_due {deadline : Instant} (isNext : relay.nextDeadline? = some deadline)
    (due : deadline ≤ relay.now) : ¬ relay.AtRest := by
  intro rest
  obtain ⟨connection, listed, isDeadline⟩ :=
    List.mem_filterMap.mp (List.min?_eq_some_iff.mp isNext).1
  obtain ⟨index, found⟩ := List.mem_iff_getElem?.mp listed
  exact Connection.not_idle_of_due isDeadline due
    (advance?_eq_none_iff.mp (rest index) connection found)

theorem Quiet.lt_nextDeadline (quiet : relay.Quiet) {deadline : Instant}
    (isNext : relay.nextDeadline? = some deadline) : relay.now < deadline :=
  Nat.lt_of_not_le fun due => not_atRest_of_due isNext due quiet.atRest

/-- A quiet relay waits until its earliest deadline, and what happens there lowers its load. -/
theorem Quiet.stop (quiet : relay.Quiet) {deadline : Instant}
    (isNext : relay.nextDeadline? = some deadline) :
    (relay.atInstant (max relay.now deadline)).settle.Quiet ∧
      (relay.atInstant (max relay.now deadline)).settle.load < relay.load := by
  rw [Nat.max_eq_right (Nat.le_of_lt (quiet.lt_nextDeadline isNext))]
  have sound : (relay.atInstant deadline).Sound := quiet.sound
  have due : ¬ (relay.atInstant deadline).AtRest := not_atRest_of_due isNext (Nat.le_refl _)
  exact ⟨quiet_settle sound, load_settle_lt sound due⟩

theorem Quiet.arrive {until_ : Instant} (quiet : relay.Quiet)
    (early : ∀ deadline, relay.nextDeadline? = some deadline → until_ < deadline) :
    (relay.atInstant until_).Quiet ∧ (relay.atInstant until_).now = until_ :=
  ⟨⟨quiet.sound, quiet.atRest.atInstant early⟩, rfl⟩

theorem early_or_due (relay : Relay) (until_ : Instant) :
    (∀ deadline, relay.nextDeadline? = some deadline → until_ < deadline) ∨
      ∃ deadline, relay.nextDeadline? = some deadline ∧ deadline ≤ until_ := by
  cases relay.nextDeadline? with
  | none =>
      left
      intro deadline isNext
      cases isNext
  | some deadline =>
      rcases Nat.lt_or_ge until_ deadline with early | due
      · left
        intro other isNext
        cases isNext
        exact early
      · exact Or.inr ⟨deadline, rfl, due⟩

theorem waitWithin_of_early {until_ : Instant}
    (early : ∀ deadline, relay.nextDeadline? = some deadline → until_ < deadline) (stops : Nat) :
    waitWithin until_ stops relay = relay.atInstant until_ := by
  cases stops with
  | zero => rfl
  | succ stops =>
      rw [waitWithin]
      split
      · rfl
      · rename_i deadline isNext
        exact if_pos (early deadline isNext)

theorem waitWithin_of_due {until_ deadline : Instant}
    (isNext : relay.nextDeadline? = some deadline) (due : deadline ≤ until_) (stops : Nat) :
    waitWithin until_ (stops + 1) relay =
      waitWithin until_ stops (relay.atInstant (max relay.now deadline)).settle := by
  rw [waitWithin, isNext]
  exact if_neg (Nat.not_lt_of_le due)

/-- A relay that waits stops only where something happens, so that its load bounds the number of
stops. -/
theorem quiet_waitWithin {until_ : Instant} {stops : Nat} (quiet : relay.Quiet)
    (enough : relay.load ≤ stops) :
    (waitWithin until_ stops relay).Quiet ∧ (waitWithin until_ stops relay).now = until_ := by
  induction stops generalizing relay with
  | zero =>
      rcases relay.early_or_due until_ with early | ⟨deadline, isNext, -⟩
      · rw [waitWithin_of_early early]
        exact quiet.arrive early
      · have lower := (quiet.stop isNext).2
        omega
  | succ stops ih =>
      rcases relay.early_or_due until_ with early | ⟨deadline, isNext, due⟩
      · rw [waitWithin_of_early early]
        exact quiet.arrive early
      · obtain ⟨stopped, lower⟩ := quiet.stop isNext
        rw [waitWithin_of_due isNext due]
        exact ih stopped (by omega)

theorem waitWithin_eq {until_ : Instant} {stops more : Nat} (quiet : relay.Quiet)
    (enough : relay.load ≤ stops) (alsoEnough : relay.load ≤ more) :
    waitWithin until_ stops relay = waitWithin until_ more relay := by
  induction stops generalizing relay more with
  | zero =>
      rcases relay.early_or_due until_ with early | ⟨deadline, isNext, -⟩
      · rw [waitWithin_of_early early, waitWithin_of_early early]
      · have lower := (quiet.stop isNext).2
        omega
  | succ stops ih =>
      rcases relay.early_or_due until_ with early | ⟨deadline, isNext, due⟩
      · rw [waitWithin_of_early early, waitWithin_of_early early]
      · obtain ⟨stopped, lower⟩ := quiet.stop isNext
        obtain ⟨fewer, rfl⟩ : ∃ fewer, more = fewer + 1 := ⟨more - 1, by omega⟩
        rw [waitWithin_of_due isNext due, waitWithin_of_due isNext due]
        exact ih stopped (by omega) (by omega)

/-- A quiet relay that waits is quiet afterwards, whatever time has passed. -/
theorem quiet_wait (quiet : relay.Quiet) (duration : Duration) :
    (relay.wait duration).Quiet ∧ (relay.wait duration).now = relay.now + duration :=
  quiet_waitWithin quiet (Nat.le_refl _)

theorem wait_eq (quiet : relay.Quiet) (duration : Duration) {stops : Nat}
    (enough : relay.load ≤ stops) :
    relay.wait duration = waitWithin (relay.now + duration) stops relay :=
  waitWithin_eq quiet (Nat.le_refl _) enough

/-! ## What comes from outside -/

/-- The relays that come about by what happens outside. -/
inductive Reached (directory : Directory) (settings : Settings) : Relay → Prop where
  | start : Reached directory settings (start directory settings)
  | connectDevice {relay : Relay} (reached : Reached directory settings relay)
      (isStalled : Bool) : Reached directory settings (relay.connectDevice isStalled)
  | connectBrowser {relay : Relay} (reached : Reached directory settings relay) (name : Uuid)
      (flag : TransportFlag) (opening : Browser.Opening) (isOver isStalled : Bool) :
      Reached directory settings (relay.connectBrowser name flag opening isOver isStalled)
  | sendBytes {relay : Relay} (reached : Reached directory settings relay) (index : Nat)
      (bytes : Bytes) : Reached directory settings (relay.sendBytes index bytes)
  | sendMessage {relay : Relay} (reached : Reached directory settings relay) (index : Nat)
      (message : Browser.Incoming) : Reached directory settings (relay.sendMessage index message)
  | endStream {relay : Relay} (reached : Reached directory settings relay) (index : Nat) :
      Reached directory settings (relay.endStream index)
  | failReads {relay : Relay} (reached : Reached directory settings relay) (index : Nat)
      (fault : TransportFault) : Reached directory settings (relay.failReads index fault)
  | failWrites {relay : Relay} (reached : Reached directory settings relay) (index : Nat)
      (fault : TransportFault) : Reached directory settings (relay.failWrites index fault)
  | setStalled {relay : Relay} (reached : Reached directory settings relay) (index : Nat)
      (isStalled : Bool) : Reached directory settings (relay.setStalled index isStalled)
  | wait {relay : Relay} (reached : Reached directory settings relay) (duration : Duration) :
      Reached directory settings (relay.wait duration)
  | forget {relay : Relay} (reached : Reached directory settings relay) :
      Reached directory settings relay.forget

theorem quiet_connect (quiet : relay.Quiet) (hub : Hub) {connection : Connection}
    (keeps : connection.Sound) : (relay.connect hub connection).Quiet := by
  refine quiet_settle fun index found isFound => ?_
  simp only [List.getElem?_append] at isFound
  split at isFound
  · exact quiet.sound index found isFound
  · rw [List.getElem?_singleton] at isFound
    split at isFound <;> cases isFound
    exact keeps

theorem quiet_modify (quiet : relay.Quiet) (index : Nat) {change : Connection → Connection}
    (keeps : ∀ connection, connection.Sound → (change connection).Sound) :
    (relay.modify index change).Quiet := by
  refine quiet_settle fun other found isFound => ?_
  rw [List.getElem?_modify] at isFound
  obtain ⟨old, isOld, rfl⟩ := Option.map_eq_some_iff.mp isFound
  split
  · exact keeps old (quiet.sound other old isOld)
  · exact quiet.sound other old isOld

namespace Reached

variable {directory : Directory} {settings : Settings}

/-- Whatever comes from outside, a relay has dealt with it before anything else comes. -/
theorem quiet (reached : Reached directory settings relay) : relay.Quiet := by
  induction reached with
  | start =>
      refine ⟨fun index connection found => ?_, fun index => ?_⟩
      · cases found
      · rfl
  | connectDevice _ isStalled ih => exact quiet_connect ih _ trivial
  | connectBrowser _ name flag opening isOver isStalled ih =>
      exact quiet_connect ih _ rfl
  | sendBytes _ index bytes ih =>
      exact quiet_modify ih index fun connection keeps => by cases connection <;> exact keeps
  | sendMessage _ index message ih =>
      exact quiet_modify ih index fun connection keeps => by cases connection <;> exact keeps
  | endStream _ index ih =>
      exact quiet_modify ih index fun connection keeps => by cases connection <;> exact keeps
  | failReads _ index fault ih =>
      exact quiet_modify ih index fun connection keeps => by cases connection <;> exact keeps
  | failWrites _ index fault ih =>
      exact quiet_modify ih index fun connection keeps => by cases connection <;> exact keeps
  | setStalled _ index isStalled ih =>
      exact quiet_modify ih index fun connection keeps => by cases connection <;> exact keeps
  | wait _ duration ih => exact (quiet_wait ih duration).1
  | forget _ ih => 
      refine ⟨ih.sound, fun index => advance?_eq_none_iff.mpr fun connection found => ?_⟩
      exact advance?_eq_none_iff.mp (ih.atRest index) connection found

theorem isBusy_eq_false (reached : Reached directory settings relay) : relay.isBusy = false :=
  isBusy_eq_false_iff.mpr reached.quiet.atRest

end Reached

end Relay

end StationRelay
