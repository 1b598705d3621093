import StationRelay.Config.Load
import StationRelay.Proofs.Deadlines
import StationRelay.Proofs.Histories

/-!
# What an accepted configuration is good for

The numbers of a configuration end in three places: durations in deadlines, the
payload limit in the length of a frame, and the capacity in the making of a
mailbox.  `flaw?_eq_none_iff` says what the check promises of them.  For the
deadlines and the frames that is enough, in every run that does not come too
near to the end of time; a mailbox can be made only up to `Mailbox.maxCapacity`,
and of that the check knows nothing.
-/

namespace StationRelay

def wordBound : Nat := 0x10000000000000000

/-- The whole seconds of an instant fit into a signed word of 64 bits. -/
def Representable (instant : Instant) : Prop :=
  instant / 1000 < 0x8000000000000000

/-- Up to here even the longest duration leads to a representable instant. -/
def horizon : Instant := 1000 * 0x8000000000000000 - wordBound

/-! ## Accepted settings -/

namespace Settings

/-- Every number fits into an unsigned word of 64 bits. -/
structure Words (settings : Settings) : Prop where
  durations : ∀ entry ∈ settings.durations, entry.2 < wordBound
  payload : settings.maxPayload < wordBound
  capacity : settings.queueCapacity < wordBound

/-- What the check asks of settings. -/
structure Checked (settings : Settings) : Prop where
  durations : ∀ entry ∈ settings.durations, 0 < entry.2
  payload : 0 < settings.maxPayload ∧ settings.maxPayload ≤ payloadBound
  capacity : 0 < settings.queueCapacity

theorem flaw?_eq_none_iff {settings : Settings} : settings.flaw? = none ↔ settings.Checked := by
  unfold flaw?
  constructor
  · intro sound
    split at sound
    · cases sound
    · rename_i found
      split at sound
      · cases sound
      · split at sound
        · cases sound
        · rename_i payload capacity
          refine ⟨fun entry member => ?_, by omega, Nat.pos_of_ne_zero capacity⟩
          have nonzero := List.find?_eq_none.mp found entry member
          exact Nat.pos_of_ne_zero fun isZero => nonzero (decide_eq_true isZero)
  · rintro ⟨positive, payload, capacity⟩
    split
    · rename_i name duration found
      have isZero := List.find?_some found
      have nonzero := Nat.ne_of_gt (positive _ (List.mem_of_find?_eq_some found))
      exact absurd (of_decide_eq_true isZero) nonzero
    · rw [if_neg (by omega), if_neg (Nat.ne_of_gt capacity)]

end Settings

/-! ## Accepted configurations -/

namespace Config

theorem lt_of_fieldOr_word {standard value : Nat} {field : Option Toml}
    (small : standard < wordBound) (read : fieldOr word? standard field = some value) :
    value < wordBound := by
  cases field with
  | none =>
      cases read
      exact small
  | some item =>
      change natural? _ item = some value at read
      unfold natural? at read
      split at read
      · split at read
        · rename_i number inside
          cases read
          unfold wordBound
          omega
        · cases read
      · cases read

theorem words_of_settings? {value : Toml} {settings : Settings}
    (read : settings? value = some settings) : settings.Words := by
  simp only [settings?, Option.bind_eq_bind, Option.bind_eq_some_iff, Option.pure_def,
    Option.some.injEq] at read
  obtain ⟨fields, -, handshake, isHandshake, reading, isReading, writing, isWriting, interval,
    isInterval, timeout, isTimeout, upgrade, isUpgrade, payload, isPayload, capacity, isCapacity,
    rfl⟩ := read
  refine ⟨?_, lt_of_fieldOr_word (by decide) isPayload, lt_of_fieldOr_word (by decide) isCapacity⟩
  simp only [Settings.durations, List.forall_mem_cons]
  exact ⟨lt_of_fieldOr_word (by decide) isHandshake, lt_of_fieldOr_word (by decide) isReading,
    lt_of_fieldOr_word (by decide) isWriting, lt_of_fieldOr_word (by decide) isInterval,
    lt_of_fieldOr_word (by decide) isTimeout, lt_of_fieldOr_word (by decide) isUpgrade,
    List.forall_mem_nil _⟩

theorem words_default : Settings.Words {} := by
  refine ⟨?_, by decide, by decide⟩
  decide

theorem words_of_ofEntries? {entries : List (String × Toml)} {config : Config}
    (read : ofEntries? entries = some config) : config.session.Words := by
  simp only [ofEntries?, Option.bind_eq_bind, Option.bind_eq_some_iff, Option.pure_def,
    Option.some.injEq] at read
  obtain ⟨_, -, session, isSession, _, -, _, -, rfl⟩ := read
  unfold fieldOr at isSession
  split at isSession
  · cases isSession
    exact words_default
  · exact words_of_settings? isSession

theorem ofText_eq_ok_iff {text : String} {config : Config} :
    ofText text = .ok config ↔
      (Toml.ofText? text >>= ofEntries?) = some config ∧ config.flaw? = none := by
  unfold ofText
  cases Toml.ofText? text >>= ofEntries? with
  | none => exact ⟨nofun, fun read => nomatch read.1⟩
  | some said =>
      dsimp only
      constructor
      · intro loaded
        split at loaded
        · cases loaded
        · rename_i sound
          cases loaded
          exact ⟨rfl, sound⟩
      · rintro ⟨⟨⟩, sound⟩
        rw [sound]

theorem validate_eq_ok_iff {config : Config} :
    config.validate = .ok config ↔ config.flaw? = none := by
  unfold validate
  cases config.flaw? with
  | none => exact ⟨fun _ => rfl, fun _ => rfl⟩
  | some flaw => exact ⟨nofun, nofun⟩

/-- A configuration is accepted: it was read from a text, or its words passed the check. -/
def Accepted (config : Config) : Prop :=
  (∃ text, ofText text = .ok config) ∨ config.validate = .ok config ∧ config.session.Words

/-- However a configuration was accepted, its settings were checked, and they are words. -/
theorem Accepted.settings {config : Config} (accepted : config.Accepted) :
    config.session.Checked ∧ config.session.Words := by
  have both : config.flaw? = none ∧ config.session.Words := by
    rcases accepted with ⟨text, loaded⟩ | ⟨passed, words⟩
    · obtain ⟨said, sound⟩ := ofText_eq_ok_iff.mp loaded
      obtain ⟨entries, -, read⟩ := Option.bind_eq_some_iff.mp said
      exact ⟨sound, words_of_ofEntries? read⟩
    · exact ⟨validate_eq_ok_iff.mp passed, words⟩
  have sound := both.1
  unfold flaw? at sound
  exact ⟨Settings.flaw?_eq_none_iff.mp (Option.or_eq_none_iff.mp sound).2, both.2⟩

end Config

/-! ## What sessions need -/

namespace Exchange

theorem settings_run (exchange : Exchange) (moves : List Move) :
    (exchange.run moves).settings = exchange.settings := by
  induction moves generalizing exchange with
  | nil => rfl
  | cons move moves ih =>
      have same : (exchange.step move).1.settings = exchange.settings := by
        cases move with
        | connectDevice | connectBrowser => rfl
        | device index now stimulus =>
            rw [step]
            split <;> rfl
        | browser index now stimulus =>
            rw [step]
            split <;> rfl
      exact (ih (exchange.step move).1).trans same

/-- Every mailbox of a run was made with the capacity of the settings. -/
theorem capacity_run (directory : Directory) (settings : Settings) (moves : List Move) :
    (∀ mailbox ∈ ((start directory settings).run moves).hub.devices.mailboxes,
      mailbox.capacity = settings.queueCapacity) ∧
    ∀ mailbox ∈ ((start directory settings).run moves).hub.browsers.mailboxes,
      mailbox.capacity = settings.queueCapacity := by
  have same := (start directory settings).settings_run moves
  constructor
  · intro mailbox member
    obtain ⟨index, found⟩ := List.mem_iff_getElem?.mp member
    have made := ((remembers_run index directory settings moves).commands.mailbox found).1
    rwa [same] at made
  · intro mailbox member
    obtain ⟨index, found⟩ := List.mem_iff_getElem?.mp member
    have made := ((remembers_run index directory settings moves).readings.mailbox found).1
    rwa [same] at made

end Exchange

/-- Sessions can be made with the settings and run: what is computed from a number of the settings
is in the range of where it goes. -/
structure Settings.Feasible (directory : Directory) (settings : Settings) : Prop where
  deadlines : ∀ now, now ≤ horizon → Fresh Representable settings now
  frames : ∀ declared, declared ≤ settings.maxPayload → Frame.headerSize + declared < wordBound
  /-- Every deadline that is set in a run is representable. -/
  sessions : ∀ moves, (∀ move ∈ moves, move.instant ≤ horizon) →
    ((Switchboard.start directory settings).run moves).Governed Representable settings
  /-- Every mailbox that is made in a run can be made. -/
  commands : ∀ moves, ∀ mailbox ∈
    ((Exchange.start directory settings).run moves).hub.devices.mailboxes,
      Mailbox.Supports mailbox.capacity
  readings : ∀ moves, ∀ mailbox ∈
    ((Exchange.start directory settings).run moves).hub.browsers.mailboxes,
      Mailbox.Supports mailbox.capacity

section Feasible

variable {settings : Settings}

theorem representable_add {now duration : Nat} (early : now ≤ horizon)
    (word : duration < wordBound) : Representable (now + duration) := by
  have before : now + duration < 1000 * 0x8000000000000000 := by
    unfold horizon wordBound at early
    unfold wordBound at word
    omega
  exact Nat.div_lt_of_lt_mul before

theorem Settings.Words.fresh (words : settings.Words) {now : Instant} (early : now ≤ horizon) :
    Fresh Representable settings now :=
  fun entry member => representable_add early (words.durations entry member)

theorem Settings.Checked.frame_lt (checked : settings.Checked) {declared : Nat}
    (inside : declared ≤ settings.maxPayload) : Frame.headerSize + declared < wordBound := by
  have short := Nat.le_trans inside checked.payload.2
  unfold Settings.payloadBound at short
  unfold Frame.headerSize wordBound
  omega

/-- The capacity is felt as soon as the first device connects. -/
theorem Settings.Feasible.supports {directory : Directory}
    (feasible : settings.Feasible directory) : Mailbox.Supports settings.queueCapacity :=
  feasible.commands [.connectDevice 0] (Mailbox.ofCapacity settings.queueCapacity)
    List.mem_cons_self

/-- What an accepted configuration can still lack is an upper bound of the capacity. -/
theorem Config.Accepted.feasible_iff {config : Config} (accepted : config.Accepted)
    (directory : Directory) :
    config.session.Feasible directory ↔ config.session.queueCapacity ≤ Mailbox.maxCapacity := by
  obtain ⟨checked, words⟩ := accepted.settings
  constructor
  · exact fun feasible => feasible.supports.2
  · intro fits
    have supports : Mailbox.Supports config.session.queueCapacity := ⟨checked.capacity, fits⟩
    constructor
    case deadlines => exact fun _ early => words.fresh early
    case frames => exact fun _ inside => checked.frame_lt inside
    case sessions =>
      intro moves early
      exact Switchboard.governed_run directory fun move member => words.fresh (early move member)
    case commands =>
      intro moves mailbox member
      exact (Exchange.capacity_run directory config.session moves).1 mailbox member ▸ supports
    case readings =>
      intro moves mailbox member
      exact (Exchange.capacity_run directory config.session moves).2 mailbox member ▸ supports

/-- The longest silence that a text can allow, and the largest mailboxes, do no harm. -/
theorem Config.Accepted.feasible_iff_largest :
    let directory : Directory := ⟨fun _ => true, Station.defaultName⟩
    let config : Config :=
      { session := { readTimeout := 9223372036854775807, queueCapacity := 2305843009213693951 } }
    config.Accepted ∧ config.session.Feasible directory := by
  have loaded : Config.ofText ("[session]\nread_timeout_ms = 9223372036854775807\n" ++
      "queue_capacity = 2305843009213693951\n") = .ok { session := {
        readTimeout := 9223372036854775807, queueCapacity := 2305843009213693951 } } :=
    Config.ofText_eq_ok_iff.mpr (by decide +kernel)
  have accepted : Config.Accepted _ := .inl ⟨_, loaded⟩
  exact ⟨accepted, (Config.Accepted.feasible_iff accepted _).mpr (by decide)⟩

/-- A text that asks for larger mailboxes is accepted, and no session can be made with it. -/
theorem Config.not_feasible_too_large :
    ∃ config, Config.ofText "[session]\nqueue_capacity = 2305843009213693952\n" = .ok config ∧
      ∀ directory, ¬ config.session.Feasible directory := by
  refine ⟨{ session := { queueCapacity := 2305843009213693952 } }, ?accepted, ?infeasible⟩
  case accepted => exact Config.ofText_eq_ok_iff.mpr (by decide +kernel)
  case infeasible => exact fun _ feasible => absurd feasible.supports (by decide)

end Feasible

end StationRelay
