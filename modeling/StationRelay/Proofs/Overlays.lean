import StationRelay.CommandLine.Configure
import StationRelay.Proofs.Feasibility

/-!
# The configuration that comes out

What is asked of a configuration are ten conditions in a fixed order, and the
check reports the first that is broken: `flaw?_eq_some_iff`.  `configure_iff`
puts the two checks together: the configuration of a command line is the one of
the file with the options laid over it, and it comes out exactly if both meet
all conditions.  The file that is not there needs no check, because the
configuration it stands for meets them.
-/

namespace StationRelay

namespace Config

/-! ## The conditions -/

/-- A condition, and the flaw of a configuration that breaks it. -/
structure Condition where
  Holds : Config → Prop
  flaw : Config → Flaw

namespace Condition

def address : Condition where
  Holds config := ∃ address, Address.ofText? config.listening.bindAddress = some address
  flaw config := .badAddress config.listening.bindAddress

def ports : Condition where
  Holds config := config.listening.devicePort ≠ config.listening.browserPort ∨
    config.listening.devicePort = 0 ∧ config.listening.browserPort = 0
  flaw config := .samePorts config.listening.devicePort

def time (name : String) (length : Settings → Duration) : Condition where
  Holds config := length config.session ≠ 0
  flaw _ := .noTime name

def payload : Condition where
  Holds config := 1 ≤ config.session.maxPayload ∧ config.session.maxPayload ≤ 65535
  flaw config := .payloadRange config.session.maxPayload

def capacity : Condition where
  Holds config := 1 ≤ config.session.queueCapacity
  flaw _ := .noCapacity

def timed : List (String × (Settings → Duration)) :=
  [("handshake_timeout_ms", Settings.handshakeTimeout),
    ("read_timeout_ms", Settings.readTimeout),
    ("write_timeout_ms", Settings.writeTimeout),
    ("ping_interval_ms", Settings.pingInterval),
    ("pong_timeout_ms", Settings.pongTimeout),
    ("websocket_handshake_timeout_ms", Settings.upgradeTimeout)]

/-- All conditions, in the order in which they are checked. -/
def all : List Condition :=
  address :: ports :: timed.map (fun entry => time entry.1 entry.2) ++ [payload, capacity]

end Condition

def Valid (config : Config) : Prop :=
  ∀ condition ∈ Condition.all, condition.Holds config

/-- Of the conditions that are broken the first has this flaw. -/
def FirstBroken (config : Config) (flaw : Flaw) : Prop :=
  ∃ before condition after, Condition.all = before ++ condition :: after ∧
    (∀ earlier ∈ before, earlier.Holds config) ∧ ¬ condition.Holds config ∧
    condition.flaw config = flaw

/-- What comes out of looking at conditions one after the other. -/
inductive Checks (config : Config) : List Condition → Option Flaw → Prop where
  | done : Checks config [] none
  | broken {condition : Condition} {rest : List Condition} (fails : ¬ condition.Holds config) :
      Checks config (condition :: rest) (some (condition.flaw config))
  | held {condition : Condition} {rest : List Condition} {result : Option Flaw}
      (holds : condition.Holds config) (more : Checks config rest result) :
      Checks config (condition :: rest) result

variable {config : Config} {conditions : List Condition} {flaw : Flaw}

namespace Checks

theorem all_hold (checks : Checks config conditions none) :
    ∀ condition ∈ conditions, condition.Holds config := by
  generalize nothing : none = result at checks
  induction checks with
  | done => exact List.forall_mem_nil _
  | broken => cases nothing
  | held holds _ ih => exact List.forall_mem_cons.mpr ⟨holds, ih nothing⟩

theorem first_fails (checks : Checks config conditions (some flaw)) :
    ∃ before condition after, conditions = before ++ condition :: after ∧
      (∀ earlier ∈ before, earlier.Holds config) ∧ ¬ condition.Holds config ∧
      condition.flaw config = flaw := by
  generalize something : some flaw = result at checks
  induction checks with
  | done => cases something
  | broken fails =>
      cases something
      exact ⟨[], _, _, rfl, List.forall_mem_nil _, fails, rfl⟩
  | held holds _ ih =>
      obtain ⟨before, condition, after, rfl, held, fails, same⟩ := ih something
      exact ⟨_ :: before, condition, after, rfl,
        List.forall_mem_cons.mpr ⟨holds, held⟩, fails, same⟩

theorem eq_some_of_first {before after : List Condition} {condition : Condition}
    {result : Option Flaw} (held : ∀ earlier ∈ before, earlier.Holds config)
    (fails : ¬ condition.Holds config)
    (checks : Checks config (before ++ condition :: after) result) :
    result = some (condition.flaw config) := by
  induction before with
  | nil =>
      cases checks with
      | broken => rfl
      | held holds => exact absurd holds fails
  | cons first before ih =>
      obtain ⟨holds, others⟩ := List.forall_mem_cons.mp held
      cases checks with
      | broken failsFirst => exact absurd holds failsFirst
      | held _ more => exact ih others more

/-- Durations are looked at in the order in which they stand, and the first zero is reported. -/
theorem times {rest : List Condition} {result : Option Flaw} (more : Checks config rest result)
    (entries : List (String × (Settings → Duration))) :
    Checks config (entries.map (fun entry => Condition.time entry.1 entry.2) ++ rest)
      (match (entries.map fun entry => (entry.1, entry.2 config.session)).find?
          fun (_, duration) => duration = 0 with
        | some (name, _) => some (.noTime name)
        | none => result) := by
  induction entries with
  | nil => exact more
  | cons entry entries ih =>
      obtain ⟨name, length⟩ := entry
      by_cases isZero : length config.session = 0
      · simp only [List.map_cons, List.find?_cons, isZero, decide_true]
        exact .broken fun holds => holds isZero
      · simp only [List.map_cons, List.find?_cons, isZero, decide_false]
        exact .held isZero ih

end Checks

theorem checks_numbers (config : Config) :
    Checks config [Condition.payload, Condition.capacity]
      (if config.session.maxPayload = 0 ∨ Settings.payloadBound < config.session.maxPayload then
        some (.payloadRange config.session.maxPayload)
      else if config.session.queueCapacity = 0 then some .noCapacity
      else none) := by
  have inRange : Condition.payload.Holds config ↔
      ¬ (config.session.maxPayload = 0 ∨ Settings.payloadBound < config.session.maxPayload) := by
    change 1 ≤ _ ∧ _ ≤ 65535 ↔ _
    unfold Settings.payloadBound
    omega
  by_cases range : config.session.maxPayload = 0 ∨
      Settings.payloadBound < config.session.maxPayload
  · rw [if_pos range]
    exact .broken fun holds => inRange.mp holds range
  · rw [if_neg range]
    refine .held (inRange.mpr range) ?_
    by_cases empty : config.session.queueCapacity = 0
    · rw [if_pos empty]
      exact .broken fun holds => absurd empty (Nat.ne_of_gt holds)
    · rw [if_neg empty]
      exact .held (Nat.pos_of_ne_zero empty) .done

theorem checks_flaw? (config : Config) : Checks config Condition.all config.flaw? := by
  have session : Checks config (Condition.timed.map (fun entry => .time entry.1 entry.2) ++
      [Condition.payload, Condition.capacity]) config.session.flaw? :=
    (checks_numbers config).times Condition.timed
  unfold flaw? Listening.flaw?
  by_cases unreadable : config.listening.address? = none
  · rw [if_pos unreadable]
    refine .broken fun ⟨address, reads⟩ => ?_
    rw [Listening.address?, reads] at unreadable
    cases unreadable
  · rw [if_neg unreadable]
    refine .held (Option.ne_none_iff_exists'.mp unreadable) ?_
    by_cases same : config.listening.devicePort ≠ 0 ∧
        config.listening.devicePort = config.listening.browserPort
    · rw [if_pos same]
      refine .broken ?_
      rintro (differ | ⟨zero, -⟩)
      · exact differ same.2
      · exact same.1 zero
    · rw [if_neg same]
      refine .held ?_ session
      by_cases equal : config.listening.devicePort = config.listening.browserPort
      · have zero : config.listening.devicePort = 0 :=
          Decidable.byContradiction fun nonzero => same ⟨nonzero, equal⟩
        exact Or.inr ⟨zero, equal ▸ zero⟩
      · exact Or.inl equal

theorem flaw?_eq_none_iff : config.flaw? = none ↔ config.Valid := by
  have checks := checks_flaw? config
  constructor
  · intro none
    rw [none] at checks
    exact checks.all_hold
  · intro valid
    cases found : config.flaw? with
    | none => rfl
    | some flaw =>
        rw [found] at checks
        obtain ⟨before, condition, after, split, -, fails, -⟩ := checks.first_fails
        exact absurd (valid condition (split ▸ List.mem_append_cons_self)) fails

theorem flaw?_eq_some_iff : config.flaw? = some flaw ↔ config.FirstBroken flaw := by
  have checks := checks_flaw? config
  constructor
  · intro found
    rw [found] at checks
    exact checks.first_fails
  · rintro ⟨before, condition, after, split, held, fails, rfl⟩
    rw [split] at checks
    exact checks.eq_some_of_first held fails

/-- The check lets through what meets all conditions, and reports the first one broken. -/
theorem validate_spec (config : Config) :
    (config.validate = .ok config ↔ config.Valid) ∧
      ∀ flaw, config.validate = .error flaw ↔ config.FirstBroken flaw := by
  refine ⟨validate_eq_ok_iff.trans flaw?_eq_none_iff, fun flaw => ?_⟩
  rw [← flaw?_eq_some_iff, validate]
  cases config.flaw? with
  | none => exact ⟨nofun, nofun⟩
  | some other => simp

/-! ## Files -/

theorem valid_default : Valid {} :=
  flaw?_eq_none_iff.mp (by decide +kernel)

/-- The configuration that a file says; one that is not there says the default. -/
inductive Says : FileContent → Config → Prop where
  | missing : Says .missing {}
  | text {bytes : Bytes} {text : String} {config : Config}
      (decoded : String.fromUTF8? ⟨bytes.toArray⟩ = some text)
      (read : (Toml.ofText? text >>= ofEntries?) = some config) : Says (.bytes bytes) config

/-- What comes out of a file is what it says, and it is valid, also where the file is missing. -/
theorem load_eq_ok_iff {content : FileContent} :
    load content = .ok config ↔ Says content config ∧ config.Valid := by
  cases content with
  | missing =>
      constructor
      · rintro ⟨⟩
        exact ⟨.missing, valid_default⟩
      · rintro ⟨⟨⟩, -⟩
        rfl
  | unreadable fault => exact ⟨nofun, nofun⟩
  | bytes bytes =>
      rw [load]
      cases decoded : String.fromUTF8? ⟨bytes.toArray⟩ with
      | none =>
          refine ⟨nofun, ?_⟩
          rintro ⟨text, -⟩
          cases text with
          | text other => cases decoded.symm.trans other
      | some text =>
          dsimp only
          rw [ofText_eq_ok_iff, flaw?_eq_none_iff]
          refine and_congr_left fun _ => ⟨.text decoded, fun stated => ?_⟩
          cases stated with
          | text other read =>
              cases decoded.symm.trans other
              exact read

/-! ## Endpoints -/

/-- Both listeners have an endpoint at the address of the configuration, and the two are different
unless both ports are zero. -/
def Listens (config : Config) : Prop :=
  ∃ address, Address.ofText? config.listening.bindAddress = some address ∧
    config.listening.deviceEndpoint? = some ⟨address, config.listening.devicePort⟩ ∧
    config.listening.browserEndpoint? = some ⟨address, config.listening.browserPort⟩ ∧
    (config.listening.deviceEndpoint? ≠ config.listening.browserEndpoint? ∨
      config.listening.devicePort = 0 ∧ config.listening.browserPort = 0)

theorem Valid.listens (valid : config.Valid) : config.Listens := by
  obtain ⟨⟨address, reads⟩, ports, -⟩ :=
    (List.forall_mem_cons.mp valid).imp_right List.forall_mem_cons.mp
  have device : config.listening.deviceEndpoint? = some ⟨address, config.listening.devicePort⟩ :=
    congrArg (Option.map _) reads
  have browser :
      config.listening.browserEndpoint? = some ⟨address, config.listening.browserPort⟩ :=
    congrArg (Option.map _) reads
  refine ⟨address, reads, device, browser, ports.imp_left fun differ same => differ ?_⟩
  rw [device, browser] at same
  exact congrArg Endpoint.port (Option.some.inj same)

end Config

/-! ## Options over files -/

namespace CommandLine

namespace Overrides

/-- The second configuration is the first with the options laid over it. -/
structure Overlays (overrides : Overrides) (loaded config : Config) : Prop where
  bindAddress : config.listening.bindAddress =
    overrides.bindAddress.getD loaded.listening.bindAddress
  devicePort : config.listening.devicePort =
    overrides.devicePort.getD loaded.listening.devicePort
  browserPort : config.listening.browserPort =
    overrides.browserPort.getD loaded.listening.browserPort
  workerThreads : config.listening.workerThreads =
    overrides.workerThreads.getD loaded.listening.workerThreads
  session : config.session = loaded.session
  devices : config.devices = loaded.devices
  stations : config.stations = loaded.stations

theorem overlays_iff {overrides : Overrides} {loaded config : Config} :
    overrides.Overlays loaded config ↔ config = overrides.apply loaded := by
  constructor
  · rintro ⟨bindAddress, devicePort, browserPort, workerThreads, session, devices, stations⟩
    obtain ⟨⟨_, _, _, _⟩, _, _, _⟩ := config
    cases bindAddress
    cases devicePort
    cases browserPort
    cases workerThreads
    cases session
    cases devices
    cases stations
    rfl
  · rintro rfl
    exact ⟨rfl, rfl, rfl, rfl, rfl, rfl, rfl⟩

theorem configure_eq_ok_iff {overrides : Overrides} {files : String → FileContent}
    {config : Config} :
    overrides.configure files = .ok config ↔
      ∃ loaded, Config.load (files overrides.configPath) = .ok loaded ∧
        overrides.Overlays loaded config ∧ config.Valid := by
  unfold configure
  cases Config.load (files overrides.configPath) with
  | error cause => exact ⟨nofun, fun ⟨_, loads, _⟩ => nomatch loads⟩
  | ok loaded =>
      have sound : (overrides.apply loaded).flaw? = none ↔ _ := Config.flaw?_eq_none_iff
      dsimp only
      constructor
      · intro came
        split at came
        · cases came
        · rename_i none
          cases came
          exact ⟨loaded, rfl, overlays_iff.mpr rfl, sound.mp none⟩
      · rintro ⟨_, ⟨⟩, overlays, valid⟩
        cases overlays_iff.mp overlays
        rw [sound.mpr valid]

/-- A configuration comes out of a command line exactly if the file at the path gives one and the
options laid over it leave it valid.  What files give was valid before.  The check accepts what
meets all ten conditions and otherwise reports the first one broken; both listeners of what it
accepts have an endpoint. -/
theorem configure_iff (overrides : Overrides) (files : String → FileContent) (config : Config) :
    (overrides.configure files = .ok config ↔
      ∃ loaded, Config.load (files overrides.configPath) = .ok loaded ∧
        overrides.Overlays loaded config ∧ config.validate = .ok config) ∧
    (∀ content, Config.load content = .ok config ↔ Config.Says content config ∧ config.Valid) ∧
    (config.validate = .ok config ↔ config.Valid) ∧
    (∀ flaw, config.validate = .error flaw ↔ config.FirstBroken flaw) ∧
    (config.Valid → config.Listens) := by
  obtain ⟨accepts, reports⟩ := config.validate_spec
  refine ⟨?_, fun content => Config.load_eq_ok_iff, accepts, reports, Config.Valid.listens⟩
  rw [accepts]
  exact configure_eq_ok_iff

example : configure { devicePort := some 8080 } (fun _ => .missing) =
    .error (.override (.samePorts 8080)) := by
  rfl

end Overrides

end CommandLine

end StationRelay
