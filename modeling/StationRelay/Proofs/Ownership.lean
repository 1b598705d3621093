import StationRelay.Proofs.Handling
import StationRelay.Scenario

/-!
# Who holds a station

As long as only engines join and leave stations, a station is held by exactly
the engine that was accepted for it, whatever the other parties do with the
links they looked up.  `Accounted` is the invariant: it ties the state of every
engine to the map of stations, and the holders of every link to the parties
that hold it.  `Owned` is what follows for every run.
-/

namespace StationRelay

/-! ## What others can do to a hub without being noticed here -/

/-- The second hub has the stations and the holders of the first. -/
structure Hub.SameClaims (hub other : Hub) : Prop where
  stations : other.stations = hub.stations
  length : other.devices.table.length = hub.devices.table.length
  holders : ∀ link, other.devices.holderCount link = hub.devices.holderCount link

namespace Hub.SameClaims

theorem refl (hub : Hub) : hub.SameClaims hub :=
  ⟨rfl, rfl, fun _ => rfl⟩

theorem trans {first second third : Hub} (left : first.SameClaims second)
    (right : second.SameClaims third) : first.SameClaims third :=
  ⟨right.stations.trans left.stations, right.length.trans left.length,
    fun link => (right.holders link).trans (left.holders link)⟩

theorem postCommand (hub : Hub) (link : LinkId) (command : Command) :
    hub.SameClaims (hub.postCommand link command) :=
  ⟨rfl, hub.devices.length_modify .., fun other => hub.devices.holderCount_post link other command⟩

theorem closeMailbox (hub : Hub) (link : LinkId) :
    hub.SameClaims { hub with devices := hub.devices.closeMailbox link } :=
  ⟨rfl, hub.devices.length_modify .., fun other => hub.devices.holderCount_closeMailbox link other⟩

theorem takeFrom (hub : Hub) (link : LinkId) :
    hub.SameClaims { hub with devices := (Scenario.takeFrom hub.devices link).1 } := by
  unfold Scenario.takeFrom
  split
  · exact refl hub
  · split
    · exact refl hub
    · split
      · exact ⟨rfl, hub.devices.length_modify ..,
          fun other => hub.devices.holderCount_take link other⟩
      · exact refl hub

theorem of_browsers (hub : Hub) (browsers : Links Reading)
    (sessions : List (Uuid × BrowserEntry)) :
    hub.SameClaims { hub with browsers, sessions } :=
  ⟨rfl, rfl, fun _ => rfl⟩

theorem forwardTo (hub : Hub) (command : Command) (raw : UInt8) :
    hub.SameClaims (Browser.forwardTo hub command raw).1 := by
  unfold Browser.forwardTo
  split
  · exact postCommand hub _ command
  · exact refl hub

theorem forward (hub : Hub) (command : Command) (stationIds : List UInt8) :
    hub.SameClaims (Browser.forward hub command stationIds).1 := by
  induction stationIds generalizing hub with
  | nil => exact refl hub
  | cons raw rest ih => exact (forwardTo hub command raw).trans (ih _)

theorem handleBrowser (directory : Directory) (hub : Hub) (engine : Browser.Engine)
    (buffer : Bytes) : hub.SameClaims (Browser.handle directory hub engine buffer).hub := by
  unfold Browser.handle
  split
  · split
    · rename_i request _
      cases request with
      | stations => exact refl hub
      | readings stationIds => exact forward hub _ stationIds
    · exact refl hub
  all_goals exact refl hub

theorem notify (hub : Hub) (notifier : LinkId) (reading : Reading) :
    hub.SameClaims (hub.notify notifier reading) := by
  unfold Hub.notify
  split
  · exact of_browsers hub _ _
  · exact refl hub

theorem onReport (hub : Hub) (station : Station) (report : Report) :
    hub.SameClaims (Device.onReport hub station report) := by
  unfold Device.onReport
  split
  · exact notify hub _ _
  · exact refl hub

theorem joinBrowser (hub : Hub) (session : Uuid) (entry : BrowserEntry) :
    hub.SameClaims (hub.joinBrowser session entry).1 := by
  unfold Hub.joinBrowser
  split
  · exact refl hub
  · exact of_browsers hub _ _

end Hub.SameClaims

namespace Device

theorem devices_onReport (hub : Hub) (station : Station) (report : Report) :
    (onReport hub station report).devices = hub.devices := by
  unfold onReport Hub.notify
  split
  · split <;> rfl
  · rfl

theorem devices_handle (directory : Directory) (hub : Hub) (engine : Engine) (buffer : Bytes) :
    (handle directory hub engine buffer).hub.devices = hub.devices := by
  have listed := handling_handle directory hub engine buffer
  generalize handle directory hub engine buffer = handled at listed ⊢
  cases listed with
  | report => exact devices_onReport hub _ _
  | _ => rfl

theorem link_handle (directory : Directory) (hub : Hub) (engine : Engine) (buffer : Bytes) :
    (handle directory hub engine buffer).engine.link = engine.link := by
  have listed := handling_handle directory hub engine buffer
  generalize handle directory hub engine buffer = handled at listed ⊢
  cases listed <;> rfl

theorem devices_close (hub : Hub) (engine : Engine) :
    (close hub engine).1.devices = hub.devices := by
  unfold close
  split <;> rfl

theorem browsers_close (hub : Hub) (engine : Engine) :
    (close hub engine).1.browsers = hub.browsers := by
  unfold close
  split <;> rfl

theorem sessions_close (hub : Hub) (engine : Engine) :
    (close hub engine).1.sessions = hub.sessions := by
  unfold close
  split <;> rfl

end Device

namespace Scenario

/-- The step joins or leaves a station without an engine. -/
def Step.bypassesEngine : Step → Bool
  | .joinDevice .. => true
  | .leaveDevice _ => true
  | _ => false

def engine? (scenario : Scenario) (device : Nat) : Option Device.Engine :=
  scenario.devices[device]?.bind DeviceParty.engine

/-- How often a device holds its own link. -/
def ownCount (scenario : Scenario) (device : Nat) : Nat :=
  if (scenario.device? device).isSome then 1 else 0

/-- Links and stations are accounted for by the parties. -/
structure Accounted (scenario : Scenario) : Prop where
  length : scenario.hub.devices.table.length = scenario.devices.length
  /-- A link is held by its device while that is there, and by whoever keeps it. -/
  holders : ∀ device, scenario.hub.devices.holderCount device =
    scenario.ownCount device + scenario.keptLinks.count (some device)
  own_link : ∀ {device engine}, scenario.engine? device = some engine → engine.link = device
  /-- An engine that holds a station belongs to a device that is still there. -/
  present : ∀ {device engine station}, scenario.engine? device = some engine →
    engine.state = .authenticated station → (scenario.device? device).isSome
  claimed_iff : ∀ station device, scenario.hub.stations.get station = some device ↔
    ∃ engine, scenario.engine? device = some engine ∧ engine.state = .authenticated station

/-! ## Parties in a list -/

theorem device?_eq_some_iff {scenario : Scenario} {device : Nat} {party : DeviceParty} :
    scenario.device? device = some party ↔
      scenario.devices[device]? = some party ∧ party.isPresent = true := by
  simp [device?, Option.filter_eq_some_iff]

theorem lt_length_of_engine? {scenario : Scenario} {device : Nat} {engine : Device.Engine}
    (found : scenario.engine? device = some engine) : device < scenario.devices.length := by
  obtain ⟨party, atDevice, _⟩ := Option.bind_eq_some_iff.mp found
  exact (List.getElem?_eq_some_iff.mp atDevice).1

theorem engine?_of_device? {scenario : Scenario} {device : Nat} {engine : Option Device.Engine}
    {isPresent : Bool} (found : scenario.device? device = some ⟨engine, isPresent⟩) :
    scenario.engine? device = engine := by
  rw [engine?, (device?_eq_some_iff.mp found).1]
  rfl

theorem engine?_setDevice {scenario : Scenario} {device : Nat} {old party : DeviceParty}
    (found : scenario.devices[device]? = some old) (other : Nat) :
    (scenario.setDevice device party).engine? other =
      if device = other then party.engine else scenario.engine? other := by
  have inside := (List.getElem?_eq_some_iff.mp found).1
  simp only [engine?, setDevice, List.getElem?_set]
  split
  · rfl
  · rfl

theorem ownCount_setDevice {scenario : Scenario} {device : Nat} {old party : DeviceParty}
    (found : scenario.devices[device]? = some old) (other : Nat) :
    (scenario.setDevice device party).ownCount other =
      if device = other then (if party.isPresent then 1 else 0) else scenario.ownCount other := by
  have inside := (List.getElem?_eq_some_iff.mp found).1
  simp only [ownCount, device?, setDevice, List.getElem?_set]
  split
  · cases present : party.isPresent <;> simp [Option.filter, present]
  · rfl

/-! ## The invariant -/

namespace Accounted

variable {scenario : Scenario}

theorem start (directory : Directory) : Accounted (Scenario.start directory) where
  length := rfl
  holders _ := rfl
  own_link found := by cases found
  present found := by cases found
  claimed_iff station device := by
    constructor
    · intro claimed
      cases station <;> cases claimed
    · rintro ⟨engine, found, _⟩
      cases found

theorem of_sameClaims {other : Scenario} (accounted : Accounted scenario)
    (claims : scenario.hub.SameClaims other.hub) (devices : other.devices = scenario.devices)
    (kept : other.keptLinks = scenario.keptLinks) : Accounted other := by
  have engines : ∀ device, other.engine? device = scenario.engine? device := by
    intro device
    simp only [engine?, devices]
  have parties : ∀ device, other.device? device = scenario.device? device := by
    intro device
    simp only [device?, devices]
  constructor
  · rw [claims.length, devices, accounted.length]
  · intro device
    rw [claims.holders, accounted.holders, kept, ownCount, ownCount, parties]
  · intro device engine found
    exact accounted.own_link (engines device ▸ found)
  · intro device engine station found held
    rw [parties]
    exact accounted.present (engines device ▸ found) held
  · intro station device
    rw [claims.stations, engines]
    exact accounted.claimed_iff station device

/-- A station that is claimed has a live link. -/
theorem isLive_of_claimed (accounted : Accounted scenario) {station : Station} {device : Nat}
    (claimed : scenario.hub.stations.get station = some device) :
    scenario.hub.devices.isLive device = true := by
  obtain ⟨engine, found, held⟩ := (accounted.claimed_iff station device).mp claimed
  rw [Links.isLive_iff, accounted.holders, ownCount, if_pos (accounted.present found held)]
  omega

theorem findDevice_eq (accounted : Accounted scenario) (station : Station) :
    scenario.hub.findDevice station = scenario.hub.stations.get station := by
  unfold Hub.findDevice
  cases claimed : scenario.hub.stations.get station with
  | none => rfl
  | some device => simp [Option.filter, accounted.isLive_of_claimed claimed]

theorem addDevice (accounted : Accounted scenario) (capacity : Nat)
    {engine : Option Device.Engine}
    (fresh : ∀ made, engine = some made →
      made = Device.Engine.ofLink scenario.hub.devices.nextId) :
    Accounted (scenario.addDevice capacity engine) := by
  have newest : scenario.hub.devices.nextId = scenario.devices.length := accounted.length
  have parties : ∀ device, (scenario.addDevice capacity engine).devices[device]? =
      if device = scenario.devices.length then some ⟨engine, true⟩
      else scenario.devices[device]? := by
    intro device
    simp only [Scenario.addDevice, List.getElem?_append, List.getElem?_singleton]
    grind
  have unused : scenario.keptLinks.count (some scenario.devices.length) = 0 := by
    have beyond := accounted.holders scenario.devices.length
    have none_held : ¬ 0 < scenario.hub.devices.holderCount scenario.devices.length := by
      intro held
      have inside := Links.lt_length_of_holderCount held
      rw [accounted.length] at inside
      exact Nat.lt_irrefl _ inside
    omega
  have engines : ∀ device found, (scenario.addDevice capacity engine).engine? device = some found →
      (device = scenario.devices.length ∧ found = Device.Engine.ofLink device) ∨
        scenario.engine? device = some found := by
    intro device found atDevice
    rw [engine?, parties] at atDevice
    split at atDevice
    · rename_i same
      have made := fresh found (by simpa using atDevice)
      rw [newest, ← same] at made
      exact Or.inl ⟨same, made⟩
    · exact Or.inr atDevice
  constructor
  · simp [Scenario.addDevice, Links.create, accounted.length]
  · intro device
    have counts : (scenario.addDevice capacity engine).hub.devices.holderCount device =
        if device = scenario.devices.length then 1
        else scenario.hub.devices.holderCount device := by
      rw [← newest]
      exact Links.holderCount_create ..
    rw [counts, ownCount, Scenario.device?, parties]
    change _ = _ + scenario.keptLinks.count (some device)
    split
    · subst device
      simp [unused, Option.filter]
    · exact accounted.holders device
  · intro device found atDevice
    rcases engines device found atDevice with ⟨_, made⟩ | old
    · subst made
      rfl
    · exact accounted.own_link old
  · intro device found station atDevice held
    rcases engines device found atDevice with ⟨_, made⟩ | old
    · subst made
      cases held
    · have present := accounted.present old held
      rw [Scenario.device?, parties, if_neg (Nat.ne_of_lt (lt_length_of_engine? old))]
      exact present
  · intro station device
    have stations : (scenario.addDevice capacity engine).hub.stations = scenario.hub.stations := rfl
    rw [stations, accounted.claimed_iff]
    constructor
    · rintro ⟨found, atDevice, held⟩
      refine ⟨found, ?_, held⟩
      rw [engine?, parties, if_neg (Nat.ne_of_lt (lt_length_of_engine? atDevice))]
      exact atDevice
    · rintro ⟨found, atDevice, held⟩
      rcases engines device found atDevice with ⟨_, made⟩ | old
      · subst made
        cases held
      · exact ⟨found, old, held⟩

/-- One device is replaced together with the hub: what has to hold of the replacement. -/
theorem update (accounted : Accounted scenario) {device : Nat} {old party : DeviceParty}
    {hub : Hub} (found : scenario.devices[device]? = some old)
    (length : hub.devices.table.length = scenario.hub.devices.table.length)
    (holders : ∀ other, hub.devices.holderCount other =
      if device = other then
        (if party.isPresent then 1 else 0) + scenario.keptLinks.count (some device)
      else scenario.hub.devices.holderCount other)
    (own_link : ∀ {engine}, party.engine = some engine → engine.link = device)
    (present : ∀ {engine station}, party.engine = some engine →
      engine.state = .authenticated station → party.isPresent = true)
    (claimed_iff : ∀ station other, hub.stations.get station = some other ↔
      if device = other then
        ∃ engine, party.engine = some engine ∧ engine.state = .authenticated station
      else scenario.hub.stations.get station = some other) :
    Accounted ({ scenario with hub }.setDevice device party) := by
  have engines : ∀ other, ({ scenario with hub }.setDevice device party).engine? other =
      if device = other then party.engine else scenario.engine? other :=
    fun other => engine?_setDevice found other
  have counts : ∀ other, ({ scenario with hub }.setDevice device party).ownCount other =
      if device = other then (if party.isPresent then 1 else 0) else scenario.ownCount other :=
    fun other => ownCount_setDevice found other
  constructor
  · simpa [setDevice, length] using accounted.length
  · intro other
    rw [counts]
    change hub.devices.holderCount other = _ + scenario.keptLinks.count (some other)
    rw [holders]
    split
    · subst other
      rfl
    · exact accounted.holders other
  · intro other engine atOther
    rw [engines] at atOther
    split at atOther
    · subst other
      exact own_link atOther
    · exact accounted.own_link atOther
  · intro other engine station atOther held
    have present_iff : (({ scenario with hub }.setDevice device party).device? other).isSome ↔
        0 < ({ scenario with hub }.setDevice device party).ownCount other := by
      unfold ownCount
      split <;> simp_all
    rw [present_iff, counts]
    rw [engines] at atOther
    split at atOther
    · rw [if_pos ‹_›, if_pos (present atOther held)]
      exact Nat.one_pos
    · rw [if_neg ‹_›, ownCount, if_pos (accounted.present atOther held)]
      exact Nat.one_pos
  · intro station other
    change hub.stations.get station = some other ↔ _
    rw [claimed_iff, engines]
    split
    · rfl
    · exact accounted.claimed_iff station other

/-! ## What an engine does to the claims -/

/-- What the map says of a device that has an engine. -/
theorem claimed_iff_engine (accounted : Accounted scenario) {device : Nat}
    {engine : Device.Engine} (found : scenario.engine? device = some engine)
    (station : Station) :
    scenario.hub.stations.get station = some device ↔ engine.state = .authenticated station := by
  rw [accounted.claimed_iff, found]
  simp

/-- An engine that keeps its state leaves every claim as it was. -/
theorem claimed_iff_of_same (accounted : Accounted scenario) {device : Nat}
    {engine changed : Device.Engine} (found : scenario.engine? device = some engine)
    (same : changed.state = engine.state) (station : Station) (other : Nat) :
    scenario.hub.stations.get station = some other ↔
      if device = other then changed.state = .authenticated station
      else scenario.hub.stations.get station = some other := by
  split
  · subst other
    rw [same]
    exact accounted.claimed_iff_engine found station
  · rfl

/-- After a call of its engine a device holds what the engine says, and the others hold what they
held. -/
theorem claimed_iff_handle (accounted : Accounted scenario) {device : Nat}
    {engine : Device.Engine} (found : scenario.engine? device = some engine) (buffer : Bytes)
    (station : Station) (other : Nat) :
    (Device.handle scenario.directory scenario.hub engine buffer).hub.stations.get station =
        some other ↔
      if device = other then
        (Device.handle scenario.directory scenario.hub engine buffer).engine.state =
          .authenticated station
      else scenario.hub.stations.get station = some other := by
  have listed := Device.handling_handle scenario.directory scenario.hub engine buffer
  generalize Device.handle scenario.directory scenario.hub engine buffer = handled at listed ⊢
  cases listed with
  | closed | incomplete | unreadable | outOfTurn | refused | pong =>
      exact accounted.claimed_iff_of_same found rfl station other
  | @report held _ _ _ _ =>
      rw [(Hub.SameClaims.onReport scenario.hub held _).stations]
      exact accounted.claimed_iff_of_same found rfl station other
  | @accepted _ _ _ claimed fresh _ admissible =>
      have free : scenario.hub.stations.get claimed = none := by
        rw [← accounted.findDevice_eq]
        exact admissible.free
      have notHeld : ∀ station, scenario.hub.stations.get station ≠ some device := by
        intro station held
        rw [accounted.claimed_iff_engine found, fresh] at held
        cases held
      rw [PerStation.get_set, accounted.own_link found]
      by_cases same : station = claimed
      · subst same
        simp [Device.Engine.accept, Device.Engine.record, free]
      · rw [if_neg same]
        have other_station : (engine.accept claimed).state ≠ .authenticated station := by
          intro equal
          injection equal with equal
          exact same equal.symm
        split
        · subst other
          exact ⟨fun held => absurd held (notHeld station), fun held => absurd held other_station⟩
        · rfl

/-- After it was closed an engine holds nothing, and the others hold what they held. -/
theorem claimed_iff_close (accounted : Accounted scenario) {device : Nat}
    {engine : Device.Engine} (found : scenario.engine? device = some engine)
    (station : Station) (other : Nat) :
    (Device.close scenario.hub engine).1.stations.get station = some other ↔
      device ≠ other ∧ scenario.hub.stations.get station = some other := by
  have own := accounted.claimed_iff_engine found station
  unfold Device.close
  cases state : engine.state with
  | authenticated held =>
      have mine := accounted.claimed_iff_engine found held
      simp only [Hub.leaveDevice, PerStation.get_set]
      split
      · subst held
        have claimed := mine.mpr state
        simp [claimed]
      · constructor
        · intro claimed
          refine ⟨?_, claimed⟩
          rintro rfl
          rw [own, state] at claimed
          simp_all
        · exact And.right
  | connected | closed =>
      constructor
      · intro claimed
        refine ⟨?_, claimed⟩
        rintro rfl
        rw [own, state] at claimed
        cases claimed
      · exact And.right

/-! ## Every step keeps the invariant -/

theorem replaceEngine (accounted : Accounted scenario) {device : Nat}
    {engine changed : Device.Engine} {isPresent : Bool} {hub : Hub}
    (found : scenario.device? device = some ⟨some engine, isPresent⟩)
    (devices : hub.devices = scenario.hub.devices) (link : changed.link = engine.link)
    (claimed_iff : ∀ station other, hub.stations.get station = some other ↔
      if device = other then changed.state = .authenticated station
      else scenario.hub.stations.get station = some other) :
    Accounted ({ scenario with hub }.setDevice device ⟨some changed, true⟩) := by
  obtain ⟨atDevice, _⟩ := device?_eq_some_iff.mp found
  refine accounted.update atDevice ?_ ?_ ?_ ?_ ?_
  · rw [devices]
  · intro other
    rw [devices]
    split
    · subst other
      rw [accounted.holders, ownCount, found]
      rfl
    · rfl
  · rintro _ ⟨⟩
    exact link.trans (accounted.own_link (engine?_of_device? found))
  · intros
    rfl
  · intro station other
    rw [claimed_iff]
    simp

theorem dropDevice (accounted : Accounted scenario) (device : Nat) :
    Accounted (scenario.dropDevice device) := by
  unfold Scenario.dropDevice
  cases found : scenario.device? device with
  | none => exact accounted
  | some party =>
      obtain ⟨atDevice, isPresent⟩ := device?_eq_some_iff.mp found
      -- The link may live on with those who keep it, so the count need not reach zero.
      have held : scenario.hub.devices.holderCount device =
          1 + scenario.keptLinks.count (some device) := by
        rw [accounted.holders, ownCount, found]
        rfl
      have released : ∀ other, (scenario.hub.devices.release device).holderCount other =
          if device = other then 0 + scenario.keptLinks.count (some device)
          else scenario.hub.devices.holderCount other := by
        intro other
        rw [Links.holderCount_release]
        by_cases same : device = other
        · subst other
          simp [held]
        · rw [if_neg same, if_neg (Ne.symm same), Nat.sub_zero]
      obtain ⟨engine, present⟩ := party
      cases engine with
      | none =>
          refine accounted.update atDevice (Links.length_modify ..) released nofun nofun ?_
          intro station other
          have unclaimed := accounted.claimed_iff station device
          split
          · subst other
            rw [unclaimed, engine?, atDevice]
            rfl
          · rfl
      | some engine =>
          have atEngine := engine?_of_device? found
          have devices := Device.devices_close scenario.hub engine
          refine accounted.update atDevice ?_ ?_ ?_ ?_ ?_
          · change ((Device.close scenario.hub engine).1.devices.release device).table.length = _
            rw [devices]
            exact Links.length_modify ..
          · intro other
            change ((Device.close scenario.hub engine).1.devices.release device).holderCount
              other = _
            rw [devices]
            exact released other
          · rintro _ ⟨⟩
            change engine.link = device
            exact accounted.own_link atEngine
          · rintro _ station ⟨⟩ impossible
            cases impossible
          · intro station other
            change (Device.close scenario.hub engine).1.stations.get station = some other ↔ _
            rw [accounted.claimed_iff_close atEngine]
            split <;> simp_all [Device.close]

theorem keepDevice (accounted : Accounted scenario) (station : Station) :
    Accounted (scenario.keepDevice station).1 := by
  unfold Scenario.keepDevice
  cases found : scenario.hub.findDevice station with
  | none => exact accounted
  | some link =>
      have claimed : scenario.hub.stations.get station = some link := by
        rw [← accounted.findDevice_eq]
        exact found
      have live := (Links.isLive_iff ..).mp (accounted.isLive_of_claimed claimed)
      have inside := Links.lt_length_of_holderCount live
      refine ⟨?_, ?_, accounted.own_link, accounted.present, accounted.claimed_iff⟩
      · exact (Links.length_modify ..).trans accounted.length
      · intro device
        change (scenario.hub.devices.hold link).holderCount device =
          scenario.ownCount device + (scenario.keptLinks ++ [some link]).count (some device)
        rw [Links.holderCount_hold inside, accounted.holders, List.count_append,
          List.count_singleton]
        simp only [beq_iff_eq, Option.some.injEq]
        grind

theorem releaseKept (accounted : Accounted scenario) (kept : Nat) :
    Accounted (scenario.releaseKept kept) := by
  unfold Scenario.releaseKept
  split
  · rename_i link found
    obtain ⟨inside, atKept⟩ := List.getElem?_eq_some_iff.mp found
    refine ⟨?_, ?_, accounted.own_link, accounted.present, accounted.claimed_iff⟩
    · exact (Links.length_modify ..).trans accounted.length
    · intro device
      change (scenario.hub.devices.release link).holderCount device =
        scenario.ownCount device + (scenario.keptLinks.set kept none).count (some device)
      have member : device = link → 0 < scenario.keptLinks.count (some device) := by
        rintro rfl
        exact List.count_pos_iff.mpr (atKept ▸ List.getElem_mem inside)
      rw [Links.holderCount_release, accounted.holders, List.count_set inside, atKept]
      simp only [beq_iff_eq, Option.some.injEq]
      grind
  · exact accounted

theorem step (accounted : Accounted scenario) {step : Step} (proper : step.bypassesEngine = false) :
    Accounted (scenario.step step).1 := by
  cases step with
  | makeDeviceLink capacity => exact accounted.addDevice capacity nofun
  | makeDevice capacity => exact accounted.addDevice capacity (by rintro _ ⟨⟩; rfl)
  | joinDevice | leaveDevice => cases proper
  | findDevice | look => exact accounted
  | keepDevice station => exact accounted.keepDevice station
  | releaseKept kept => exact accounted.releaseKept kept
  | dropDevice device => exact accounted.dropDevice device
  | handleDevice device buffer =>
      simp only [Scenario.step]
      split
      · rename_i engine _ found
        exact accounted.replaceEngine found (Device.devices_handle ..) (Device.link_handle ..)
          (accounted.claimed_iff_handle (engine?_of_device? found) buffer)
      · exact accounted
  | takeActions device =>
      simp only [Scenario.step]
      split
      · rename_i engine _ found
        have unchanged : scenario.hub.devices = scenario.hub.devices := rfl
        exact accounted.replaceEngine found unchanged rfl
          (accounted.claimed_iff_of_same (engine?_of_device? found) rfl)
      · exact accounted
  | closeDevice device =>
      simp only [Scenario.step]
      split
      · rename_i engine _ found
        refine accounted.replaceEngine found (Device.devices_close ..) rfl ?_
        intro station other
        rw [accounted.claimed_iff_close (engine?_of_device? found)]
        split <;> simp_all [Device.close]
      · exact accounted
  | requestKept kept command =>
      simp only [Scenario.step]
      split
      · exact accounted.of_sameClaims (.postCommand scenario.hub _ command) rfl rfl
      · exact accounted
  | request device command =>
      simp only [Scenario.step]
      split
      · exact accounted
      · exact accounted.of_sameClaims (.postCommand scenario.hub device command) rfl rfl
  | takeCommand device =>
      exact accounted.of_sameClaims (.takeFrom scenario.hub device) rfl rfl
  | closeCommands device =>
      exact accounted.of_sameClaims (.closeMailbox scenario.hub device) rfl rfl
  | handleBrowser browser buffer =>
      simp only [Scenario.step]
      split
      · exact accounted.of_sameClaims (.handleBrowser scenario.directory scenario.hub _ buffer)
          rfl rfl
      · exact accounted
  | makeBrowser session flag capacity maxPayload =>
      exact accounted.of_sameClaims
        ((Hub.SameClaims.of_browsers scenario.hub _ _).trans (.joinBrowser _ session _)) rfl rfl
  | joinBrowser browser session =>
      simp only [Scenario.step]
      split
      · exact accounted
      · exact accounted.of_sameClaims (.joinBrowser scenario.hub _ _) rfl rfl
  | notify session reading =>
      simp only [Scenario.step]
      split
      · exact accounted
      · exact accounted.of_sameClaims (.notify scenario.hub _ reading) rfl rfl
  | keepNotifier session =>
      simp only [Scenario.step]
      split <;> exact accounted.of_sameClaims (.refl scenario.hub) rfl rfl
  | callNotifier kept reading =>
      simp only [Scenario.step]
      split
      · exact accounted
      · exact accounted.of_sameClaims (.notify scenario.hub _ reading) rfl rfl
  | deliver browser reading =>
      simp only [Scenario.step]
      split
      · exact accounted
      · exact accounted.of_sameClaims (.of_browsers scenario.hub _ _) rfl rfl
  | dropBrowser browser =>
      simp only [Scenario.step, Scenario.dropBrowser]
      split
      · exact accounted
      · exact accounted.of_sameClaims (.of_browsers scenario.hub _ _) rfl rfl
  | takeReplies browser =>
      simp only [Scenario.step]
      split
      · exact accounted.of_sameClaims (.refl scenario.hub) rfl rfl
      · exact accounted
  | makeBrowserLink | leaveBrowser | takeReading | closeReadings =>
      exact accounted.of_sameClaims (.of_browsers scenario.hub _ _) rfl rfl

theorem run (accounted : Accounted scenario) {steps : List Step}
    (proper : ∀ step ∈ steps, step.bypassesEngine = false) : Accounted (scenario.run steps) := by
  induction steps generalizing scenario with
  | nil => exact accounted
  | cons first rest ih =>
      obtain ⟨properFirst, properRest⟩ := List.forall_mem_cons.mp proper
      exact ih (accounted.step properFirst) properRest

end Accounted

/-! ## Stations belong to engines -/

/-- The map of stations says exactly which engine holds what. -/
structure Owned (scenario : Scenario) : Prop where
  /-- An engine holds a station exactly if the map gives the station to the engine's own link. -/
  held_iff : ∀ {device engine}, scenario.engine? device = some engine → ∀ station,
    engine.state = .authenticated station ↔
      scenario.hub.stations.get station = some engine.link
  /-- A lookup finds what the map says: no entry is dead. -/
  lookup_eq : ∀ station, scenario.hub.findDevice station = scenario.hub.stations.get station
  link_injective : ∀ {device other engine another}, scenario.engine? device = some engine →
    scenario.engine? other = some another → engine.link = another.link → device = other
  exclusive : ∀ {device other engine another station}, scenario.engine? device = some engine →
    scenario.engine? other = some another → engine.state = .authenticated station →
    another.state = .authenticated station → device = other
  /-- The list of connected stations ascends, so it holds no station twice. -/
  ascending : scenario.hub.connectedStations.Pairwise fun first second =>
    first.toByte < second.toByte
  listed_iff : ∀ station, station ∈ scenario.hub.connectedStations ↔
    ∃ device engine, scenario.engine? device = some engine ∧ engine.state = .authenticated station

/-- Stations that are accounted for belong to engines. -/
theorem Accounted.owned {scenario : Scenario} (accounted : Accounted scenario) :
    Owned scenario where
  held_iff found station := by
    rw [accounted.own_link found]
    exact (accounted.claimed_iff_engine found station).symm
  lookup_eq := accounted.findDevice_eq
  link_injective found foundOther same := by
    rwa [accounted.own_link found, accounted.own_link foundOther] at same
  exclusive found foundOther held heldOther := by
    have first := (accounted.claimed_iff_engine found _).mpr held
    have second := (accounted.claimed_iff_engine foundOther _).mpr heldOther
    exact Option.some.inj (first.symm.trans second)
  ascending := List.Pairwise.filter _ (by decide)
  listed_iff station := by
    rw [Hub.connectedStations, List.mem_filter, accounted.findDevice_eq, Option.isSome_iff_exists]
    simp only [Station.mem_all, true_and, accounted.claimed_iff]

/-- Closing or dropping one device leaves the engines of the others alone. -/
theorem engine?_step_of_ne {scenario : Scenario} {device other : Nat} (different : other ≠ device)
    {step : Step} (ending : step = .closeDevice device ∨ step = .dropDevice device) :
    (scenario.step step).1.engine? other = scenario.engine? other := by
  have kept : ∀ (hub : Hub) (party : DeviceParty),
      ({ scenario with hub }.setDevice device party).engine? other = scenario.engine? other := by
    intro hub party
    simp only [engine?, setDevice, List.getElem?_set_ne (Ne.symm different)]
  rcases ending with rfl | rfl
  · simp only [Scenario.step]
    split
    · exact kept _ _
    · rfl
  · simp only [Scenario.step, Scenario.dropDevice]
    split
    · rfl
    · exact kept _ _

/-- In every run in which only engines join and leave stations, stations belong to the engines
that were accepted for them, and the end of one device never takes the station of another. -/
theorem owned_run (directory : Directory) {steps : List Step}
    (proper : ∀ step ∈ steps, step.bypassesEngine = false) :
    let scenario := (start directory).run steps
    Owned scenario ∧
      ∀ device other engine station, other ≠ device → scenario.engine? other = some engine →
        engine.state = .authenticated station →
        (scenario.step (.closeDevice device)).1.hub.findDevice station = some engine.link ∧
          (scenario.step (.dropDevice device)).1.hub.findDevice station = some engine.link := by
  have accounted := (Accounted.start directory).run proper
  refine ⟨accounted.owned, ?_⟩
  intro device other engine station different found held
  have survives : ∀ step, step = .closeDevice device ∨ step = .dropDevice device →
      (((start directory).run steps).step step).1.hub.findDevice station = some engine.link := by
    intro step ending
    have after : Accounted (((start directory).run steps).step step).1 :=
      accounted.step (by rcases ending with rfl | rfl <;> rfl)
    have foundAfter := (engine?_step_of_ne different ending).trans found
    rw [after.findDevice_eq, after.own_link foundAfter, after.claimed_iff_engine foundAfter]
    exact held
  exact ⟨survives _ (Or.inl rfl), survives _ (Or.inr rfl)⟩

/-- Two devices contend for one station while somebody keeps the link of the first: once the
first has closed, the second is accepted, and neither a second close nor the drop of the first
takes the station away again. -/
theorem owned_run_contended :
    let device : Uuid := ⟨List.replicate 16 0x40, rfl⟩
    let hello := Uplink.encode (.hello device 1)
    let steps : List Step :=
      [.makeDevice 4, .makeDevice 4, .handleDevice 0 hello, .handleDevice 1 hello,
        .keepDevice .wf, .closeDevice 0, .handleDevice 1 hello, .closeDevice 0, .dropDevice 0]
    let directory : Directory := ⟨fun _ => true, Station.defaultName⟩
    let scenario := (start directory).run steps
    (∀ step ∈ steps, step.bypassesEngine = false) ∧ Owned scenario ∧
      scenario.hub.findDevice .wf = some 1 ∧ scenario.hub.devices.isLive 0 = true := by
  intro device hello steps directory scenario
  have proper : ∀ step ∈ steps, step.bypassesEngine = false := by decide
  exact ⟨proper, (owned_run directory proper).1, by decide, by decide⟩

end Scenario

end StationRelay
