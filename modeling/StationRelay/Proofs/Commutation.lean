import StationRelay.Proofs.Ownership

/-!
# Packets of different devices commute

What a packet does to the hub is a `Change`, and which one it is depends on the
hub only through the station that the packet claims.  Two packets that neither
claim one station nor are for one browser session therefore do the same in
either order, as long as no two names lead to one notifier.  `Signed.run` says
that this is so as long as browsers are registered under their own names only,
and `handleDevice_comm_run` is what follows for every run.
-/

namespace StationRelay

/-! ## Changes in different places -/

theorem PerStation.set_comm {α : Type} (table : PerStation α) {first second : Station}
    (different : first ≠ second) (value other : α) :
    (table.set first value).set second other = (table.set second other).set first value := by
  ext station
  simp only [PerStation.get_set]
  by_cases isSecond : station = second
  · subst isSecond
    rw [if_pos rfl, if_neg different.symm, if_pos rfl]
  · rw [if_neg isSecond, if_neg isSecond]

theorem Links.modify_comm {α : Type} (links : Links α) {first second : LinkId}
    (different : first ≠ second) (change other : Link α → Link α) :
    (links.modify first change).modify second other =
      (links.modify second other).modify first change := by
  unfold Links.modify
  congr 1
  apply List.ext_getElem?
  intro index
  simp only [List.getElem?_modify]
  by_cases isFirst : first = index
  · have notSecond : second ≠ index := fun same => different (isFirst.trans same.symm)
    simp [isFirst, notSecond]
  · simp [isFirst]

/-- No two names lead to one notifier. -/
def Hub.OwnNotifiers (hub : Hub) : Prop :=
  ∀ {first second : Uuid} {link : LinkId}, hub.findNotifier first = some link →
    hub.findNotifier second = some link → first = second

namespace Device

/-! ## What a packet names -/

def claim? (buffer : Bytes) : Option Station :=
  match Uplink.decode buffer with
  | .ok (.hello _ raw, _) => Station.ofByte? raw
  | _ => none

def addressee? (buffer : Bytes) : Option Uuid :=
  match Uplink.decode buffer with
  | .ok (.report report, _) => some report.session
  | _ => none

/-- The packets at the front of two buffers neither claim one station nor are for one browser
session. -/
structure Independent (first second : Bytes) : Prop where
  stations : ∀ station, claim? first = some station → claim? second ≠ some station
  sessions : ∀ session, addressee? first = some session → addressee? second ≠ some session

theorem Independent.symm {first second : Bytes} (independent : Independent first second) :
    Independent second first where
  stations station claimed other := independent.stations station other claimed
  sessions session named other := independent.sessions session other named

/-! ## What a packet changes -/

inductive Change where
  | nothing
  | claim (station : Station) (link : LinkId)
  | pass (station : Station) (report : Report)

namespace Change

def apply (hub : Hub) : Change → Hub
  | .nothing => hub
  | .claim station link => { hub with stations := hub.stations.set station (some link) }
  | .pass station report => onReport hub station report

/-- The change is about what the packet at the front of a buffer names. -/
inductive NamedBy (buffer : Bytes) : Change → Prop where
  | nothing : NamedBy buffer .nothing
  | claim {station : Station} (claimed : claim? buffer = some station) (link : LinkId) :
      NamedBy buffer (.claim station link)
  | pass {report : Report} (named : addressee? buffer = some report.session)
      (station : Station) : NamedBy buffer (.pass station report)

end Change

section Reports

variable (hub : Hub) (station : Station) (report other : Report)

def target? : Option LinkId :=
  (hub.findNotifier report.session).filter hub.browsers.isLive

theorem onReport_eq :
    onReport hub station report =
      match target? hub report with
      | some link => hub.postReading link (readingOf station report)
      | none => hub := by
  unfold onReport target? Hub.notify
  cases hub.findNotifier report.session with
  | none => rfl
  | some notifier => cases live : hub.browsers.isLive notifier <;> simp [Option.filter, live]

theorem target?_onReport : target? (onReport hub station other) report = target? hub report := by
  rw [onReport_eq]
  cases target? hub other with
  | none => rfl
  | some link =>
      have same : (hub.browsers.post link (readingOf station other)).isLive =
          hub.browsers.isLive := by
        funext number
        rw [Bool.eq_iff_iff, Links.isLive_iff, Links.isLive_iff, Links.holderCount_post]
      simp only [target?, Hub.findNotifier, Hub.liveEntry?, Hub.entry?, Hub.postReading, same]

end Reports

namespace Change

variable {hub : Hub} {first second : Change} {a b : Bytes}

theorem sessions_apply (hub : Hub) (change : Change) :
    (change.apply hub).sessions = hub.sessions := by
  cases change with
  | nothing | claim => rfl
  | pass =>
      rw [apply, onReport_eq]
      split <;> rfl

theorem length_apply (hub : Hub) (change : Change) :
    (change.apply hub).browsers.table.length = hub.browsers.table.length := by
  cases change with
  | nothing | claim => rfl
  | pass =>
      rw [apply, onReport_eq]
      split
      · exact hub.browsers.length_modify ..
      · rfl

/-- A change that claims another station does not matter to this one. -/
theorem findDevice_apply (named : first.NamedBy a) {station : Station}
    (other : claim? a ≠ some station) :
    (first.apply hub).findDevice station = hub.findDevice station := by
  cases named with
  | nothing => rfl
  | @claim claims claimed link =>
      have different : station ≠ claims := fun same => other (same ▸ claimed)
      simp only [apply, Hub.findDevice, PerStation.get_set, if_neg different]
  | pass named holder =>
      simp only [apply, Hub.findDevice, devices_onReport,
        (Hub.SameClaims.onReport hub _ _).stations]

/-- Changes that packets with nothing in common lead to commute. -/
theorem apply_comm (own : hub.OwnNotifiers) (namedFirst : first.NamedBy a)
    (namedSecond : second.NamedBy b) (independent : Independent a b) :
    second.apply (first.apply hub) = first.apply (second.apply hub) := by
  -- A claim writes the stations and a report the browsers; only two of a kind can meet.
  have apart (station holder : Station) (link : LinkId) (report : Report) :
      (Change.claim station link).apply (onReport hub holder report) =
        onReport ((Change.claim station link).apply hub) holder report := by
    rw [onReport_eq, onReport_eq]
    have same : target? ((Change.claim station link).apply hub) report = target? hub report := rfl
    rw [same]
    cases target? hub report <;> rfl
  cases namedFirst with
  | nothing => rfl
  | @claim claims claimed link =>
      cases namedSecond with
      | nothing => rfl
      | @claim station other another =>
          have different : claims ≠ station := by
            rintro rfl
            exact independent.stations _ claimed other
          simp only [apply, PerStation.set_comm _ different]
      | pass => exact (apart _ _ _ _).symm
  | @pass report named holder =>
      cases namedSecond with
      | nothing => rfl
      | claim => exact apart _ _ _ _
      | @pass measured other another =>
          have apart : report.session ≠ measured.session := fun same =>
            independent.sessions _ named (same ▸ other)
          simp only [apply]
          rw [onReport_eq (onReport hub holder report), onReport_eq (onReport hub another measured),
            target?_onReport, target?_onReport, onReport_eq, onReport_eq]
          cases foundFirst : target? hub report with
          | none => rfl
          | some link =>
              cases foundSecond : target? hub measured with
              | none => rfl
              | some notifier =>
                  have different : link ≠ notifier := by
                    rintro rfl
                    exact apart (own (Option.filter_eq_some_iff.mp foundFirst).1
                      (Option.filter_eq_some_iff.mp foundSecond).1)
                  simp only [Hub.postReading, Links.post, Links.modify_comm _ different]

end Change

/-! ## One call before or after another -/

section Calls

variable (directory : Directory)

/-- A handshake leads to the same change of every hub that agrees on whether its station is
free. -/
theorem exists_change_onHello (hub : Hub) (engine : Engine) (device : Uuid) {buffer : Bytes}
    {raw : UInt8} (names : claim? buffer = Station.ofByte? raw) :
    ∃ change : Change, change.NamedBy buffer ∧ ∀ other : Hub,
      (∀ station, claim? buffer = some station →
        (other.findDevice station = none ↔ hub.findDevice station = none)) →
        onHello directory other engine device raw =
          (change.apply other, (onHello directory hub engine device raw).2) := by
  unfold onHello
  by_cases holding : engine.IsAuthenticated
  · simp only [if_pos holding]
    exact ⟨.nothing, .nothing, fun _ _ => rfl⟩
  simp only [if_neg holding]
  cases known : Station.ofByte? raw with
  | none => exact ⟨.nothing, .nothing, fun _ _ => rfl⟩
  | some station =>
      dsimp only
      have claimed : claim? buffer = some station := names.trans known
      by_cases malformed : ¬ device.WellFormed
      · simp only [if_pos malformed]
        exact ⟨.nothing, .nothing, fun _ _ => rfl⟩
      simp only [if_neg malformed]
      by_cases unregistered : directory.isRegistered device = false
      · simp only [if_pos unregistered]
        exact ⟨.nothing, .nothing, fun _ _ => rfl⟩
      simp only [if_neg unregistered, Hub.joinDevice]
      cases found : hub.findDevice station with
      | none =>
          refine ⟨.claim station engine.link, .claim claimed _, fun other agrees => ?_⟩
          rw [(agrees station claimed).mpr found]
          rfl
      | some holder =>
          refine ⟨.nothing, .nothing, fun other agrees => ?_⟩
          cases foundOther : other.findDevice station with
          | none =>
              rw [(agrees station claimed).mp foundOther] at found
              cases found
          | some another => rfl

/-- A call leads to the same change, verdict and engine in every hub that agrees on whether the
station that is claimed is free. -/
theorem exists_change (hub : Hub) (engine : Engine) (buffer : Bytes) :
    ∃ change : Change, change.NamedBy buffer ∧ ∀ other : Hub,
      (∀ station, claim? buffer = some station →
        (other.findDevice station = none ↔ hub.findDevice station = none)) →
        handle directory other engine buffer =
          { handle directory hub engine buffer with hub := change.apply other } := by
  unfold handle
  by_cases closed : engine.state = .closed
  · simp only [if_pos closed]
    exact ⟨.nothing, .nothing, fun _ _ => rfl⟩
  simp only [if_neg closed]
  cases decoded : Uplink.decode buffer with
  | error error =>
      refine ⟨.nothing, .nothing, fun _ _ => ?_⟩
      cases error <;> rfl
  | ok read =>
      obtain ⟨packet, consumed⟩ := read
      dsimp only
      cases packet with
      | hello device raw =>
          have names : claim? buffer = Station.ofByte? raw := by rw [claim?, decoded]
          obtain ⟨change, named, same⟩ := exists_change_onHello directory hub engine device names
          refine ⟨change, named, fun other agrees => ?_⟩
          simp only [onPacket, same other agrees]
      | pong =>
          refine ⟨.nothing, .nothing, fun _ _ => ?_⟩
          by_cases held : engine.IsAuthenticated
          · simp only [onPacket, if_pos held]
            rfl
          · simp only [onPacket, if_neg held]
            rfl
      | report report =>
          cases held : engine.station? with
          | none =>
              refine ⟨.nothing, .nothing, fun _ _ => ?_⟩
              simp only [onPacket, held]
              rfl
          | some station =>
              have named : addressee? buffer = some report.session := by rw [addressee?, decoded]
              refine ⟨.pass station report, .pass named station, fun _ _ => ?_⟩
              simp only [onPacket, held]
              rfl

/-- Two calls with nothing in common do the same in either order. -/
theorem handle_comm {hub : Hub} (own : hub.OwnNotifiers) (first second : Engine) {a b : Bytes}
    (independent : Independent a b) :
    ∃ both,
      handle directory (handle directory hub first a).hub second b =
          { handle directory hub second b with hub := both } ∧
        handle directory (handle directory hub second b).hub first a =
          { handle directory hub first a with hub := both } := by
  obtain ⟨change, named, result⟩ := exists_change directory hub first a
  obtain ⟨other, namedOther, resultOther⟩ := exists_change directory hub second b
  have here := result hub fun _ _ => Iff.rfl
  have there := resultOther hub fun _ _ => Iff.rfl
  refine ⟨other.apply (change.apply hub), ?_, ?_⟩
  · rw [here]
    refine resultOther _ fun station claimed => ?_
    rw [Change.findDevice_apply named (independent.symm.stations station claimed)]
  · rw [there, Change.apply_comm own named namedOther independent]
    refine result _ fun station claimed => ?_
    rw [Change.findDevice_apply namedOther (independent.stations station claimed)]

end Calls

end Device

/-- A browser changes no entry and no link of a browser. -/
theorem Browser.handle_hub (directory : Directory) (hub : Hub) (engine : Engine)
    (buffer : Bytes) :
    (handle directory hub engine buffer).hub.sessions = hub.sessions ∧
      (handle directory hub engine buffer).hub.browsers = hub.browsers := by
  have forwards (hub : Hub) (command : Command) (stationIds : List UInt8) :
      (forward hub command stationIds).1.sessions = hub.sessions ∧
        (forward hub command stationIds).1.browsers = hub.browsers := by
    induction stationIds generalizing hub with
    | nil => exact ⟨rfl, rfl⟩
    | cons raw rest ih =>
        obtain ⟨sessions, browsers⟩ := ih (forwardTo hub command raw).1
        have same : (forwardTo hub command raw).1.sessions = hub.sessions ∧
            (forwardTo hub command raw).1.browsers = hub.browsers := by
          unfold forwardTo
          split <;> exact ⟨rfl, rfl⟩
        exact ⟨sessions.trans same.1, browsers.trans same.2⟩
  unfold handle
  split
  · split
    · rename_i request _
      cases request with
      | stations => exact ⟨rfl, rfl⟩
      | readings stationIds => exact forwards hub _ stationIds
    · exact ⟨rfl, rfl⟩
  all_goals exact ⟨rfl, rfl⟩

namespace Scenario

/-! ## Every browser under its own name -/

/-- The step does not register a browser under a name that is not its own. -/
def Step.keepsNames : Step → Bool
  | .joinBrowser _ (some _) => false
  | _ => true

def names (scenario : Scenario) : List Uuid :=
  scenario.browsers.map BrowserParty.session

/-- Every entry of the map of sessions has the name of the browser that its notifier posts to. -/
structure Signed (scenario : Scenario) : Prop where
  length : scenario.hub.browsers.table.length = scenario.browsers.length
  entered : ∀ {name : Uuid} {entry : BrowserEntry}, (name, entry) ∈ scenario.hub.sessions →
    scenario.names[entry.notifier]? = some name

theorem length_takeFrom {α : Type} (links : Links α) (id : LinkId) :
    (takeFrom links id).1.table.length = links.table.length := by
  unfold takeFrom
  split
  · rfl
  · split
    · rfl
    · split
      · exact links.length_modify ..
      · rfl

namespace Signed

variable {scenario : Scenario}

theorem start (directory : Directory) : Signed (Scenario.start directory) :=
  ⟨rfl, nofun⟩

theorem ownNotifiers (signed : Signed scenario) : scenario.hub.OwnNotifiers := by
  have named {name : Uuid} {link : LinkId} (found : scenario.hub.findNotifier name = some link) :
      scenario.names[link]? = some name := by
    obtain ⟨entry, live, rfl⟩ := Option.map_eq_some_iff.mp found
    obtain ⟨listed, -⟩ := Option.filter_eq_some_iff.mp live
    obtain ⟨before, after, entries, -⟩ := List.lookup_eq_some_iff.mp listed
    exact signed.entered (by simp [entries])
  intro first second link foundFirst foundSecond
  exact Option.some.inj ((named foundFirst).symm.trans (named foundSecond))

theorem of_same {other : Scenario} (signed : Signed scenario)
    (sessions : other.hub.sessions ⊆ scenario.hub.sessions)
    (length : other.hub.browsers.table.length = scenario.hub.browsers.table.length)
    (names : other.names = scenario.names) : Signed other where
  length := by
    have same := congrArg List.length names
    simp only [Scenario.names, List.length_map] at same
    rw [length, signed.length, same]
  entered member := names ▸ signed.entered (sessions member)

theorem addBrowser (signed : Signed scenario) (session : Uuid) (capacity : Nat)
    (engine : Option Browser.Engine) : Signed (scenario.addBrowser session capacity engine) where
  length := by simp [Scenario.addBrowser, Links.create, signed.length]
  entered {name entry} member := by
    have old := signed.entered member
    have inside := (List.getElem?_eq_some_iff.mp old).1
    simp only [names, Scenario.addBrowser, List.map_append] at old inside ⊢
    rw [List.getElem?_append_left inside]
    exact old

/-- A browser registers under its own name. -/
theorem joinBrowser (signed : Signed scenario) {name : Uuid} {entry : BrowserEntry}
    (own : scenario.names[entry.notifier]? = some name) :
    Signed { scenario with hub := (scenario.hub.joinBrowser name entry).1 } := by
  unfold Hub.joinBrowser
  split
  · exact signed
  · refine ⟨signed.length, fun member => ?_⟩
    rcases List.mem_cons.mp member with same | old
    · cases same
      exact own
    · exact signed.entered (List.mem_filter.mp old).1

theorem names_setBrowser {browser : Nat} {party fresh : BrowserParty}
    (found : scenario.browser? browser = some party) (same : fresh.session = party.session) :
    (scenario.setBrowser browser fresh).names = scenario.names := by
  obtain ⟨there, -⟩ := Option.filter_eq_some_iff.mp found
  apply List.ext_getElem?
  intro index
  simp only [names, setBrowser, List.map_set, List.getElem?_set, List.length_map, same]
  split
  · rename_i isHere
    subst isHere
    have inside := (List.getElem?_eq_some_iff.mp there).1
    rw [if_pos inside, List.getElem?_map, there]
    rfl
  · rfl

theorem of_hub (signed : Signed scenario) {hub : Hub}
    (sessions : hub.sessions ⊆ scenario.hub.sessions)
    (length : hub.browsers.table.length = scenario.hub.browsers.table.length) :
    Signed { scenario with hub } :=
  signed.of_same sessions length rfl

theorem notify (signed : Signed scenario) (notifier : LinkId) (reading : Reading) :
    Signed { scenario with hub := scenario.hub.notify notifier reading } := by
  unfold Hub.notify
  split
  · exact signed.of_hub (fun _ => id) (scenario.hub.browsers.length_modify ..)
  · exact signed

/-- Every step that keeps the names keeps the entries signed. -/
theorem step (signed : Signed scenario) {step : Step} (proper : step.keepsNames = true) :
    Signed (scenario.step step).1 := by
  cases step with
  | makeDeviceLink | makeDevice | leaveDevice | findDevice | takeCommand | closeCommands | look =>
      exact signed.of_same (fun _ => id) rfl rfl
  | joinDevice device station =>
      simp only [Scenario.step, Hub.joinDevice]
      split
      · exact signed
      · split <;> exact signed.of_hub (fun _ => id) rfl
  | keepDevice station =>
      simp only [Scenario.step, Scenario.keepDevice]
      split
      · exact signed
      · exact signed.of_same (fun _ => id) rfl rfl
  | requestKept kept command =>
      simp only [Scenario.step]
      split
      · exact signed.of_hub (fun _ => id) rfl
      · exact signed
  | releaseKept kept =>
      simp only [Scenario.step, Scenario.releaseKept]
      split
      · exact signed.of_same (fun _ => id) rfl rfl
      · exact signed
  | request device command =>
      simp only [Scenario.step]
      split
      · exact signed
      · exact signed.of_hub (fun _ => id) rfl
  | dropDevice device =>
      simp only [Scenario.step, Scenario.dropDevice]
      split
      · exact signed
      · rename_i party _
        cases party.engine with
        | none => exact signed.of_same (fun _ => id) rfl rfl
        | some engine =>
            have sessions := Device.sessions_close scenario.hub engine
            have browsers := Device.browsers_close scenario.hub engine
            exact signed.of_same (fun _ => (sessions ▸ ·)) (congrArg (·.table.length) browsers) rfl
  | handleDevice device buffer =>
      simp only [Scenario.step]
      split
      · rename_i engine _ _
        obtain ⟨change, -, result⟩ :=
          Device.exists_change scenario.directory scenario.hub engine buffer
        rw [result scenario.hub fun _ _ => Iff.rfl]
        have sessions := change.sessions_apply scenario.hub
        exact signed.of_same (fun _ => (sessions ▸ ·)) (change.length_apply scenario.hub) rfl
      · exact signed
  | takeActions device =>
      simp only [Scenario.step]
      split
      · exact signed.of_same (fun _ => id) rfl rfl
      · exact signed
  | closeDevice device =>
      simp only [Scenario.step]
      split
      · rename_i engine _ _
        have sessions := Device.sessions_close scenario.hub engine
        have browsers := Device.browsers_close scenario.hub engine
        exact signed.of_same (fun _ => (sessions ▸ ·)) (congrArg (·.table.length) browsers) rfl
      · exact signed
  | makeBrowserLink session capacity => exact signed.addBrowser session capacity none
  | makeBrowser session flag capacity maxPayload =>
      refine (signed.addBrowser session capacity _).joinBrowser ?_
      simp [names, Scenario.addBrowser, Links.nextId, signed.length]
  | joinBrowser browser session =>
      cases session with
      | some name => cases proper
      | none =>
          simp only [Scenario.step]
          split
          · exact signed
          · rename_i party found
            obtain ⟨there, -⟩ := Option.filter_eq_some_iff.mp found
            refine signed.joinBrowser ?_
            simp [names, there]
  | leaveBrowser session =>
      exact signed.of_hub (fun _ member => (List.mem_filter.mp member).1) rfl
  | notify session reading =>
      simp only [Scenario.step]
      split
      · exact signed
      · exact signed.notify _ reading
  | keepNotifier session =>
      simp only [Scenario.step]
      split
      · exact signed
      · exact signed.of_same (fun _ => id) rfl rfl
  | callNotifier kept reading =>
      simp only [Scenario.step]
      split
      · exact signed
      · exact signed.notify _ reading
  | deliver browser reading =>
      simp only [Scenario.step]
      split
      · exact signed
      · exact signed.of_hub (fun _ => id) (scenario.hub.browsers.length_modify ..)
  | takeReading browser =>
      exact signed.of_hub (fun _ => id) (length_takeFrom ..)
  | closeReadings browser =>
      exact signed.of_hub (fun _ => id) (scenario.hub.browsers.length_modify ..)
  | dropBrowser browser =>
      simp only [Scenario.step, Scenario.dropBrowser]
      split
      · exact signed
      · rename_i party found
        exact signed.of_same (fun _ => id) (scenario.hub.browsers.length_modify ..)
          (names_setBrowser found rfl)
  | handleBrowser browser buffer =>
      simp only [Scenario.step]
      split
      · rename_i session engine _ found
        obtain ⟨sessions, browsers⟩ :=
          Browser.handle_hub scenario.directory scenario.hub engine buffer
        exact signed.of_same (fun _ => (sessions ▸ ·)) (congrArg (·.table.length) browsers)
          (names_setBrowser found rfl)
      · exact signed
  | takeReplies browser =>
      simp only [Scenario.step]
      split
      · rename_i session engine _ found
        exact signed.of_same (fun _ => id) rfl (names_setBrowser found rfl)
      · exact signed

theorem run (signed : Signed scenario) {steps : List Step}
    (proper : ∀ step ∈ steps, step.keepsNames = true) : Signed (scenario.run steps) := by
  induction steps generalizing scenario with
  | nil => exact signed
  | cons first rest ih =>
      obtain ⟨properFirst, properRest⟩ := List.forall_mem_cons.mp proper
      exact ih (signed.step properFirst) properRest

end Signed

/-! ## Two devices -/

def handler? (scenario : Scenario) (device : Nat) : Option Device.Engine :=
  (scenario.device? device).bind DeviceParty.engine

def afterHandling (scenario : Scenario) (device : Nat) (handled : Device.Handled) : Scenario :=
  { scenario with hub := handled.hub }.setDevice device ⟨some handled.engine, true⟩

theorem step_handleDevice (scenario : Scenario) (device : Nat) (buffer : Bytes) :
    scenario.step (.handleDevice device buffer) =
      match scenario.handler? device with
      | some engine =>
        let handled := Device.handle scenario.directory scenario.hub engine buffer
        (scenario.afterHandling device handled, .handled handled.verdict handled.consumed)
      | none => (scenario, .nothing) := by
  unfold handler?
  simp only [step]
  rcases scenario.device? device with _ | ⟨_ | engine, isPresent⟩ <;> rfl

theorem handler?_afterHandling {scenario : Scenario} {device other : Nat}
    (different : device ≠ other) (handled : Device.Handled) :
    (scenario.afterHandling device handled).handler? other = scenario.handler? other := by
  simp only [handler?, device?, afterHandling, setDevice, List.getElem?_set_ne different]

/-- Packets with nothing in common, handled by two devices, have the same answers and lead to the
same scenario in either order. -/
theorem handleDevice_comm {scenario : Scenario} (own : scenario.hub.OwnNotifiers)
    {first second : Nat} (different : first ≠ second) {a b : Bytes}
    (independent : Device.Independent a b) :
    let handleFirst := Step.handleDevice first a
    let handleSecond := Step.handleDevice second b
    ((scenario.step handleFirst).1.step handleSecond).1 =
        ((scenario.step handleSecond).1.step handleFirst).1 ∧
      ((scenario.step handleFirst).1.step handleSecond).2 = (scenario.step handleSecond).2 ∧
      ((scenario.step handleSecond).1.step handleFirst).2 = (scenario.step handleFirst).2 := by
  intro handleFirst handleSecond
  simp only [handleFirst, handleSecond, step_handleDevice]
  cases foundFirst : scenario.handler? first with
  | none =>
      cases foundSecond : scenario.handler? second with
      | none => simp only [foundFirst, and_self]
      | some engine =>
          simp only [foundFirst, handler?_afterHandling different.symm, and_self]
  | some engine =>
      cases foundSecond : scenario.handler? second with
      | none =>
          simp only [foundFirst, foundSecond, handler?_afterHandling different, and_self]
      | some other =>
          obtain ⟨both, secondLater, firstLater⟩ :=
            Device.handle_comm scenario.directory own engine other independent
          simp only [handler?_afterHandling different, handler?_afterHandling different.symm,
            foundFirst, foundSecond]
          have hubs (device : Nat) (handled : Device.Handled) :
              (scenario.afterHandling device handled).hub = handled.hub := rfl
          have directories (device : Nat) (handled : Device.Handled) :
              (scenario.afterHandling device handled).directory = scenario.directory := rfl
          simp only [hubs, directories, secondLater, firstLater]
          simp only [afterHandling, setDevice, List.set_comm _ _ different, and_self]

/-- In every run in which browsers are registered under their own names, packets of two devices
that have nothing in common can be handled in either order. -/
theorem handleDevice_comm_run (directory : Directory) {steps : List Step}
    (proper : ∀ step ∈ steps, step.keepsNames = true) {first second : Nat}
    (different : first ≠ second) {a b : Bytes} (independent : Device.Independent a b) :
    let scenario := (start directory).run steps
    let handleFirst := Step.handleDevice first a
    let handleSecond := Step.handleDevice second b
    ((scenario.step handleFirst).1.step handleSecond).1 =
        ((scenario.step handleSecond).1.step handleFirst).1 ∧
      ((scenario.step handleFirst).1.step handleSecond).2 = (scenario.step handleSecond).2 ∧
      ((scenario.step handleSecond).1.step handleFirst).2 = (scenario.step handleFirst).2 := by
  have signed := (Signed.start directory).run proper
  exact handleDevice_comm signed.ownNotifiers different independent

/-- Two devices report to two browsers, each with room for one reading. -/
theorem handleDevice_comm_run_two_reports :
    let directory : Directory := ⟨fun _ => true, Station.defaultName⟩
    let name (byte : UInt8) : Uuid := ⟨List.replicate 16 byte, by rw [List.length_replicate]⟩
    let steps : List Step :=
      [.makeDevice 4, .makeDevice 4, .makeBrowser (name 1) .plain 1 4096,
        .makeBrowser (name 2) .plain 1 4096,
        .handleDevice 0 (Uplink.encode (.hello (name 0x40) 0)),
        .handleDevice 1 (Uplink.encode (.hello (name 0x40) 1))]
    let a := Uplink.encode (.report ⟨name 1, ⟨0x41ac0000⟩, ⟨0x42480000⟩, 7, .plain⟩)
    let b := Uplink.encode (.report ⟨name 2, ⟨0x7fc00001⟩, ⟨0x80000000⟩, 9, .secure⟩)
    let scenario := (start directory).run steps
    let last := ((scenario.step (.handleDevice 0 a)).1.step (.handleDevice 1 b)).1
    (∀ step ∈ steps, step.keepsNames = true) ∧ Device.Independent a b ∧
      last = ((scenario.step (.handleDevice 1 b)).1.step (.handleDevice 0 a)).1 ∧
      last.hub.browsers.items 0 = [⟨.goe, ⟨0x41ac0000⟩, ⟨0x42480000⟩, 7⟩] ∧
      last.hub.browsers.items 1 = [⟨.wf, ⟨0x7fc00001⟩, ⟨0x80000000⟩, 9⟩] := by
  intro directory name steps a b scenario last
  have proper : ∀ step ∈ steps, step.keepsNames = true := by decide
  have claims : Device.claim? a = none := by decide
  have named : Device.addressee? a = some (name 1) ∧ Device.addressee? b = some (name 2) := by
    decide
  have independent : Device.Independent a b := by
    refine ⟨fun station claimed => ?_, fun session first second => ?_⟩
    · rw [claims] at claimed
      cases claimed
    · rw [named.1] at first
      rw [named.2, ← first] at second
      exact absurd second (by decide)
  exact ⟨proper, independent,
    (handleDevice_comm_run directory proper (by decide) independent).1, by decide, by decide⟩

end Scenario

end StationRelay
