import StationRelay.Proofs.Mailboxes
import StationRelay.Scenario

/-!
# A hub answers like a roster of the living

The maps of a hub keep the numbers of links that have died and pass over them at
every lookup.  A roster does the opposite: it knows who holds what, forgets a
session at the instant its link is let go by the last holder, and never asks
afterwards.  `Pictures` ties a hub to a roster, every operation keeps them tied,
and so the two give the same answers and the same mailboxes whatever is done
with sessions, links and notifiers.
-/

namespace StationRelay

/-! ## Operations on links -/

inductive LinkOperation (α : Type) where
  | make (capacity : Nat)
  /-- A holder holds the link once more. -/
  | hold (link : LinkId)
  /-- A holder lets the link go. -/
  | release (link : LinkId)
  /-- A holder posts. -/
  | post (link : LinkId) (item : α)
  /-- The receiving end asks for one item. -/
  | take (link : LinkId)
  /-- The receiving end goes away. -/
  | close (link : LinkId)

inductive LinkAnswer (α : Type) where
  | nothing
  | made (link : LinkId)
  | posted (success : Bool)
  | taken (taken : Scenario.Taken α)

namespace Links

variable {α : Type}

def operate (links : Links α) : LinkOperation α → Links α × LinkAnswer α
  | .make capacity => (links.create capacity, .made links.nextId)
  | .hold link => (if links.isLive link then links.hold link else links, .nothing)
  | .release link => (links.release link, .nothing)
  | .post link item =>
    if links.isLive link then (links.post link item, .posted (links.accepts link))
    else (links, .nothing)
  | .take link =>
    let (links, taken) := Scenario.takeFrom links link
    (links, .taken taken)
  | .close link => (links.closeMailbox link, .nothing)

end Links

/-- Mailboxes, and a bag with one entry for every hold on a link. -/
structure Holdings (α : Type) where
  mailboxes : List (Mailbox α)
  holds : List LinkId

namespace Holdings

variable {α : Type}

def empty : Holdings α := ⟨[], []⟩

def modify (holdings : Holdings α) (link : LinkId) (change : Mailbox α → Mailbox α) :
    Holdings α :=
  { holdings with mailboxes := holdings.mailboxes.modify link change }

def takeFrom (holdings : Holdings α) (link : LinkId) : Holdings α × Scenario.Taken α :=
  match holdings.mailboxes[link]? with
  | none => (holdings, .closed)
  | some mailbox =>
    if mailbox.isOpen = false then (holdings, .closed)
    else
      match mailbox.items with
      | item :: _ => (holdings.modify link Mailbox.drop, .item item)
      | [] => (holdings, if link ∈ holdings.holds then .empty else .disconnected)

def operate (holdings : Holdings α) : LinkOperation α → Holdings α × LinkAnswer α
  | .make capacity =>
    let link := holdings.mailboxes.length
    (⟨holdings.mailboxes ++ [Mailbox.ofCapacity capacity], link :: holdings.holds⟩, .made link)
  | .hold link =>
    (if link ∈ holdings.holds then { holdings with holds := link :: holdings.holds }
      else holdings, .nothing)
  | .release link => ({ holdings with holds := holdings.holds.erase link }, .nothing)
  | .post link item =>
    if link ∈ holdings.holds then
      (holdings.modify link (·.post item),
        .posted ((holdings.mailboxes[link]?).any fun mailbox => decide mailbox.Accepts))
    else (holdings, .nothing)
  | .take link =>
    let (holdings, taken) := holdings.takeFrom link
    (holdings, .taken taken)
  | .close link => (holdings.modify link Mailbox.close, .nothing)

end Holdings

/-! ## Operations on sessions -/

/-- What can be done with a hub from outside.  A notifier is known by the link it posts to, and
whoever knows it may call it at any time. -/
inductive Operation where
  | device (operation : LinkOperation Command)
  | browser (operation : LinkOperation Reading)
  | joinDevice (station : Station) (link : LinkId)
  | leaveDevice (station : Station)
  /-- A device is looked up, and whoever did it holds its link from now on. -/
  | findDevice (station : Station)
  | connectedStations
  | joinBrowser (session : Uuid) (entry : BrowserEntry)
  | leaveBrowser (session : Uuid)
  | findNotifier (session : Uuid)
  | browserCount
  | callNotifier (notifier : LinkId) (reading : Reading)

namespace Operation

inductive Answer where
  | nothing
  | device (answer : LinkAnswer Command)
  | browser (answer : LinkAnswer Reading)
  | joined (success : Bool)
  | found (link : Option LinkId)
  | stations (connected : List Station)
  | count (sessions : Nat)

end Operation

namespace Hub

/-- What an operation does; only a holder of a link can join with it. -/
def operate (hub : Hub) : Operation → Hub × Operation.Answer
  | .device operation =>
    let (devices, answer) := hub.devices.operate operation
    ({ hub with devices }, .device answer)
  | .browser operation =>
    let (browsers, answer) := hub.browsers.operate operation
    ({ hub with browsers }, .browser answer)
  | .joinDevice station link =>
    if hub.devices.isLive link then
      let (hub, joined) := hub.joinDevice station link
      (hub, .joined joined)
    else (hub, .nothing)
  | .leaveDevice station => (hub.leaveDevice station, .nothing)
  | .findDevice station =>
    match hub.findDevice station with
    | some link => ({ hub with devices := hub.devices.hold link }, .found (some link))
    | none => (hub, .found none)
  | .connectedStations => (hub, .stations hub.connectedStations)
  | .joinBrowser session entry =>
    if hub.browsers.isLive entry.link then
      let (hub, joined) := hub.joinBrowser session entry
      (hub, .joined joined)
    else (hub, .nothing)
  | .leaveBrowser session => (hub.leaveBrowser session, .nothing)
  | .findNotifier session => (hub, .found (hub.findNotifier session))
  | .browserCount => (hub, .count hub.browserCount)
  | .callNotifier notifier reading => (hub.notify notifier reading, .nothing)

def operateAll (hub : Hub) : List Operation → Hub × List Operation.Answer
  | [] => (hub, [])
  | operation :: rest =>
    let (next, answer) := hub.operate operation
    let (last, answers) := next.operateAll rest
    (last, answer :: answers)

end Hub

/-- A directory that stores living sessions only. -/
structure Roster where
  devices : Holdings Command
  browsers : Holdings Reading
  stations : Station → Option LinkId
  sessions : List (Uuid × BrowserEntry)

namespace Roster

def empty : Roster :=
  ⟨Holdings.empty, Holdings.empty, fun _ => none, []⟩

def setStation (roster : Roster) (station : Station) (link : Option LinkId) : Roster :=
  { roster with stations := fun other => if other = station then link else roster.stations other }

def eraseDevice (roster : Roster) (link : LinkId) : Roster :=
  if link ∈ roster.devices.holds then roster
  else
    { roster with stations := fun station =>
        if roster.stations station = some link then none else roster.stations station }

def eraseBrowser (roster : Roster) (link : LinkId) : Roster :=
  if link ∈ roster.browsers.holds then roster
  else { roster with sessions := roster.sessions.filter fun (_, entry) => entry.link ≠ link }

/-- What an operation does.  Entries are looked up as they are. -/
def operate (roster : Roster) : Operation → Roster × Operation.Answer
  | .device operation =>
    let (devices, answer) := roster.devices.operate operation
    let changed := { roster with devices }
    (match operation with
      | .release link => changed.eraseDevice link
      | _ => changed, .device answer)
  | .browser operation =>
    let (browsers, answer) := roster.browsers.operate operation
    let changed := { roster with browsers }
    (match operation with
      | .release link => changed.eraseBrowser link
      | _ => changed, .browser answer)
  | .joinDevice station link =>
    if link ∈ roster.devices.holds then
      match roster.stations station with
      | some _ => (roster, .joined false)
      | none => (roster.setStation station (some link), .joined true)
    else (roster, .nothing)
  | .leaveDevice station => (roster.setStation station none, .nothing)
  | .findDevice station =>
    (match roster.stations station with
      | some link => { roster with
          devices := { roster.devices with holds := link :: roster.devices.holds } }
      | none => roster, .found (roster.stations station))
  | .connectedStations =>
    (roster, .stations (Station.all.filter fun station => (roster.stations station).isSome))
  | .joinBrowser session entry =>
    if entry.link ∈ roster.browsers.holds then
      match roster.sessions.lookup session with
      | some _ => (roster, .joined false)
      | none => ({ roster with sessions := (session, entry) :: roster.sessions }, .joined true)
    else (roster, .nothing)
  | .leaveBrowser session =>
    ({ roster with sessions := roster.sessions.filter fun (other, _) => other ≠ session },
      .nothing)
  | .findNotifier session =>
    (roster, .found ((roster.sessions.lookup session).map BrowserEntry.notifier))
  | .browserCount => (roster, .count roster.sessions.length)
  | .callNotifier notifier reading =>
    (if notifier ∈ roster.browsers.holds then
        { roster with browsers := roster.browsers.modify notifier (·.post reading) }
      else roster, .nothing)

def operateAll (roster : Roster) : List Operation → Roster × List Operation.Answer
  | [] => (roster, [])
  | operation :: rest =>
    let (next, answer) := roster.operate operation
    let (last, answers) := next.operateAll rest
    (last, answer :: answers)

end Roster

/-! ## Links and holdings -/

namespace Links

variable {α : Type} {links : Links α} {holdings : Holdings α}

/-- The holdings show the mailboxes of all links, and one entry for every hold. -/
structure Shows (links : Links α) (holdings : Holdings α) : Prop where
  mailboxes : links.mailboxes = holdings.mailboxes
  holds : ∀ link, links.holderCount link = holdings.holds.count link

theorem holderCount_of_length_le {link : LinkId} (unknown : links.table.length ≤ link) :
    links.holderCount link = 0 := by
  apply Nat.eq_zero_of_not_pos
  intro held
  exact Nat.not_lt.mpr unknown (lt_length_of_holderCount held)

namespace Shows

theorem empty : (empty : Links α).Shows Holdings.empty :=
  ⟨rfl, fun _ => rfl⟩

variable (shows : links.Shows holdings)

include shows

theorem isLive_iff (link : LinkId) : links.isLive link = true ↔ link ∈ holdings.holds := by
  rw [Links.isLive_iff, shows.holds, List.count_pos_iff]

theorem isLive_eq_false_iff (link : LinkId) :
    links.isLive link = false ↔ link ∉ holdings.holds := by
  rw [← shows.isLive_iff, Bool.not_eq_true]

theorem nextId : links.nextId = holdings.mailboxes.length := by
  rw [← shows.mailboxes, length_mailboxes]
  rfl

theorem accepts (link : LinkId) :
    links.accepts link =
      (holdings.mailboxes[link]?).any fun mailbox => decide mailbox.Accepts := by
  rw [accepts_eq, shows.mailboxes]

theorem create (capacity : Nat) :
    (links.create capacity).Shows
      ⟨holdings.mailboxes ++ [Mailbox.ofCapacity capacity],
        holdings.mailboxes.length :: holdings.holds⟩ := by
  constructor
  · rw [mailboxes_create, shows.mailboxes]
  · intro link
    rw [holderCount_create, List.count_cons, ← shows.nextId]
    by_cases new : link = links.nextId
    · subst new
      have fresh : links.holderCount links.nextId = 0 :=
        holderCount_of_length_le (Nat.le_refl links.table.length)
      rw [if_pos rfl, if_pos (beq_self_eq_true _), ← shows.holds, fresh]
    · rw [if_neg new, shows.holds, if_neg (by simpa using Ne.symm new)]
      rfl

theorem hold {link : LinkId} (live : link ∈ holdings.holds) :
    (links.hold link).Shows { holdings with holds := link :: holdings.holds } := by
  constructor
  · rw [mailboxes_hold, shows.mailboxes]
  · intro other
    have held := (Links.isLive_iff ..).mp ((shows.isLive_iff link).mpr live)
    rw [holderCount_hold (lt_length_of_holderCount held), List.count_cons, shows.holds]
    simp only [beq_iff_eq, @eq_comm _ other link]

theorem release (link : LinkId) :
    (links.release link).Shows { holdings with holds := holdings.holds.erase link } := by
  constructor
  · rw [mailboxes_release, shows.mailboxes]
  · intro other
    rw [holderCount_release, List.count_erase, shows.holds]
    simp only [beq_iff_eq, @eq_comm _ other link]

theorem modify {link : LinkId} {change : Link α → Link α} {effect : Mailbox α → Mailbox α}
    (acts : ∀ link, (change link).mailbox = effect link.mailbox)
    (same : ∀ link, (change link).holders = link.holders) :
    (links.modify link change).Shows (holdings.modify link effect) := by
  constructor
  · rw [mailboxes_modify links link acts, shows.mailboxes]
    rfl
  · intro other
    rw [holderCount_modify links link other same, shows.holds]
    rfl

theorem takeFrom (link : LinkId) :
    (Scenario.takeFrom links link).2 = (holdings.takeFrom link).2 ∧
      (Scenario.takeFrom links link).1.Shows (holdings.takeFrom link).1 := by
  unfold Scenario.takeFrom Holdings.takeFrom
  rw [← shows.mailboxes, mailboxes_getElem?]
  cases found : links.get? link with
  | none => exact ⟨rfl, shows⟩
  | some opened =>
      dsimp only [Option.map_some]
      split
      · exact ⟨rfl, shows⟩
      · cases opened.mailbox.items with
        | cons item rest => exact ⟨rfl, shows.modify (fun _ => rfl) (fun _ => rfl)⟩
        | nil =>
            have count : opened.holders = holdings.holds.count link := by
              rw [← shows.holds, holderCount, found]
            refine ⟨?_, shows⟩
            rw [count]
            simp only [List.count_eq_zero, ite_not]

theorem operate (operation : LinkOperation α) :
    (links.operate operation).2 = (holdings.operate operation).2 ∧
      (links.operate operation).1.Shows (holdings.operate operation).1 := by
  cases operation with
  | make capacity => exact ⟨congrArg LinkAnswer.made shows.nextId, shows.create capacity⟩
  | hold link =>
      refine ⟨rfl, ?_⟩
      simp only [Links.operate, Holdings.operate, shows.isLive_iff]
      split
      · rename_i live
        exact shows.hold live
      · exact shows
  | release link => exact ⟨rfl, shows.release link⟩
  | post link item =>
      simp only [Links.operate, Holdings.operate, shows.isLive_iff, shows.accepts]
      split
      · exact ⟨rfl, shows.modify (fun _ => rfl) (fun _ => rfl)⟩
      · exact ⟨rfl, shows⟩
  | take link =>
      obtain ⟨answer, after⟩ := shows.takeFrom link
      exact ⟨congrArg LinkAnswer.taken answer, after⟩
  | close link => exact ⟨rfl, shows.modify (fun _ => rfl) (fun _ => rfl)⟩

end Shows

end Links

namespace Holdings

variable {α : Type} (holdings : Holdings α)

@[simp] theorem length_modify (link : LinkId) (change : Mailbox α → Mailbox α) :
    (holdings.modify link change).mailboxes.length = holdings.mailboxes.length :=
  List.length_modify ..

theorem length_le_operate (operation : LinkOperation α) :
    holdings.mailboxes.length ≤ (holdings.operate operation).1.mailboxes.length := by
  cases operation with
  | make capacity => simp [operate]
  | hold link =>
      simp only [operate]
      split <;> exact Nat.le_refl _
  | release link => exact Nat.le_refl _
  | post link item =>
      simp only [operate]
      split
      · exact Nat.le_of_eq (holdings.length_modify link _).symm
      · exact Nat.le_refl _
  | take link =>
      simp only [operate, takeFrom]
      split
      · exact Nat.le_refl _
      · split
        · exact Nat.le_refl _
        · split
          · exact Nat.le_of_eq (holdings.length_modify link _).symm
          · exact Nat.le_refl _
  | close link => exact Nat.le_of_eq (holdings.length_modify link _).symm

/-- As long as nobody lets a link go, the links that are held stay the same, the new ones apart. -/
theorem mem_holds_operate {operation : LinkOperation α}
    (keeps : ∀ gone, operation ≠ .release gone) {link : LinkId}
    (known : link < holdings.mailboxes.length) :
    link ∈ (holdings.operate operation).1.holds ↔ link ∈ holdings.holds := by
  cases operation with
  | make capacity =>
      have old : link ≠ holdings.mailboxes.length := Nat.ne_of_lt known
      simp [operate, old]
  | hold held =>
      simp only [operate]
      split
      · rename_i live
        rw [List.mem_cons, or_iff_right_of_imp]
        rintro rfl
        exact live
      · rfl
  | release gone => exact absurd rfl (keeps gone)
  | post target item =>
      simp only [operate]
      split <;> rfl
  | take target =>
      simp only [operate, takeFrom]
      split
      · rfl
      · split
        · rfl
        · split <;> rfl
  | close target => rfl

end Holdings

/-! ## A hub and its roster -/

namespace Hub

def liveSessions (hub : Hub) : List (Uuid × BrowserEntry) :=
  hub.sessions.filter fun (_, entry) => hub.browsers.isLive entry.link

/-- The roster stores what the hub finds.  Entries of the hub may be dead, but none of them names
a link that is still to be made, which would bring it to life. -/
structure Pictures (hub : Hub) (roster : Roster) : Prop where
  devices : hub.devices.Shows roster.devices
  browsers : hub.browsers.Shows roster.browsers
  stations : ∀ station, hub.findDevice station = roster.stations station
  sessions : hub.liveSessions = roster.sessions
  distinct : (hub.sessions.map Prod.fst).Nodup
  claimed_lt : ∀ {station link}, hub.stations.get station = some link →
    link < roster.devices.mailboxes.length
  entered_lt : ∀ {session entry}, (session, entry) ∈ hub.sessions →
    entry.link < roster.browsers.mailboxes.length

/-- A lookup depends on nothing but the liveness of the link that the station leads to. -/
theorem findDevice_congr {hub : Hub} {devices : Links Command} {station : Station}
    (same : ∀ link, hub.stations.get station = some link →
      devices.isLive link = hub.devices.isLive link) :
    { hub with devices }.findDevice station = hub.findDevice station := by
  unfold findDevice
  cases leads : hub.stations.get station with
  | none => rfl
  | some link => rw [Option.filter_some, Option.filter_some, same link leads]

theorem liveSessions_congr {hub : Hub} {browsers : Links Reading}
    (same : ∀ session entry, (session, entry) ∈ hub.sessions →
      browsers.isLive entry.link = hub.browsers.isLive entry.link) :
    { hub with browsers }.liveSessions = hub.liveSessions := by
  apply List.filter_congr
  rintro ⟨session, entry⟩ entered
  exact same session entry entered

/-- In a map without repeated names, looking up and filtering may be exchanged. -/
theorem lookup_filter {entries : List (Uuid × BrowserEntry)}
    (distinct : (entries.map Prod.fst).Nodup) (keep : BrowserEntry → Bool) (session : Uuid) :
    (entries.filter fun item => keep item.2).lookup session =
      (entries.lookup session).filter keep := by
  induction entries with
  | nil => rfl
  | cons first rest ih =>
      obtain ⟨name, entry⟩ := first
      obtain ⟨fresh, restDistinct⟩ := List.nodup_cons.mp distinct
      have after := ih restDistinct
      by_cases named : session = name
      · subst named
        -- No other entry has this name, so nothing is found once the first is filtered out.
        have nothing : rest.lookup session = none := by
          rw [List.lookup_eq_none_iff]
          intro other member
          rw [bne_iff_ne]
          rintro rfl
          exact fresh (List.mem_map.mpr ⟨other, member, rfl⟩)
        rw [List.lookup_cons_self, Option.filter_some, List.filter_cons]
        cases keep entry with
        | true => exact List.lookup_cons_self
        | false =>
            rw [if_neg nofun, if_neg nofun, after, nothing]
            rfl
      · have differs : (session == name) = false := beq_eq_false_iff_ne.mpr named
        rw [List.filter_cons]
        cases keep entry with
        | true =>
            rw [if_pos rfl]
            simp only [List.lookup_cons, differs]
            exact after
        | false =>
            rw [if_neg nofun]
            simp only [List.lookup_cons, differs]
            exact after

namespace Pictures

theorem empty : empty.Pictures Roster.empty := by
  refine ⟨.empty, .empty, ?_, rfl, List.nodup_nil, ?_, nofun⟩
  · intro station
    cases station <;> rfl
  · intro station link leads
    cases station <;> cases leads

variable {hub : Hub} {roster : Roster} (pictures : hub.Pictures roster)

include pictures

theorem liveEntry?_eq (session : Uuid) :
    hub.liveEntry? session = roster.sessions.lookup session := by
  rw [← pictures.sessions]
  exact (lookup_filter pictures.distinct (fun entry => hub.browsers.isLive entry.link) _).symm

theorem isLive_of_found {station : Station} {link : LinkId}
    (found : roster.stations station = some link) : link ∈ roster.devices.holds := by
  rw [← pictures.stations] at found
  rw [← pictures.devices.isLive_iff]
  exact (Option.filter_eq_some_iff.mp found).2

/-! ### Links of devices -/

/-- New links of devices, among which those that stations lead to are live as before. -/
theorem replaceDevices {devices : Links Command} {holdings : Holdings Command}
    (shows : devices.Shows holdings)
    (grows : roster.devices.mailboxes.length ≤ holdings.mailboxes.length)
    (same : ∀ link, link < roster.devices.mailboxes.length →
      (link ∈ holdings.holds ↔ link ∈ roster.devices.holds)) :
    { hub with devices }.Pictures { roster with devices := holdings } := by
  refine ⟨shows, pictures.browsers, ?_, pictures.sessions, pictures.distinct,
    fun leads => Nat.lt_of_lt_of_le (pictures.claimed_lt leads) grows, pictures.entered_lt⟩
  intro station
  rw [← pictures.stations station]
  apply findDevice_congr
  intro link leads
  rw [Bool.eq_iff_iff, shows.isLive_iff, pictures.devices.isLive_iff]
  exact same link (pictures.claimed_lt leads)

/-- The last holder of a device lets go: no station is found to lead to it any more. -/
theorem releaseDevice (link : LinkId) :
    { hub with devices := hub.devices.release link }.Pictures
      ({ roster with devices :=
          { roster.devices with holds := roster.devices.holds.erase link } }.eraseDevice link) := by
  have shows := pictures.devices.release link
  unfold Roster.eraseDevice
  split
  · rename_i held
    apply pictures.replaceDevices shows (Nat.le_refl _)
    intro other known
    by_cases gone : other = link
    · subst gone
      exact iff_of_true held (List.mem_of_mem_erase held)
    · exact List.mem_erase_of_ne gone
  · rename_i gone
    refine ⟨shows, pictures.browsers, ?_, pictures.sessions, pictures.distinct,
      pictures.claimed_lt, pictures.entered_lt⟩
    intro station
    have dead := (shows.isLive_eq_false_iff link).mpr gone
    change (hub.stations.get station).filter (hub.devices.release link).isLive =
      if roster.stations station = some link then none else roster.stations station
    rw [← pictures.stations station]
    unfold findDevice
    cases leads : hub.stations.get station with
    | none => rfl
    | some target =>
        by_cases same : target = link
        · subst same
          rw [Option.filter_some, Option.filter_some, dead, if_neg nofun]
          cases hub.devices.isLive target <;> simp
        · have unchanged : (hub.devices.release link).isLive target =
              hub.devices.isLive target := by
            rw [Bool.eq_iff_iff, shows.isLive_iff, pictures.devices.isLive_iff]
            exact List.mem_erase_of_ne same
          rw [Option.filter_some, Option.filter_some, unchanged]
          cases hub.devices.isLive target <;> simp [same]

theorem deviceOperation (operation : LinkOperation Command) :
    (hub.operate (.device operation)).2 = (roster.operate (.device operation)).2 ∧
      (hub.operate (.device operation)).1.Pictures (roster.operate (.device operation)).1 := by
  obtain ⟨answer, shows⟩ := pictures.devices.operate operation
  refine ⟨congrArg Operation.Answer.device answer, ?_⟩
  have kept (keeps : ∀ gone, operation ≠ .release gone) :=
    pictures.replaceDevices shows (roster.devices.length_le_operate operation)
      fun link known => roster.devices.mem_holds_operate keeps known
  cases operation with
  | release link => exact pictures.releaseDevice link
  | make | hold | post | take | close => exact kept nofun

/-! ### Links of browsers -/

/-- New links of browsers, among which those of the entries are live as before. -/
theorem replaceBrowsers {browsers : Links Reading} {holdings : Holdings Reading}
    (shows : browsers.Shows holdings)
    (grows : roster.browsers.mailboxes.length ≤ holdings.mailboxes.length)
    (same : ∀ link, link < roster.browsers.mailboxes.length →
      (link ∈ holdings.holds ↔ link ∈ roster.browsers.holds)) :
    { hub with browsers }.Pictures { roster with browsers := holdings } := by
  refine ⟨pictures.devices, shows, pictures.stations, ?_, pictures.distinct,
    pictures.claimed_lt, fun entered => Nat.lt_of_lt_of_le (pictures.entered_lt entered) grows⟩
  rw [← pictures.sessions]
  apply liveSessions_congr
  intro session entry entered
  rw [Bool.eq_iff_iff, shows.isLive_iff, pictures.browsers.isLive_iff]
  exact same entry.link (pictures.entered_lt entered)

/-- The last holder of a browser lets go: its entries are passed over from now on. -/
theorem releaseBrowser (link : LinkId) :
    { hub with browsers := hub.browsers.release link }.Pictures
      ({ roster with browsers :=
          { roster.browsers with holds := roster.browsers.holds.erase link } }.eraseBrowser
        link) := by
  have shows := pictures.browsers.release link
  unfold Roster.eraseBrowser
  split
  · rename_i held
    apply pictures.replaceBrowsers shows (Nat.le_refl _)
    intro other known
    by_cases gone : other = link
    · subst gone
      exact iff_of_true held (List.mem_of_mem_erase held)
    · exact List.mem_erase_of_ne gone
  · rename_i gone
    refine ⟨pictures.devices, shows, pictures.stations, ?_, pictures.distinct,
      pictures.claimed_lt, pictures.entered_lt⟩
    have dead := (shows.isLive_eq_false_iff link).mpr gone
    change hub.sessions.filter (fun item => (hub.browsers.release link).isLive item.2.link) =
      roster.sessions.filter (fun item => item.2.link ≠ link)
    rw [← pictures.sessions, liveSessions, List.filter_filter]
    apply List.filter_congr
    rintro ⟨session, entry⟩ entered
    dsimp only
    by_cases same : entry.link = link
    · rw [same, dead]
      simp
    · have unchanged : (hub.browsers.release link).isLive entry.link =
          hub.browsers.isLive entry.link := by
        rw [Bool.eq_iff_iff, shows.isLive_iff, pictures.browsers.isLive_iff]
        exact List.mem_erase_of_ne same
      simp [unchanged, same]

theorem browserOperation (operation : LinkOperation Reading) :
    (hub.operate (.browser operation)).2 = (roster.operate (.browser operation)).2 ∧
      (hub.operate (.browser operation)).1.Pictures (roster.operate (.browser operation)).1 := by
  obtain ⟨answer, shows⟩ := pictures.browsers.operate operation
  refine ⟨congrArg Operation.Answer.browser answer, ?_⟩
  have kept (keeps : ∀ gone, operation ≠ .release gone) :=
    pictures.replaceBrowsers shows (roster.browsers.length_le_operate operation)
      fun link known => roster.browsers.mem_holds_operate keeps known
  cases operation with
  | release link => exact pictures.releaseBrowser link
  | make | hold | post | take | close => exact kept nofun

/-! ### Stations -/

/-- A station is given to a live link, or to nobody. -/
theorem setStation (station : Station) {link : Option LinkId}
    (live : ∀ claimed, link = some claimed → claimed ∈ roster.devices.holds) :
    { hub with stations := hub.stations.set station link }.Pictures
      (roster.setStation station link) := by
  refine ⟨pictures.devices, pictures.browsers, ?_, pictures.sessions, pictures.distinct, ?_,
    pictures.entered_lt⟩
  · intro other
    change ((hub.stations.set station link).get other).filter hub.devices.isLive =
      if other = station then link else roster.stations other
    rw [PerStation.get_set]
    by_cases same : other = station
    · rw [if_pos same, if_pos same]
      cases link with
      | none => rfl
      | some claimed =>
          rw [Option.filter_some, if_pos ((pictures.devices.isLive_iff _).mpr (live claimed rfl))]
    · rw [if_neg same, if_neg same]
      exact pictures.stations other
  · intro other claimed leads
    change claimed < roster.devices.mailboxes.length
    change (hub.stations.set station link).get other = some claimed at leads
    rw [PerStation.get_set] at leads
    by_cases same : other = station
    · rw [if_pos same] at leads
      have held := (Links.isLive_iff ..).mp
        ((pictures.devices.isLive_iff claimed).mpr (live claimed leads))
      have inside := Links.lt_length_of_holderCount held
      rwa [← Links.length_mailboxes, pictures.devices.mailboxes] at inside
    · rw [if_neg same] at leads
      exact pictures.claimed_lt leads

theorem joinDevice (station : Station) (link : LinkId) :
    (hub.operate (.joinDevice station link)).2 = (roster.operate (.joinDevice station link)).2 ∧
      (hub.operate (.joinDevice station link)).1.Pictures
        (roster.operate (.joinDevice station link)).1 := by
  simp only [Hub.operate, Roster.operate, pictures.devices.isLive_iff, Hub.joinDevice,
    pictures.stations]
  split
  · rename_i live
    cases roster.stations station with
    | some holder => exact ⟨rfl, pictures⟩
    | none =>
        refine ⟨rfl, pictures.setStation station ?_⟩
        rintro claimed ⟨⟩
        exact live
  · exact ⟨rfl, pictures⟩

theorem findDevice (station : Station) :
    (hub.operate (.findDevice station)).2 = (roster.operate (.findDevice station)).2 ∧
      (hub.operate (.findDevice station)).1.Pictures
        (roster.operate (.findDevice station)).1 := by
  simp only [Hub.operate, Roster.operate, pictures.stations]
  cases found : roster.stations station with
  | none => exact ⟨rfl, pictures⟩
  | some link =>
      have live := pictures.isLive_of_found found
      refine ⟨rfl, pictures.replaceDevices (pictures.devices.hold live) (Nat.le_refl _) ?_⟩
      intro other known
      rw [List.mem_cons, or_iff_right_of_imp]
      rintro rfl
      exact live

/-! ### Sessions -/

theorem leaveBrowser (session : Uuid) :
    (hub.leaveBrowser session).Pictures
      { roster with sessions := roster.sessions.filter fun (other, _) => other ≠ session } := by
  refine ⟨pictures.devices, pictures.browsers, pictures.stations, ?_, ?_, pictures.claimed_lt,
    fun entered => pictures.entered_lt ((List.mem_filter.mp entered).1)⟩
  · rw [← pictures.sessions]
    unfold liveSessions Hub.leaveBrowser sessionsWithout
    rw [List.filter_filter, List.filter_filter]
    apply List.filter_congr
    intro item entered
    exact Bool.and_comm ..
  · exact pictures.distinct.sublist (List.filter_sublist.map Prod.fst)

theorem joinBrowser (session : Uuid) (entry : BrowserEntry) :
    (hub.operate (.joinBrowser session entry)).2 =
        (roster.operate (.joinBrowser session entry)).2 ∧
      (hub.operate (.joinBrowser session entry)).1.Pictures
        (roster.operate (.joinBrowser session entry)).1 := by
  simp only [Hub.operate, Roster.operate, pictures.browsers.isLive_iff, Hub.joinBrowser,
    pictures.liveEntry?_eq]
  split
  · rename_i live
    cases absent : roster.sessions.lookup session with
    | some holder => exact ⟨rfl, pictures⟩
    | none =>
        have left := pictures.leaveBrowser session
        refine ⟨rfl, pictures.devices, pictures.browsers, pictures.stations, ?_, ?_,
          pictures.claimed_lt, ?_⟩
        · -- The roster has no entry of this name, so leaving first changes nothing there.
          have unnamed : roster.sessions.filter (fun (other, _) => other ≠ session) =
              roster.sessions := by
            rw [List.filter_eq_self]
            intro item member
            have differs := bne_iff_ne.mp (List.lookup_eq_none_iff.mp absent item member)
            exact decide_eq_true (Ne.symm differs)
          have joined : hub.browsers.isLive entry.link = true :=
            (pictures.browsers.isLive_iff _).mpr live
          change ((session, entry) :: hub.sessionsWithout session).filter
            (fun item => hub.browsers.isLive item.2.link) = (session, entry) :: roster.sessions
          rw [List.filter_cons, if_pos joined]
          exact congrArg _ (left.sessions.trans unnamed)
        · refine List.nodup_cons.mpr ⟨?_, left.distinct⟩
          rintro member
          obtain ⟨item, kept, named⟩ := List.mem_map.mp member
          have different := (List.mem_filter.mp kept).2
          simp [named] at different
        · intro name other entered
          rcases List.mem_cons.mp entered with same | kept
          · cases same
            have held := (Links.isLive_iff ..).mp ((pictures.browsers.isLive_iff _).mpr live)
            have inside := Links.lt_length_of_holderCount held
            rwa [← Links.length_mailboxes, pictures.browsers.mailboxes] at inside
          · exact left.entered_lt kept
  · exact ⟨rfl, pictures⟩

theorem callNotifier (notifier : LinkId) (reading : Reading) :
    (hub.operate (.callNotifier notifier reading)).1.Pictures
      (roster.operate (.callNotifier notifier reading)).1 := by
  simp only [Hub.operate, Roster.operate, Hub.notify, pictures.browsers.isLive_iff]
  split
  · exact pictures.replaceBrowsers (pictures.browsers.modify (fun _ => rfl) fun _ => rfl)
      (Nat.le_of_eq (roster.browsers.length_modify ..).symm) fun _ _ => Iff.rfl
  · exact pictures

/-! ### All operations -/

theorem operate (operation : Operation) :
    (hub.operate operation).2 = (roster.operate operation).2 ∧
      (hub.operate operation).1.Pictures (roster.operate operation).1 := by
  cases operation with
  | device operation => exact pictures.deviceOperation operation
  | browser operation => exact pictures.browserOperation operation
  | joinDevice station link => exact pictures.joinDevice station link
  | leaveDevice station => exact ⟨rfl, pictures.setStation station nofun⟩
  | findDevice station => exact pictures.findDevice station
  | connectedStations =>
      refine ⟨congrArg Operation.Answer.stations ?_, pictures⟩
      unfold connectedStations
      simp only [pictures.stations]
  | joinBrowser session entry => exact pictures.joinBrowser session entry
  | leaveBrowser session => exact ⟨rfl, pictures.leaveBrowser session⟩
  | findNotifier session =>
      refine ⟨congrArg Operation.Answer.found ?_, pictures⟩
      rw [findNotifier, pictures.liveEntry?_eq]
  | browserCount =>
      exact ⟨congrArg (Operation.Answer.count ∘ List.length) pictures.sessions, pictures⟩
  | callNotifier notifier reading => exact ⟨rfl, pictures.callNotifier notifier reading⟩

omit pictures in
theorem operateAll (pictures : hub.Pictures roster) (operations : List Operation) :
    (hub.operateAll operations).2 = (roster.operateAll operations).2 ∧
      (hub.operateAll operations).1.Pictures (roster.operateAll operations).1 := by
  induction operations generalizing hub roster with
  | nil => exact ⟨rfl, pictures⟩
  | cons operation rest ih =>
      obtain ⟨answer, after⟩ := pictures.operate operation
      obtain ⟨answers, last⟩ := ih after
      exact ⟨List.cons_eq_cons.mpr ⟨answer, answers⟩, last⟩

end Pictures

end Hub

/-! ## The dead -/

/-- The sessions that a roster stores are alive. -/
structure Roster.Living (roster : Roster) : Prop where
  devices : ∀ {station link}, roster.stations station = some link → link ∈ roster.devices.holds
  browsers : ∀ {session entry}, (session, entry) ∈ roster.sessions →
    entry.link ∈ roster.browsers.holds

/-- The link of a browser was made, and everybody has let it go. -/
structure Roster.Gone (roster : Roster) (link : LinkId) : Prop where
  known : link < roster.browsers.mailboxes.length
  dead : link ∉ roster.browsers.holds

/-- Nobody can hold a dead link again. -/
theorem Roster.Gone.operate {roster : Roster} {link : LinkId} (gone : roster.Gone link)
    (operation : Operation) : (roster.operate operation).1.Gone link := by
  cases operation with
  | browser operation =>
      have holdings : (roster.operate (.browser operation)).1.browsers =
          (roster.browsers.operate operation).1 := by
        cases operation with
        | release other =>
            simp only [Roster.operate, eraseBrowser]
            split <;> rfl
        | make | hold | post | take | close => rfl
      constructor
      · rw [holdings]
        exact Nat.lt_of_lt_of_le gone.known (roster.browsers.length_le_operate operation)
      · rw [holdings]
        have same (keeps : ∀ other, operation ≠ .release other) :=
          roster.browsers.mem_holds_operate keeps gone.known
        intro held
        cases operation with
        | release other => exact gone.dead (List.mem_of_mem_erase held)
        | make | hold | post | take | close => exact gone.dead ((same nofun).mp held)
  | device operation =>
      have same : (roster.operate (.device operation)).1.browsers = roster.browsers := by
        cases operation with
        | release other =>
            simp only [Roster.operate, eraseDevice]
            split <;> rfl
        | make | hold | post | take | close => rfl
      exact ⟨same ▸ gone.known, same ▸ gone.dead⟩
  | callNotifier notifier reading =>
      simp only [Roster.operate]
      split
      · exact ⟨(roster.browsers.length_modify ..).symm ▸ gone.known, gone.dead⟩
      · exact gone
  | joinDevice station other =>
      simp only [Roster.operate]
      split
      · split <;> exact ⟨gone.known, gone.dead⟩
      · exact gone
  | findDevice station =>
      simp only [Roster.operate]
      split <;> exact ⟨gone.known, gone.dead⟩
  | joinBrowser session entry =>
      simp only [Roster.operate]
      split
      · split <;> exact ⟨gone.known, gone.dead⟩
      · exact gone
  | leaveDevice | leaveBrowser => exact ⟨gone.known, gone.dead⟩
  | connectedStations | findNotifier | browserCount => exact gone

theorem Roster.Gone.operateAll {roster : Roster} {link : LinkId} (gone : roster.Gone link)
    (operations : List Operation) : (roster.operateAll operations).1.Gone link := by
  induction operations generalizing roster with
  | nil => exact gone
  | cons operation rest ih => exact ih (gone.operate operation)

namespace Hub

/-- Dead entries of a hub, and notifiers that somebody keeps, count for nothing. -/
structure PassesOverTheDead (hub : Hub) : Prop where
  joinDevice_failed : ∀ {station link}, (hub.joinDevice station link).2 = false →
    (hub.joinDevice station link).1 = hub
  joinBrowser_failed : ∀ {session entry}, (hub.joinBrowser session entry).2 = false →
    (hub.joinBrowser session entry).1 = hub
  joinDevice_dead : ∀ {station dead} (link : LinkId), hub.stations.get station = some dead →
    hub.devices.isLive dead = false → (hub.joinDevice station link).2 = true
  joinBrowser_dead : ∀ {session dead} (entry : BrowserEntry), hub.entry? session = some dead →
    hub.browsers.isLive dead.link = false → (hub.joinBrowser session entry).2 = true
  findDevice_live : ∀ {station link}, hub.findDevice station = some link →
    hub.devices.isLive link = true
  connected_live : ∀ {station}, station ∈ hub.connectedStations →
    ∃ link, hub.stations.get station = some link ∧ hub.devices.isLive link = true
  findNotifier_live : ∀ {session notifier}, hub.findNotifier session = some notifier →
    ∃ entry, hub.entry? session = some entry ∧ entry.notifier = notifier ∧
      hub.browsers.isLive entry.link = true
  /-- Calling a notifier holds no link, and lets none go. -/
  holders_notify : ∀ (notifier : LinkId) (reading : Reading) (link : LinkId),
    (hub.notify notifier reading).browsers.holderCount link = hub.browsers.holderCount link
  /-- A browser that nobody holds stays away whatever is done, and its notifier does nothing. -/
  gone : ∀ {link}, link < hub.browsers.nextId → hub.browsers.isLive link = false →
    ∀ operations, let after := (hub.operateAll operations).1
      after.browsers.isLive link = false ∧
        (∀ session entry, after.liveEntry? session = some entry → entry.link ≠ link) ∧
        ∀ reading, after.notify link reading = after

namespace Pictures

variable {hub : Hub} {roster : Roster} (pictures : hub.Pictures roster)

include pictures

theorem living : roster.Living := by
  refine ⟨pictures.isLive_of_found, ?_⟩
  intro session entry entered
  rw [← pictures.sessions] at entered
  exact (pictures.browsers.isLive_iff _).mp (List.mem_filter.mp entered).2

theorem passesOverTheDead : hub.PassesOverTheDead where
  joinDevice_failed {station link} failed := by
    unfold Hub.joinDevice at failed ⊢
    cases found : hub.findDevice station with
    | some holder => rfl
    | none =>
        rw [found] at failed
        cases failed
  joinBrowser_failed {session entry} failed := by
    unfold Hub.joinBrowser at failed ⊢
    cases found : hub.liveEntry? session with
    | some holder => rfl
    | none =>
        rw [found] at failed
        cases failed
  joinDevice_dead {station dead} link leads isDead := by
    have nobody : hub.findDevice station = none := by
      unfold Hub.findDevice
      rw [leads, Option.filter_some, isDead, if_neg nofun]
    unfold Hub.joinDevice
    rw [nobody]
  joinBrowser_dead {session dead} entry leads isDead := by
    have nobody : hub.liveEntry? session = none := by
      unfold Hub.liveEntry?
      rw [leads, Option.filter_some, isDead, if_neg nofun]
    unfold Hub.joinBrowser
    rw [nobody]
  findDevice_live found := (Option.filter_eq_some_iff.mp found).2
  connected_live {station} listed := by
    have found := (List.mem_filter.mp listed).2
    obtain ⟨link, found⟩ := Option.isSome_iff_exists.mp found
    exact ⟨link, Option.filter_eq_some_iff.mp found⟩
  findNotifier_live {session notifier} found := by
    obtain ⟨entry, listed, same⟩ := Option.map_eq_some_iff.mp found
    obtain ⟨known, live⟩ := Option.filter_eq_some_iff.mp listed
    exact ⟨entry, known, same, live⟩
  holders_notify notifier reading link := by
    unfold Hub.notify
    split
    · exact hub.browsers.holderCount_post ..
    · rfl
  gone {link} known isDead operations := by
    have before : roster.Gone link := by
      rw [pictures.browsers.nextId] at known
      exact ⟨known, (pictures.browsers.isLive_eq_false_iff link).mp isDead⟩
    obtain ⟨-, after⟩ := pictures.operateAll operations
    have stillDead := (after.browsers.isLive_eq_false_iff link).mpr
      (before.operateAll operations).dead
    refine ⟨stillDead, ?_, ?_⟩
    · rintro session entry found rfl
      have live := (Option.filter_eq_some_iff.mp found).2
      rw [stillDead] at live
      cases live
    · intro reading
      unfold Hub.notify
      rw [stillDead, if_neg nofun]

end Pictures

/-- Whatever is done with sessions, links and notifiers, a hub gives the answers of a roster that
erases a session at the instant its link dies, and every mailbox holds the same.  In particular
the dead entries that pile up in a hub are never noticed. -/
theorem eager_operateAll (operations : List Operation) :
    let hub := (empty.operateAll operations).1
    let roster := (Roster.empty.operateAll operations).1
    (empty.operateAll operations).2 = (Roster.empty.operateAll operations).2 ∧
      hub.devices.mailboxes = roster.devices.mailboxes ∧
      hub.browsers.mailboxes = roster.browsers.mailboxes ∧
      roster.Living ∧ hub.PassesOverTheDead := by
  obtain ⟨answers, pictures⟩ := Pictures.empty.operateAll operations
  exact ⟨answers, pictures.devices.mailboxes, pictures.browsers.mailboxes, pictures.living,
    pictures.passesOverTheDead⟩

end Hub

end StationRelay
