import StationRelay.Proofs.Provenance
import StationRelay.Proofs.Roster

/-!
# How long a browser session is registered

A browser session has an entry in the hub from its start to its end, unless it
is turned away because a session that runs has its name.  `Enrolled` ties the
entries to the sessions that run, and counts who holds the link of each: the
session itself, and every device session that is about to post to it.
`Registered` is what follows for whoever looks a name up.
-/

namespace StationRelay

theorem countP_set_add {α : Type} {list : List α} {index : Nat} {old : α}
    (found : list[index]? = some old) (counts : α → Bool) (new : α) :
    (list.set index new).countP counts + (counts old).toNat =
      list.countP counts + (counts new).toNat := by
  obtain ⟨inside, rfl⟩ := List.getElem?_eq_some_iff.mp found
  have atLeast : counts list[index] = true → 0 < list.countP counts := fun here =>
    List.countP_pos_iff.mpr ⟨_, List.getElem_mem inside, here⟩
  rw [List.countP_set inside]
  cases here : counts list[index] with
  | false => cases counts new <;> simp
  | true =>
      have positive := atLeast here
      cases counts new <;> simp <;> omega

/-! ## Who holds the link of a browser session -/

namespace Device

/-- The session is about to post through this link. -/
def Worker.holds (link : LinkId) (worker : Worker) : Bool :=
  match worker.task with
  | .post _ held => decide (held = link)
  | .rest | .drain | .call .. => false

section Turns

variable {directory : Directory} {now : Instant} {hub : Hub} {worker : Worker}
  {turn : Turn Worker Note}

theorem Worker.holds_of_post {pending : Pending} {held : LinkId}
    (posting : worker.task = .post pending held) (link : LinkId) :
    worker.holds link = decide (held = link) := by
  rw [holds, posting]

theorem Worker.holds_eq_false (notPosting : ∀ pending held, worker.task ≠ .post pending held)
    (link : LinkId) : worker.holds link = false := by
  unfold holds
  split
  · rename_i pending held task
    exact absurd task (notPosting pending held)
  · rfl
  · rfl
  · rfl

theorem CarriesOn.holds {session : Session} {actions : List Action} {last : Worker}
    {notes : List Note} (carries : CarriesOn now session actions last notes) (link : LinkId) :
    last.holds link = false := by
  cases carries <;> rfl

/-- A device session holds a link from the turn that finds it alive to the turn that posts. -/
theorem Turns.holders (turns : Turns directory now hub worker turn) {link : LinkId}
    (held : worker.holds link = true → 0 < hub.browsers.holderCount link) :
    turn.hub.browsers.holderCount link + (worker.holds link).toNat =
      hub.browsers.holderCount link + (turn.worker.holds link).toNat := by
  have unposted {task : Task} (is : worker.task = task) (other : ∀ pending held,
      task ≠ .post pending held) : worker.holds link = false :=
    Worker.holds_eq_false (fun pending held => is ▸ other pending held) link
  cases turns with
  | idle => rfl
  | @ends outcome ready =>
      have before : worker.holds link = false := ready.elim (unposted · nofun) (unposted · nofun)
      have same : (worker.session.finish hub outcome).1.browsers = hub.browsers :=
        browsers_close hub worker.session.engine
      rw [before]
      exact congrArg (fun links => links.holderCount link) same
  | reads resting | requests resting | pings resting | wrote resting =>
      rw [unposted resting nofun]
      rfl
  | resumes resting writing carries =>
      rw [unposted resting nofun, carries.holds]
  | stops draining | finds draining =>
      rw [unposted draining nofun]
      rfl
  | handles draining noReport called good carries =>
      rw [unposted draining nofun, carries.holds]
      rcases Session.handled_of_noReport noReport called good with
        ⟨same, _⟩ | ⟨station, _, _, same⟩
      · dsimp only
        rw [same]
      · dsimp only
        rw [same]
  | drops unheard carries =>
      have before : worker.holds link = false := by
        cases unheard with
        | unknown draining => exact unposted draining nofun
        | dead calling => exact unposted calling nofun
      rw [before, carries.holds]
  | @holds pending notifier calling live =>
      have inside := Links.lt_length_of_holderCount ((Links.isLive_iff ..).mp live)
      rw [unposted calling nofun, Links.holderCount_hold inside, Worker.holds_of_post rfl]
      by_cases same : notifier = link
      · simp [same]
      · simp [same, Ne.symm same]
  | @posts pending target last notes posting carries =>
      rw [Worker.holds_of_post posting] at held ⊢
      rw [carries.holds, Links.holderCount_release, Links.holderCount_post]
      by_cases same : target = link
      · have positive := held (decide_eq_true same)
        simp only [same, if_true, decide_true, Bool.toNat_true, Bool.toNat_false]
        omega
      · simp [same, Ne.symm same]

end Turns

end Device

namespace Browser

variable {directory : Directory} {now : Instant} {hub : Hub} {worker : Worker}
  {turn : Turn Worker Note}

theorem Worker.Sound.link {index : Nat} (sound : worker.Sound index) :
    worker.session.link = index := by
  cases sound with
  | running running => exact running.link
  | ended link => exact link

/-- What one turn does to the registration of a session: nothing, or the session ends and takes
its entry away. -/
inductive Keeps (hub : Hub) (worker : Worker) (turn : Turn Worker Note) : Prop where
  | stays (sessions : turn.hub.sessions = hub.sessions)
      (outcome : turn.worker.session.outcome = worker.session.outcome)
      (holders : ∀ link,
        turn.hub.browsers.holderCount link = hub.browsers.holderCount link) :
      Keeps hub worker turn
  | ends (running : worker.session.outcome = none) {outcome : Outcome}
      (ended : turn.worker.session.outcome = some outcome)
      (sessions : turn.hub.sessions = hub.sessionsWithout worker.session.engine.session)
      (holders : ∀ link, turn.hub.browsers.holderCount link =
        hub.browsers.holderCount link - if link = worker.session.link then 1 else 0) :
      Keeps hub worker turn

theorem Turns.keeps (turns : Turns directory now hub worker turn) : Keeps hub worker turn := by
  cases turns with
  | changes | idle | reads | stops | breaches | answers | begins | skips | finds | posts =>
      exact .stays rfl rfl fun _ => rfl
  | delivers => exact .stays rfl rfl fun _ => Links.holderCount_take ..
  | ends resting running =>
      refine .ends running rfl rfl ?_
      intro link
      exact (Links.holderCount_closeMailbox ..).trans (Links.holderCount_release ..)

end Browser

/-! ## Entries and sessions -/

namespace Hub

variable {hub : Hub} {name : Uuid} {entry : BrowserEntry}

theorem mem_sessionsWithout {other : Uuid} :
    (other, entry) ∈ hub.sessionsWithout name ↔ (other, entry) ∈ hub.sessions ∧ other ≠ name := by
  simp [sessionsWithout]

theorem sessionsWithout_eq (hub : Hub) (name : Uuid) :
    hub.sessionsWithout name = hub.sessions.filter (fun listed => listed.1 ≠ name) :=
  rfl

theorem length_sessionsWithout (distinct : (hub.sessions.map Prod.fst).Nodup)
    (member : (name, entry) ∈ hub.sessions) :
    (hub.sessionsWithout name).length + 1 = hub.sessions.length := by
  obtain ⟨before, after, split⟩ := List.append_of_mem member
  rw [split, List.map_append, List.map_cons, List.nodup_append] at distinct
  obtain ⟨-, distinctAfter, apart⟩ := distinct
  have keepsBefore : before.filter (fun listed => listed.1 ≠ name) = before := by
    rw [List.filter_eq_self]
    intro item kept
    exact decide_eq_true (apart _ (List.mem_map.mpr ⟨item, kept, rfl⟩) _ List.mem_cons_self)
  have keepsAfter : after.filter (fun listed => listed.1 ≠ name) = after := by
    rw [List.filter_eq_self]
    intro item kept
    refine decide_eq_true ?_
    rintro rfl
    exact (List.nodup_cons.mp distinctAfter).1 (List.mem_map.mpr ⟨item, kept, rfl⟩)
  rw [sessionsWithout_eq, split, List.filter_append, keepsBefore, List.filter_cons, keepsAfter]
  simp [Nat.add_assoc]

theorem entry?_eq_some_iff (distinct : (hub.sessions.map Prod.fst).Nodup) :
    hub.entry? name = some entry ↔ (name, entry) ∈ hub.sessions := by
  unfold entry?
  rw [List.lookup_eq_some_iff]
  constructor
  · rintro ⟨before, after, split, -⟩
    rw [split]
    exact List.mem_append_right _ List.mem_cons_self
  · intro member
    obtain ⟨before, after, split⟩ := List.append_of_mem member
    rw [split, List.map_append, List.map_cons, List.nodup_append] at distinct
    refine ⟨before, after, split, ?_⟩
    intro item kept
    exact bne_iff_ne.mpr
      (Ne.symm (distinct.2.2 _ (List.mem_map.mpr ⟨item, kept, rfl⟩) _ List.mem_cons_self))

end Hub

namespace Exchange

/-- The browser session with this number has this name, and goes on. -/
def Runs (exchange : Exchange) (index : LinkId) (name : Uuid) : Prop :=
  ∃ worker, exchange.browsers[index]? = some worker ∧
    worker.session.engine.session = name ∧ worker.session.outcome = none

theorem name_of_runs {exchange : Exchange} {index : LinkId} {worker : Browser.Worker}
    {name : Uuid} (found : exchange.browsers[index]? = some worker)
    (runs : exchange.Runs index name) : name = worker.session.engine.session := by
  obtain ⟨other, there, isName, -⟩ := runs
  rw [found] at there
  cases there
  exact isName.symm

theorem runs_afterBrowser {exchange : Exchange} {index : Nat} {worker : Browser.Worker}
    {now : Instant} {turn : Turn Browser.Worker Browser.Note}
    (found : exchange.browsers[index]? = some worker)
    (turns : Browser.Turns exchange.directory now exchange.hub worker turn) {other : LinkId}
    {name : Uuid} :
    (exchange.afterBrowser index turn.hub turn.worker).Runs other name ↔
      other ≠ index ∧ exchange.Runs other name ∨
        other = index ∧ worker.session.engine.session = name ∧
          turn.worker.session.outcome = none := by
  have inside : index < exchange.browsers.length := (List.getElem?_eq_some_iff.mp found).1
  have sameName : turn.worker.session.engine.session = worker.session.engine.session :=
    congrArg Command.session turns.command
  have changed : (exchange.afterBrowser index turn.hub turn.worker).browsers =
      exchange.browsers.set index turn.worker := rfl
  by_cases same : other = index
  · subst same
    simp [Runs, changed, inside, sameName]
  · simp [Runs, changed, List.getElem?_set_ne (Ne.symm same), same]

theorem runs_concat {exchange next : Exchange} {worker : Browser.Worker}
    (browsers : next.browsers = exchange.browsers ++ [worker]) {index : LinkId} {name : Uuid} :
    next.Runs index name ↔ exchange.Runs index name ∨ index = exchange.browsers.length ∧
      worker.session.engine.session = name ∧ worker.session.outcome = none := by
  unfold Runs
  rw [browsers]
  constructor
  · rintro ⟨other, there, goesOn⟩
    rcases found_concat there with before | ⟨rfl, rfl⟩
    · exact Or.inl ⟨other, before, goesOn⟩
    · exact Or.inr ⟨rfl, goesOn⟩
  · rintro (⟨other, there, goesOn⟩ | ⟨rfl, goesOn⟩)
    · exact ⟨other, kept_concat there, goesOn⟩
    · exact ⟨worker, List.getElem?_concat_length, goesOn⟩

def runningCount (exchange : Exchange) : Nat :=
  exchange.browsers.countP fun worker => worker.session.outcome.isNone

/-- The entries of a hub are those of the sessions that go on. -/
structure Enrolled (exchange : Exchange) : Prop where
  wired : exchange.Wired
  distinct : (exchange.hub.sessions.map Prod.fst).Nodup
  listed : ∀ {name : Uuid} {entry : BrowserEntry}, (name, entry) ∈ exchange.hub.sessions →
    entry.notifier = entry.link ∧ exchange.Runs entry.link name
  entered : ∀ {index : LinkId} {name : Uuid}, exchange.Runs index name →
    (name, ⟨index, index⟩) ∈ exchange.hub.sessions
  counted : exchange.hub.sessions.length = exchange.runningCount
  /-- A link is held by its own session as long as that goes on, and by those who are about to
  post. -/
  held : ∀ {index : LinkId} {worker : Browser.Worker}, exchange.browsers[index]? = some worker →
    exchange.hub.browsers.holderCount index =
      worker.session.outcome.isNone.toNat + exchange.devices.countP (Device.Worker.holds index)

/-- What comes of a browser that connects under a name. -/
inductive Connects (exchange : Exchange) (name : Uuid) (next : Exchange) : Prop where
  /-- Nobody has the name, and the session is registered. -/
  | registered {worker : Browser.Worker} (free : ∀ index, ¬ exchange.Runs index name)
      (devices : next.devices = exchange.devices)
      (browsers : next.browsers = exchange.browsers ++ [worker])
      (named : worker.session.engine.session = name) (running : worker.session.outcome = none)
      (sessions : next.hub.sessions =
        (name, ⟨exchange.browsers.length, exchange.browsers.length⟩) :: exchange.hub.sessions)
      (holders : ∀ link, next.hub.browsers.holderCount link =
        if link = exchange.browsers.length then 1 else exchange.hub.browsers.holderCount link) :
      Connects exchange name next
  /-- A session that goes on has the name, and the new one is turned away. -/
  | refused {worker : Browser.Worker} {holder : LinkId} (taken : exchange.Runs holder name)
      (devices : next.devices = exchange.devices)
      (browsers : next.browsers = exchange.browsers ++ [worker])
      (ended : worker.session.outcome = some (some (.duplicateSession name)))
      (sessions : next.hub.sessions = exchange.hub.sessions)
      (links : ∀ {link}, link < exchange.browsers.length →
        next.hub.browsers.get? link = exchange.hub.browsers.get? link)
      (holders : ∀ link, next.hub.browsers.holderCount link =
        if link = exchange.browsers.length then 0 else exchange.hub.browsers.holderCount link) :
      Connects exchange name next

namespace Enrolled

theorem start (directory : Directory) (settings : Settings) :
    (start directory settings).Enrolled := by
  refine ⟨.start directory settings, List.nodup_nil, nofun, ?_, rfl, nofun⟩
  rintro index name ⟨worker, found, -⟩
  cases found

variable {exchange : Exchange} (enrolled : exchange.Enrolled)

include enrolled

theorem isLive_of_runs {index : LinkId} {name : Uuid} (runs : exchange.Runs index name) :
    exchange.hub.browsers.isLive index = true := by
  obtain ⟨worker, found, -, running⟩ := runs
  rw [Links.isLive_iff, enrolled.held found, running]
  exact Nat.lt_of_lt_of_le Nat.one_pos (Nat.le_add_right 1 _)

theorem liveEntry?_eq_some_iff {name : Uuid} {entry : BrowserEntry} :
    exchange.hub.liveEntry? name = some entry ↔ (name, entry) ∈ exchange.hub.sessions := by
  rw [Hub.liveEntry?, Option.filter_eq_some_iff, Hub.entry?_eq_some_iff enrolled.distinct]
  exact ⟨And.left, fun member => ⟨member, enrolled.isLive_of_runs (enrolled.listed member).2⟩⟩

/-- A name is free unless a session that goes on has it. -/
theorem liveEntry?_eq_none_iff {name : Uuid} :
    exchange.hub.liveEntry? name = none ↔ ∀ index, ¬ exchange.Runs index name := by
  constructor
  · intro none index runs
    have found := enrolled.liveEntry?_eq_some_iff.mpr (enrolled.entered runs)
    rw [none] at found
    cases found
  · intro nobody
    cases found : exchange.hub.liveEntry? name with
    | none => rfl
    | some entry =>
        exact absurd (enrolled.listed (enrolled.liveEntry?_eq_some_iff.mp found)).2 (nobody _)

theorem found_iff {name : Uuid} {link : LinkId} :
    exchange.hub.findNotifier name = some link ↔ exchange.Runs link name := by
  rw [Hub.findNotifier, Option.map_eq_some_iff]
  constructor
  · rintro ⟨entry, found, rfl⟩
    obtain ⟨same, runs⟩ := enrolled.listed (enrolled.liveEntry?_eq_some_iff.mp found)
    exact same ▸ runs
  · intro runs
    exact ⟨_, enrolled.liveEntry?_eq_some_iff.mpr (enrolled.entered runs), rfl⟩

/-- No two sessions that go on have the same name. -/
theorem eq_of_runs {first second : LinkId} {name : Uuid} (runsFirst : exchange.Runs first name)
    (runsSecond : exchange.Runs second name) : first = second := by
  have found := enrolled.found_iff.mpr runsFirst
  rw [enrolled.found_iff.mpr runsSecond] at found
  exact (Option.some.inj found).symm

theorem browserCount_eq : exchange.hub.browserCount = exchange.runningCount := by
  have all : exchange.hub.sessions.filter
      (fun listed => exchange.hub.browsers.isLive listed.2.link) = exchange.hub.sessions := by
    rw [List.filter_eq_self]
    rintro ⟨name, entry⟩ member
    exact enrolled.isLive_of_runs (enrolled.listed member).2
  change (exchange.hub.sessions.filter
    (fun listed => exchange.hub.browsers.isLive listed.2.link)).length = _
  rw [all, enrolled.counted]

/-! ### Turns -/

theorem of_same {next : Exchange} (wired : next.Wired)
    (sessions : next.hub.sessions = exchange.hub.sessions)
    (runs : ∀ {index : LinkId} {name : Uuid}, next.Runs index name ↔ exchange.Runs index name)
    (count : next.runningCount = exchange.runningCount)
    (held : ∀ {index : LinkId} {worker : Browser.Worker}, next.browsers[index]? = some worker →
      next.hub.browsers.holderCount index =
        worker.session.outcome.isNone.toNat + next.devices.countP (Device.Worker.holds index)) :
    next.Enrolled where
  wired := wired
  distinct := sessions.symm ▸ enrolled.distinct
  listed member := (enrolled.listed (sessions ▸ member)).imp_right runs.mpr
  entered goesOn := sessions.symm ▸ enrolled.entered (runs.mp goesOn)
  counted := by rw [sessions, enrolled.counted, count]
  held := held

theorem deviceTurn {index : Nat} {worker : Device.Worker} {now : Instant}
    {turn : Turn Device.Worker Device.Note} (found : exchange.devices[index]? = some worker)
    (turns : Device.Turns exchange.directory now exchange.hub worker turn) :
    (exchange.afterDevice index turn.hub turn.worker).Enrolled := by
  refine enrolled.of_same (enrolled.wired.deviceTurn found turns) turns.sessions .rfl rfl ?_
  intro number browser there
  have before := enrolled.held there
  have holders := @Device.Turns.holders _ _ _ _ _ turns number fun holds => by
    have some : 0 < exchange.devices.countP (Device.Worker.holds number) :=
      List.countP_pos_iff.mpr ⟨worker, List.mem_of_getElem? found, holds⟩
    omega
  have counted := countP_set_add found (Device.Worker.holds number) turn.worker
  change turn.hub.browsers.holderCount number = _ +
    (exchange.devices.set index turn.worker).countP (Device.Worker.holds number)
  omega

section BrowserTurn

variable {index : Nat} {worker : Browser.Worker} {now : Instant}
  {turn : Turn Browser.Worker Browser.Note} (found : exchange.browsers[index]? = some worker)
  (turns : Browser.Turns exchange.directory now exchange.hub worker turn)

include found turns

theorem stay (sessions : turn.hub.sessions = exchange.hub.sessions)
    (outcome : turn.worker.session.outcome = worker.session.outcome)
    (holders : ∀ link,
      turn.hub.browsers.holderCount link = exchange.hub.browsers.holderCount link) :
    (exchange.afterBrowser index turn.hub turn.worker).Enrolled := by
  refine enrolled.of_same (enrolled.wired.browserTurn found turns) sessions ?runs ?count ?held
  case runs =>
    intro other name
    rw [runs_afterBrowser found turns, outcome]
    by_cases same : other = index
    · subst same
      simp [Runs, found]
    · simp [same]
  case count =>
    have counted := countP_set_add found
      (fun other : Browser.Worker => other.session.outcome.isNone) turn.worker
    rw [outcome] at counted
    exact Nat.add_right_cancel counted
  case held =>
    intro number other there
    change turn.hub.browsers.holderCount number = _
    rw [holders]
    rcases found_set there with ⟨rfl, rfl⟩ | ⟨_, before⟩
    · rw [outcome]
      exact enrolled.held found
    · exact enrolled.held before

/-- A session that ends takes its entry away and lets its link go. -/
theorem leave (running : worker.session.outcome = none) {outcome : Outcome}
    (ended : turn.worker.session.outcome = some outcome)
    (sessions : turn.hub.sessions =
      exchange.hub.sessionsWithout worker.session.engine.session)
    (holders : ∀ link, turn.hub.browsers.holderCount link =
      exchange.hub.browsers.holderCount link - if link = worker.session.link then 1 else 0) :
    (exchange.afterBrowser index turn.hub turn.worker).Enrolled := by
  have goesOn : exchange.Runs index worker.session.engine.session :=
    ⟨worker, found, rfl, running⟩
  have others {other : LinkId} {name : Uuid} :
      (exchange.afterBrowser index turn.hub turn.worker).Runs other name ↔
        other ≠ index ∧ exchange.Runs other name := by
    rw [runs_afterBrowser found turns, ended]
    simp
  constructor
  case wired => exact enrolled.wired.browserTurn found turns
  case distinct =>
    change (turn.hub.sessions.map Prod.fst).Nodup
    rw [sessions]
    exact enrolled.distinct.sublist (List.filter_sublist.map Prod.fst)
  case listed =>
    intro name entry member
    change (name, entry) ∈ turn.hub.sessions at member
    rw [sessions, Hub.mem_sessionsWithout] at member
    obtain ⟨same, stillRuns⟩ := enrolled.listed member.1
    refine ⟨same, others.mpr ⟨?_, stillRuns⟩⟩
    intro isIndex
    exact member.2 (name_of_runs found (isIndex ▸ stillRuns))
  case entered =>
    intro other name stillRuns
    obtain ⟨apart, ran⟩ := others.mp stillRuns
    change (name, ⟨other, other⟩) ∈ turn.hub.sessions
    rw [sessions, Hub.mem_sessionsWithout]
    refine ⟨enrolled.entered ran, ?_⟩
    rintro rfl
    exact apart (enrolled.eq_of_runs ran goesOn)
  case counted =>
    have shorter := Hub.length_sessionsWithout enrolled.distinct (enrolled.entered goesOn)
    have counted := countP_set_add found
      (fun other : Browser.Worker => other.session.outcome.isNone) turn.worker
    change turn.hub.sessions.length = (exchange.browsers.set index turn.worker).countP _
    rw [running, ended] at counted
    rw [enrolled.counted, runningCount] at shorter
    rw [sessions]
    simp only [Option.isNone_none, Option.isNone_some, Bool.toNat_true,
      Bool.toNat_false] at counted
    omega
  case held =>
    intro number other there
    change turn.hub.browsers.holderCount number = _
    rw [holders, (enrolled.wired.browser found).link]
    rcases found_set there with ⟨rfl, rfl⟩ | ⟨different, before⟩
    · have before := enrolled.held found
      rw [running] at before
      rw [ended, if_pos rfl, before]
      exact (Nat.add_sub_cancel_left 1 _).trans (Nat.zero_add _).symm
    · rw [if_neg (Ne.symm different)]
      exact enrolled.held before

theorem browserTurn : (exchange.afterBrowser index turn.hub turn.worker).Enrolled := by
  cases turns.keeps with
  | stays sessions outcome holders => exact enrolled.stay found turns sessions outcome holders
  | ends running ended sessions holders =>
      exact enrolled.leave found turns running ended sessions holders

end BrowserTurn

/-! ### New sessions -/

theorem length_browsers : exchange.hub.browsers.nextId = exchange.browsers.length :=
  (Links.length_mailboxes _).symm.trans enrolled.wired.browsers.length

/-- Nobody holds a link that is yet to be made. -/
theorem countP_holds_length :
    exchange.devices.countP (Device.Worker.holds exchange.browsers.length) = 0 := by
  rw [List.countP_eq_zero]
  intro worker member holds
  obtain ⟨index, there⟩ := List.mem_iff_getElem?.mp member
  unfold Device.Worker.holds at holds
  split at holds
  · rename_i pending held task
    have isTarget : worker.task.target? = some (pending, held) := by rw [task]; rfl
    obtain ⟨other, found, -⟩ := enrolled.wired.target there isTarget
    have inside := (List.getElem?_eq_some_iff.mp found).1
    exact absurd (of_decide_eq_true holds) (Nat.ne_of_lt inside)
  · cases holds
  · cases holds
  · cases holds

theorem liveEntry?_create (capacity : Nat) (name : Uuid) :
    Hub.liveEntry? { exchange.hub with browsers := exchange.hub.browsers.create capacity } name =
      exchange.hub.liveEntry? name := by
  cases found : exchange.hub.liveEntry? name with
  | none =>
      have nobody : exchange.hub.entry? name = none := by
        cases listed : exchange.hub.entry? name with
        | none => rfl
        | some entry =>
            have member := (Hub.entry?_eq_some_iff enrolled.distinct).mp listed
            rw [enrolled.liveEntry?_eq_some_iff.mpr member] at found
            cases found
      refine Option.filter_eq_none_iff.mpr ?_
      intro entry listed
      change exchange.hub.entry? name = some entry at listed
      rw [nobody] at listed
      cases listed
  | some entry =>
      have member := enrolled.liveEntry?_eq_some_iff.mp found
      have alive := enrolled.isLive_of_runs (enrolled.listed member).2
      refine Option.filter_eq_some_iff.mpr
        ⟨(Hub.entry?_eq_some_iff enrolled.distinct).mpr member, ?_⟩
      rw [Links.isLive_iff] at alive ⊢
      rw [Links.holderCount_create]
      split
      · exact Nat.one_pos
      · exact alive

theorem sessionsWithout_of_free {name : Uuid} (free : ∀ index, ¬ exchange.Runs index name) :
    exchange.hub.sessionsWithout name = exchange.hub.sessions := by
  rw [Hub.sessionsWithout, List.filter_eq_self]
  rintro ⟨other, entry⟩ member
  refine decide_eq_true ?_
  rintro rfl
  exact free _ (enrolled.listed member).2

/-- A browser session that connects is registered exactly if nobody has its name. -/
theorem connects (now : Instant) (name : Uuid) (flag : TransportFlag) :
    exchange.Connects name (exchange.step (.connectBrowser now name flag)).1 := by
  have number := enrolled.length_browsers
  have lookup := enrolled.liveEntry?_create exchange.settings.queueCapacity name
  simp only [step, Browser.Session.start, Hub.joinBrowser, lookup]
  cases live : exchange.hub.liveEntry? name with
  | none =>
      have free := enrolled.liveEntry?_eq_none_iff.mp live
      have without := enrolled.sessionsWithout_of_free free
      refine .registered free rfl rfl rfl rfl ?_ ?_
      · rw [← number]
        exact congrArg _ without
      · intro link
        rw [← number]
        exact Links.holderCount_create ..
  | some entry =>
      have taken := (enrolled.listed (enrolled.liveEntry?_eq_some_iff.mp live)).2
      refine .refused taken rfl rfl rfl rfl ?_ ?_
      · intro link inside
        have other : exchange.hub.browsers.nextId ≠ link := number ▸ Nat.ne_of_gt inside
        dsimp only
        rw [Links.closeMailbox, Links.get?_modify, if_neg other, Links.release,
          Links.get?_modify, if_neg other]
        exact List.getElem?_append_left (Nat.lt_of_lt_of_eq inside number.symm)
      intro link
      dsimp only
      rw [← number, Links.holderCount_closeMailbox, Links.holderCount_release,
        Links.holderCount_create]
      split <;> rfl

/-- Whoever connects, the links that were there are held as before, and the new one by its session
only, if that goes on. -/
theorem held_concat {next : Exchange} {worker : Browser.Worker}
    (devices : next.devices = exchange.devices)
    (browsers : next.browsers = exchange.browsers ++ [worker])
    (holders : ∀ link, next.hub.browsers.holderCount link =
      if link = exchange.browsers.length then worker.session.outcome.isNone.toNat
      else exchange.hub.browsers.holderCount link) {index : LinkId} {other : Browser.Worker}
    (there : next.browsers[index]? = some other) :
    next.hub.browsers.holderCount index =
      other.session.outcome.isNone.toNat + next.devices.countP (Device.Worker.holds index) := by
  rw [browsers] at there
  rw [holders, devices]
  rcases found_concat there with before | ⟨rfl, rfl⟩
  · have inside := (List.getElem?_eq_some_iff.mp before).1
    rw [if_neg (Nat.ne_of_lt inside)]
    exact enrolled.held before
  · rw [if_pos rfl, enrolled.countP_holds_length]
    rfl

theorem register {next : Exchange} {worker : Browser.Worker} {name : Uuid} (wired : next.Wired)
    (free : ∀ index, ¬ exchange.Runs index name) (devices : next.devices = exchange.devices)
    (browsers : next.browsers = exchange.browsers ++ [worker])
    (named : worker.session.engine.session = name) (running : worker.session.outcome = none)
    (sessions : next.hub.sessions =
      (name, ⟨exchange.browsers.length, exchange.browsers.length⟩) :: exchange.hub.sessions)
    (holders : ∀ link, next.hub.browsers.holderCount link =
      if link = exchange.browsers.length then 1 else exchange.hub.browsers.holderCount link) :
    next.Enrolled := by
  have runs {index : LinkId} {other : Uuid} := @runs_concat _ _ _ browsers index other
  constructor
  case wired => exact wired
  case distinct =>
    rw [sessions, List.map_cons, List.nodup_cons]
    refine ⟨?_, enrolled.distinct⟩
    rintro member
    obtain ⟨⟨other, entry⟩, listed, rfl⟩ := List.mem_map.mp member
    exact free _ (enrolled.listed listed).2
  case listed =>
    intro other entry member
    rw [sessions, List.mem_cons] at member
    rcases member with isNew | before
    · cases isNew
      exact ⟨rfl, runs.mpr (Or.inr ⟨rfl, named, running⟩)⟩
    · obtain ⟨same, goesOn⟩ := enrolled.listed before
      exact ⟨same, runs.mpr (Or.inl goesOn)⟩
  case entered =>
    intro index other goesOn
    rw [sessions]
    rcases runs.mp goesOn with before | ⟨rfl, rfl, -⟩
    · exact List.mem_cons_of_mem _ (enrolled.entered before)
    · rw [named]
      exact List.mem_cons_self
  case counted =>
    rw [sessions, runningCount, browsers, List.countP_append, List.length_cons,
      enrolled.counted, List.countP_singleton, running]
    rfl
  case held => exact enrolled.held_concat devices browsers (running.symm ▸ holders)

theorem connectBrowser (now : Instant) (name : Uuid) (flag : TransportFlag) :
    (exchange.step (.connectBrowser now name flag)).1.Enrolled := by
  have wired := enrolled.wired.step (exchange.steps_connectBrowser now name flag)
  cases enrolled.connects now name flag with
  | registered free devices browsers named running sessions holders =>
      exact enrolled.register wired free devices browsers named running sessions holders
  | refused taken devices browsers ended sessions links holders =>
      refine enrolled.of_same wired sessions ?runs ?count ?held
      case runs =>
        intro index other
        rw [runs_concat browsers, ended]
        simp
      case count =>
        rw [runningCount, browsers, List.countP_append, List.countP_singleton, ended]
        rfl
      case held => exact enrolled.held_concat devices browsers (ended.symm ▸ holders)

theorem connectDevice (now : Instant) :
    (exchange.step (.connectDevice now)).1.Enrolled := by
  have wired := enrolled.wired.step (exchange.steps_step (.connectDevice now))
  refine enrolled.of_same wired rfl .rfl rfl ?_
  intro index other there
  change exchange.hub.browsers.holderCount index =
    _ + (exchange.devices ++ [_]).countP (Device.Worker.holds index)
  rw [List.countP_append, List.countP_singleton]
  exact enrolled.held there

theorem step (move : Move) : (exchange.step move).1.Enrolled := by
  cases move with
  | connectDevice now => exact enrolled.connectDevice now
  | connectBrowser now name flag => exact enrolled.connectBrowser now name flag
  | device index now stimulus =>
      unfold Exchange.step
      dsimp only
      cases found : exchange.devices[index]? with
      | none => exact enrolled
      | some worker => exact enrolled.deviceTurn found (Device.turns_turn ..)
  | browser index now stimulus =>
      unfold Exchange.step
      dsimp only
      cases found : exchange.browsers[index]? with
      | none => exact enrolled
      | some worker => exact enrolled.browserTurn found (Browser.turns_turn ..)

theorem run (moves : List Move) : (exchange.run moves).Enrolled := by
  induction moves generalizing exchange with
  | nil => exact enrolled
  | cons move moves ih => exact ih (enrolled.step move)

end Enrolled

/-! ## What there is to see of a registration -/

/-- A session that has ended does not begin again. -/
theorem Ended.lasts {exchange : Exchange} {index : LinkId} (ended : exchange.Ended index)
    (wired : exchange.Wired) (moves : List Move) : (exchange.run moves).Ended index := by
  induction moves generalizing exchange with
  | nil => exact ended
  | cons move moves ih =>
      have steps := exchange.steps_step move
      exact ih (ended.step wired steps).1 (wired.step steps)

theorem Ended.not_runs {exchange : Exchange} {index : LinkId} (ended : exchange.Ended index)
    (name : Uuid) : ¬ exchange.Runs index name := by
  rintro ⟨worker, there, -, running⟩
  obtain ⟨other, here, isOver⟩ := ended
  rw [there] at here
  cases here
  exact isOver running

/-- A browser that connected was turned away, and nobody else noticed. -/
structure TurnedAway (exchange : Exchange) (name : Uuid) (next : Exchange) : Prop where
  ended : ∃ worker, next.browsers = exchange.browsers ++ [worker] ∧
    worker.session.outcome = some (some (.duplicateSession name))
  entries : next.hub.sessions = exchange.hub.sessions
  lookups : next.hub.findNotifier = exchange.hub.findNotifier
  /-- The links of the sessions that were there, and their mailboxes, are as they were. -/
  links : ∀ {index : LinkId}, index < exchange.browsers.length →
    next.hub.browsers.get? index = exchange.hub.browsers.get? index

/-- What everybody can see of the registration of browser sessions. -/
structure Registered (exchange : Exchange) : Prop where
  /-- A name leads to the session that has it and goes on, and to nobody else. -/
  found : ∀ (name : Uuid) (link : LinkId),
    exchange.hub.findNotifier name = some link ↔ exchange.Runs link name
  /-- The notifier of a session posts to the mailbox that this session takes its readings from. -/
  notifies : ∀ {index : LinkId} {worker : Browser.Worker},
    exchange.browsers[index]? = some worker → worker.session.outcome = none →
      worker.session.link = index ∧ ∀ reading,
        exchange.hub.notify index reading = exchange.hub.postReading worker.session.link reading
  counted : exchange.hub.browserCount = exchange.runningCount
  /-- A session whose name nobody has goes on, under its own number. -/
  accepts : ∀ (now : Instant) (name : Uuid) (flag : TransportFlag),
    (∀ index, ¬ exchange.Runs index name) →
      (exchange.step (.connectBrowser now name flag)).1.Runs exchange.browsers.length name
  refuses : ∀ (now : Instant) (name : Uuid) (flag : TransportFlag) {holder : LinkId},
    exchange.Runs holder name →
      exchange.TurnedAway name (exchange.step (.connectBrowser now name flag)).1
  /-- A session that has ended is not found again, whatever comes after. -/
  forgets : ∀ {index : LinkId}, exchange.Ended index → ∀ (later : List Move) (name : Uuid),
    (exchange.run later).hub.findNotifier name ≠ some index

namespace Enrolled

variable {exchange : Exchange} (enrolled : exchange.Enrolled)

include enrolled

theorem accepts (now : Instant) {name : Uuid} (flag : TransportFlag)
    (free : ∀ index, ¬ exchange.Runs index name) :
    (exchange.step (.connectBrowser now name flag)).1.Runs exchange.browsers.length name := by
  cases enrolled.connects now name flag with
  | registered _ _ browsers named running =>
      exact (runs_concat browsers).mpr (Or.inr ⟨rfl, named, running⟩)
  | refused taken => exact absurd taken (free _)

theorem refuses (now : Instant) {name : Uuid} (flag : TransportFlag) {holder : LinkId}
    (taken : exchange.Runs holder name) :
    exchange.TurnedAway name (exchange.step (.connectBrowser now name flag)).1 := by
  have after := enrolled.connectBrowser now name flag
  cases enrolled.connects now name flag with
  | registered free => exact absurd taken (free _)
  | refused _ _ browsers ended sessions links _ =>
      refine ⟨⟨_, browsers, ended⟩, sessions, ?_, links⟩
      funext other
      apply Option.ext
      intro link
      rw [after.found_iff, enrolled.found_iff, runs_concat browsers, ended]
      simp

theorem registered : exchange.Registered := by
  constructor
  case found => exact fun _ _ => enrolled.found_iff
  case notifies =>
    intro index worker there running
    have own : worker.session.link = index := (enrolled.wired.browser there).link
    refine ⟨own, fun reading => ?_⟩
    rw [own]
    exact if_pos (enrolled.isLive_of_runs ⟨worker, there, rfl, running⟩)
  case counted => exact enrolled.browserCount_eq
  case accepts => exact fun now _ flag free => enrolled.accepts now flag free
  case refuses => exact fun now _ flag _ taken => enrolled.refuses now flag taken
  case forgets =>
    intro index ended later name found
    exact (ended.lasts enrolled.wired later).not_runs name ((enrolled.run later).found_iff.mp found)

end Enrolled

/-- At every moment of a run the browser sessions that go on are registered, and nobody else. -/
theorem registered_run (directory : Directory) (settings : Settings) (moves : List Move) :
    ((start directory settings).run moves).Registered :=
  ((Enrolled.start directory settings).run moves).registered

end Exchange

end StationRelay
