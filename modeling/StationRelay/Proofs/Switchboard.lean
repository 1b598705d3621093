import StationRelay.Proofs.Neighbours

/-!
# Many sessions over one hub

A switchboard is a hub with every session that was ever made over it.  A run is
any order of moves: a peer connects, or one event happens to one session, each
at any instant.  `trace` collects what can be seen of the moves of a run, and
`run_induction` carries an invariant of the switchboard and of what was seen so
far from one move to whole runs.  What concerns one session only is seen through
`ofDevice` and `ofBrowser`, and kept as `Watched`.
-/

namespace StationRelay

structure Switchboard where
  directory : Directory
  settings : Settings
  hub : Hub
  /-- The sessions of devices, numbered like their links. -/
  devices : List Device.Session
  browsers : List Browser.Session

namespace Switchboard

inductive Move where
  | connectDevice (now : Instant)
  | connectBrowser (now : Instant) (name : Uuid) (flag : TransportFlag)
  | device (index : Nat) (now : Instant) (event : Device.Event)
  | browser (index : Nat) (now : Instant) (event : Browser.Event)

def start (directory : Directory) (settings : Settings) : Switchboard :=
  ⟨directory, settings, Hub.empty, [], []⟩

/-- What a move does; a move of a session that does not exist does nothing. -/
def step (board : Switchboard) : Move → Switchboard
  | .connectDevice now =>
    let (hub, session) := Device.Session.start board.settings now board.hub
    { board with hub, devices := board.devices ++ [session] }
  | .connectBrowser now name flag =>
    let (hub, session) := Browser.Session.start board.settings now board.hub name flag
    { board with hub, browsers := board.browsers ++ [session] }
  | .device index now event =>
    match board.devices[index]? with
    | some session =>
      let (hub, session) := session.step board.directory now board.hub event
      { board with hub, devices := board.devices.set index session }
    | none => board
  | .browser index now event =>
    match board.browsers[index]? with
    | some session =>
      let progress := session.step board.directory now board.hub event
      { board with hub := progress.hub, browsers := board.browsers.set index progress.session }
    | none => board

def run (board : Switchboard) (moves : List Move) : Switchboard :=
  moves.foldl step board

section Trace

variable {α : Type} (seen : Switchboard → Move → List α)

def trace (board : Switchboard) : List Move → List α
  | [] => []
  | move :: moves => seen board move ++ (board.step move).trace moves

variable {seen}

theorem run_append (board : Switchboard) (first second : List Move) :
    board.run (first ++ second) = (board.run first).run second :=
  List.foldl_append ..

/-- What every move keeps of a switchboard and of what was seen so far, every run keeps. -/
theorem run_induction {Holds : Switchboard → List α → Prop}
    (step : ∀ {board log} (move : Move), Holds board log →
      Holds (board.step move) (log ++ seen board move))
    {board : Switchboard} {log : List α} (holds : Holds board log) (moves : List Move) :
    Holds (board.run moves) (log ++ board.trace seen moves) := by
  induction moves generalizing board log with
  | nil =>
      rw [trace, List.append_nil]
      exact holds
  | cons move moves ih =>
      rw [trace, ← List.append_assoc]
      exact ih (step move holds)

end Trace

/-! ## Sessions and their links -/

/-- Every device session has the link with its own number, and no other links are claimed. -/
structure Wired (board : Switchboard) : Prop where
  length : board.hub.devices.table.length = board.devices.length
  links : ∀ {index : Nat} {session : Device.Session}, board.devices[index]? = some session →
    session.link = index ∧ session.engine.link = index
  claimed_lt : ∀ {station : Station} {link : LinkId},
    board.hub.stations.get station = some link → link < board.devices.length

namespace Wired

theorem start (directory : Directory) (settings : Settings) :
    (start directory settings).Wired := by
  refine ⟨rfl, nofun, ?_⟩
  intro station link leads
  cases station <;> cases leads

variable {board : Switchboard}

/-- Nobody can know the link of a session that does not exist yet. -/
theorem unclaimed (wired : board.Wired) {link : LinkId} (fresh : board.devices.length ≤ link) :
    board.hub.Unclaimed link := by
  constructor
  · intro station leads
    exact Nat.not_lt.mpr fresh (wired.claimed_lt leads)
  · unfold Links.items Links.get?
    rw [List.getElem?_eq_none (wired.length ▸ fresh)]

theorem of_respects (wired : board.Wired) {mine : LinkId → Prop} {hub : Hub}
    (respects : board.hub.Respects mine hub)
    (mine_lt : ∀ {link : LinkId}, mine link → link < board.devices.length)
    {devices : List Device.Session} (length : devices.length = board.devices.length)
    (links : ∀ {index : Nat} {session : Device.Session}, devices[index]? = some session →
      session.link = index ∧ session.engine.link = index) (browsers : List Browser.Session) :
    Wired { board with hub, devices, browsers } where
  length := respects.length.trans (wired.length.trans length.symm)
  links := links
  claimed_lt leads := length ▸ (respects.stations leads).elim wired.claimed_lt mine_lt

theorem connectDevice (wired : board.Wired) (now : Instant) :
    (board.step (.connectDevice now)).Wired where
  length := by
    simp [Switchboard.step, Device.Session.start, Links.create, wired.length]
  links {index session} found := by
    simp only [Switchboard.step, List.getElem?_append] at found
    by_cases old : index < board.devices.length
    · rw [if_pos old] at found
      exact wired.links found
    · rw [if_neg old, List.getElem?_singleton] at found
      by_cases new : index - board.devices.length = 0
      · rw [if_pos new] at found
        cases found
        have same : index = board.hub.devices.table.length := by
          rw [wired.length]
          omega
        exact ⟨same.symm, same.symm⟩
      · rw [if_neg new] at found
        cases found
  claimed_lt leads := by
    simp only [Switchboard.step, List.length_append, List.length_singleton]
    exact Nat.lt_succ_of_lt (wired.claimed_lt leads)

theorem step (wired : board.Wired) (move : Move) : (board.step move).Wired := by
  cases move with
  | connectDevice now => exact wired.connectDevice now
  | connectBrowser now name flag =>
      have respects : board.hub.Respects (fun _ => False) _ :=
        (Browser.harmless_respects board.hub).start (.refl _) board.settings now name flag
      exact wired.of_respects respects False.elim rfl wired.links _
  | browser index now event =>
      rw [Switchboard.step]
      split
      · rename_i session found
        have respects : board.hub.Respects (fun _ => False) _ :=
          (Browser.harmless_respects board.hub).step (.refl _) board.directory now session event
        exact wired.of_respects respects False.elim rfl wired.links _
      · exact wired
  | device index now event =>
      rw [Switchboard.step]
      split
      · rename_i session found
        have steps := session.steps_step board.directory now board.hub event
        obtain ⟨link, own⟩ := wired.links found
        have respects : board.hub.Respects (· = index) _ :=
          steps.respects (own.trans link.symm) link
        have inside : index < board.devices.length := (List.getElem?_eq_some_iff.mp found).1
        refine wired.of_respects respects (fun isIndex => isIndex ▸ inside) (by simp) ?_ _
        intro other another foundOther
        rw [List.getElem?_set] at foundOther
        by_cases same : index = other
        · rw [if_pos same, if_pos inside] at foundOther
          cases foundOther
          exact ⟨steps.link.trans (link.trans same), steps.engine_link.trans (own.trans same)⟩
        · rw [if_neg same] at foundOther
          exact wired.links foundOther
      · exact wired

end Wired

/-! ## One session among the others -/

def Move.isEventOf (index : Nat) : Move → Prop
  | .device other _ _ => other = index
  | _ => False

theorem step_device {board : Switchboard} {index : Nat} {session : Device.Session}
    (found : board.devices[index]? = some session) (now : Instant) (event : Device.Event) :
    board.step (.device index now event) =
      { board with
        hub := (session.step board.directory now board.hub event).1
        devices := board.devices.set index
          (session.step board.directory now board.hub event).2 } := by
  simp only [Switchboard.step, found]

theorem devices_step_device {board : Switchboard} {index : Nat} {session : Device.Session}
    (found : board.devices[index]? = some session) (now : Instant) (event : Device.Event) :
    (board.step (.device index now event)).devices[index]? =
      some (session.step board.directory now board.hub event).2 := by
  rw [step_device found]
  exact List.getElem?_set_self (List.getElem?_eq_some_iff.mp found).1

theorem devices_step_connectDevice (board : Switchboard) (now : Instant) :
    (board.step (.connectDevice now)).devices =
      board.devices ++ [(Device.Session.start board.settings now board.hub).2] :=
  rfl

/-- A move of somebody else leaves a session as it is, and its link unclaimed. -/
theorem Wired.bystander {board : Switchboard} (wired : board.Wired) {index : Nat}
    {session : Device.Session} (found : board.devices[index]? = some session) {move : Move}
    (other : ¬ move.isEventOf index) :
    (board.step move).devices[index]? = some session ∧
      (board.hub.Unclaimed index → (board.step move).hub.Unclaimed index) := by
  have inside : index < board.devices.length := (List.getElem?_eq_some_iff.mp found).1
  cases move with
  | connectDevice now =>
      constructor
      · simp only [Switchboard.step]
        rw [List.getElem?_append_left inside, found]
      · intro unclaimed
        exact ⟨unclaimed.stations, (board.hub.devices.items_create ..).trans unclaimed.items⟩
  | connectBrowser now name flag =>
      have respects : board.hub.Respects (fun _ => False) _ :=
        (Browser.harmless_respects board.hub).start (.refl _) board.settings now name flag
      exact ⟨found, respects.unclaimed id⟩
  | browser number now event =>
      rw [Switchboard.step]
      split
      · rename_i browser _
        have respects : board.hub.Respects (fun _ => False) _ :=
          (Browser.harmless_respects board.hub).step (.refl _) board.directory now browser event
        exact ⟨found, respects.unclaimed id⟩
      · exact ⟨found, id⟩
  | device number now event =>
      rw [Switchboard.step]
      split
      · rename_i another foundOther
        have steps := another.steps_step board.directory now board.hub event
        obtain ⟨link, own⟩ := wired.links foundOther
        have respects : board.hub.Respects (· = number) _ :=
          steps.respects (own.trans link.symm) link
        refine ⟨?_, respects.unclaimed fun same => other same.symm⟩
        exact (List.getElem?_set_ne other).trans found
      · exact ⟨found, id⟩

/-! ## What a move does to one session

Everything that is said of one session in a run is said of it event by event.  A
function that tells what is seen of an event gives what is seen of the session in
a move, `ofDevice` and `ofBrowser`; the fate of the session is given with it.
-/

section Fate

variable {α : Type}

/-- What is seen of the device session with this number in a move, when it connects and at every
event.  The session that connects next has the next number. -/
def ofDevice (begun : List α)
    (seen : Directory → Instant → Hub → Device.Session → Device.Event → List α) (index : Nat)
    (board : Switchboard) : Move → List α
  | .connectDevice _ => if index = board.devices.length then begun else []
  | .device other now event =>
    if other = index then
      match board.devices[index]? with
      | some session => seen board.directory now board.hub session event
      | none => []
    else []
  | .connectBrowser .. | .browser .. => []

def ofBrowser (seen : Directory → Instant → Hub → Browser.Session → Browser.Event → List α)
    (index : Nat) (board : Switchboard) : Move → List α
  | .browser other now event =>
    if other = index then
      match board.browsers[index]? with
      | some session => seen board.directory now board.hub session event
      | none => []
    else []
  | .connectDevice .. | .connectBrowser .. | .device .. => []

/-- What a move does to the device session with this number, if there is one before or after, and
what is seen of it. -/
inductive DeviceFate (begun : List α)
    (seen : Directory → Instant → Hub → Device.Session → Device.Event → List α) (index : Nat)
    (board : Switchboard) :
    Move → Option Device.Session → Option Device.Session → List α → Prop where
  | acts (session : Device.Session) (now : Instant) (event : Device.Event) :
      DeviceFate begun seen index board (.device index now event) (some session)
        (some (session.step board.directory now board.hub event).2)
        (seen board.directory now board.hub session event)
  | stays {move : Move} (session : Device.Session) (other : ¬ move.isEventOf index) :
      DeviceFate begun seen index board move (some session) (some session) []
  | begins (now : Instant) :
      DeviceFate begun seen index board (.connectDevice now) none
        (some (Device.Session.start board.settings now board.hub).2) begun
  | nobody (move : Move) : DeviceFate begun seen index board move none none []

/-- What a move does to the browser session with this number, if there is one before or after, and
what is seen of it. -/
inductive BrowserFate (seen : Directory → Instant → Hub → Browser.Session → Browser.Event → List α)
    (index : Nat) (board : Switchboard) :
    Move → Option Browser.Session → Option Browser.Session → List α → Prop where
  | acts (session : Browser.Session) (now : Instant) (event : Browser.Event) :
      BrowserFate seen index board (.browser index now event) (some session)
        (some (session.step board.directory now board.hub event).session)
        (seen board.directory now board.hub session event)
  | stays (move : Move) (session : Browser.Session) :
      BrowserFate seen index board move (some session) (some session) []
  | begins (now : Instant) (name : Uuid) (flag : TransportFlag) :
      BrowserFate seen index board (.connectBrowser now name flag) none
        (some (Browser.Session.start board.settings now board.hub name flag).2) []
  | nobody (move : Move) : BrowserFate seen index board move none none []

theorem getElem?_concat_cases (list : List α) (index : Nat) (fresh : α) :
    index ≠ list.length ∧ (list ++ [fresh])[index]? = list[index]? ∨
      index = list.length ∧ list[index]? = none ∧ (list ++ [fresh])[index]? = some fresh := by
  rcases Nat.lt_trichotomy index list.length with inside | rfl | outside
  · exact Or.inl ⟨Nat.ne_of_lt inside, List.getElem?_append_left inside⟩
  · exact Or.inr ⟨rfl, List.getElem?_eq_none (Nat.le_refl _), List.getElem?_concat_length⟩
  · refine Or.inl ⟨Nat.ne_of_gt outside, ?_⟩
    rw [List.getElem?_eq_none (Nat.le_of_lt outside), List.getElem?_eq_none]
    rw [List.length_append]
    exact outside

theorem deviceFate_step (begun : List α)
    (seen : Directory → Instant → Hub → Device.Session → Device.Event → List α) (index : Nat)
    (board : Switchboard) (move : Move) :
    DeviceFate begun seen index board move board.devices[index]? (board.step move).devices[index]?
      (ofDevice begun seen index board move) := by
  have apart (other : ¬ move.isEventOf index)
      (same : (board.step move).devices[index]? = board.devices[index]?)
      (nothing : ofDevice begun seen index board move = []) :
      DeviceFate begun seen index board move board.devices[index]?
        (board.step move).devices[index]? (ofDevice begun seen index board move) := by
    rw [same, nothing]
    cases board.devices[index]? with
    | none => exact .nobody move
    | some session => exact .stays session other
  cases move with
  | connectBrowser => exact apart id rfl rfl
  | connectDevice now =>
      rcases getElem?_concat_cases board.devices index
          (Device.Session.start board.settings now board.hub).2 with
        ⟨other, same⟩ | ⟨new, before, after⟩
      · exact apart id same (if_neg other)
      · rw [devices_step_connectDevice, before, after, ofDevice, if_pos new]
        exact .begins now
  | browser number now event =>
      refine apart id ?_ rfl
      rw [step]
      split <;> rfl
  | device number now event =>
      by_cases own : number = index
      · subst own
        rw [ofDevice, if_pos rfl]
        cases found : board.devices[number]? with
        | none =>
            simp only [step, found]
            exact .nobody _
        | some session =>
            rw [devices_step_device found]
            exact .acts session now event
      · refine apart own ?_ (if_neg own)
        rw [step]
        split
        · exact List.getElem?_set_ne own
        · rfl

theorem browsers_step_connectBrowser (board : Switchboard) (now : Instant) (name : Uuid)
    (flag : TransportFlag) :
    (board.step (.connectBrowser now name flag)).browsers =
      board.browsers ++ [(Browser.Session.start board.settings now board.hub name flag).2] :=
  rfl

theorem browsers_step_browser {board : Switchboard} {index : Nat} {session : Browser.Session}
    (found : board.browsers[index]? = some session) (now : Instant) (event : Browser.Event) :
    (board.step (.browser index now event)).browsers[index]? =
      some (session.step board.directory now board.hub event).session := by
  have inside := (List.getElem?_eq_some_iff.mp found).1
  simp only [step, found, List.getElem?_set_self inside]

theorem browserFate_step
    (seen : Directory → Instant → Hub → Browser.Session → Browser.Event → List α) (index : Nat)
    (board : Switchboard) (move : Move) :
    BrowserFate seen index board move board.browsers[index]? (board.step move).browsers[index]?
      (ofBrowser seen index board move) := by
  have apart (same : (board.step move).browsers[index]? = board.browsers[index]?)
      (nothing : ofBrowser seen index board move = []) :
      BrowserFate seen index board move board.browsers[index]?
        (board.step move).browsers[index]? (ofBrowser seen index board move) := by
    rw [same, nothing]
    cases board.browsers[index]? with
    | none => exact .nobody move
    | some session => exact .stays move session
  cases move with
  | connectDevice => exact apart rfl rfl
  | connectBrowser now name flag =>
      rcases getElem?_concat_cases board.browsers index
          (Browser.Session.start board.settings now board.hub name flag).2 with
        ⟨-, same⟩ | ⟨-, before, after⟩
      · exact apart same rfl
      · rw [browsers_step_connectBrowser, before, after]
        exact .begins now name flag
  | device number now event =>
      refine apart ?_ rfl
      rw [step]
      split <;> rfl
  | browser number now event =>
      by_cases own : number = index
      · subst own
        rw [ofBrowser, if_pos rfl]
        cases found : board.browsers[number]? with
        | none =>
            simp only [step, found]
            exact .nobody _
        | some session =>
            rw [browsers_step_browser found]
            exact .acts session now event
      · refine apart ?_ (if_neg own)
        rw [step]
        split
        · exact List.getElem?_set_ne own
        · rfl

end Fate

/-! ## Sessions that may not be there yet -/

/-- This holds of a session and of what was seen of it, or there is none and nothing was seen. -/
inductive Watched {σ α : Type} (Holds : σ → List α → Prop) : Option σ → List α → Prop where
  | nobody : Watched Holds none []
  | somebody {session : σ} {seen : List α} (holds : Holds session seen) :
      Watched Holds (some session) seen

theorem Watched.mono {σ α : Type} {First Second : σ → List α → Prop} {session? : Option σ}
    {seen : List α} (watched : Watched First session? seen)
    (keeps : ∀ session ∈ session?, First session seen → Second session seen) :
    Watched Second session? seen := by
  cases watched with
  | nobody => exact .nobody
  | somebody holds => exact .somebody (keeps _ rfl holds)

theorem Watched.holds {σ α : Type} {Holds : σ → List α → Prop} {session : σ} {seen : List α}
    (watched : Watched Holds (some session) seen) : Holds session seen := by
  cases watched with
  | somebody holds => exact holds

end Switchboard

end StationRelay
