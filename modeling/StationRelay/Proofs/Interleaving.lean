import StationRelay.Proofs.Exchange
import StationRelay.Proofs.Switchboard

/-!
# Whole steps are turns without interruption

A switchboard lets every session finish a step before another begins one.  Its
runs are runs of an exchange: when a session takes all the turns of a step one
after another, the exchange comes to where the switchboard comes, and the same
packets and messages leave the sessions on the way.  What holds of every run of
an exchange therefore holds of every run of a switchboard.
-/

namespace StationRelay

inductive Sight where
  /-- A device session takes a packet up for writing. -/
  | began (index : Nat) (packet : Downlink)
  /-- A browser session puts a message into its outbox. -/
  | enqueued (index : Nat) (message : Browser.Message)
  deriving DecidableEq

def Switchboard.sights (board : Switchboard) : Switchboard.Move → List Sight
  | .connectDevice _ | .connectBrowser .. => []
  | .device index now event =>
    match board.devices[index]? with
    | some session =>
      ((session.deeds board.directory now board.hub event).filterMap Device.Deed.began?).map
        (.began index)
    | none => []
  | .browser index now event =>
    match board.browsers[index]? with
    | some session =>
      (session.step board.directory now board.hub event).enqueued.map (.enqueued index)
    | none => []

namespace Exchange

/-- The part of an incident that leaves the session. -/
def Incident.sight? : Incident → Option Sight
  | .device index note => note.began?.map (.began index)
  | .browser index note => note.enqueued?.map (.enqueued index)

def ofBoard (board : Switchboard) : Exchange :=
  ⟨board.directory, board.settings, board.hub, board.devices.map (⟨·, .rest⟩),
    board.browsers.map (⟨·, .rest⟩)⟩

theorem sights_device (index : Nat) (notes : List Device.Note) :
    (notes.map (Incident.device index)).filterMap Incident.sight? =
      (notes.filterMap Device.Note.began?).map (.began index) := by
  rw [List.filterMap_map, List.map_filterMap]
  rfl

theorem sights_browser (index : Nat) (notes : List Browser.Note) :
    (notes.map (Incident.browser index)).filterMap Incident.sight? =
      (notes.filterMap Browser.Note.enqueued?).map (.enqueued index) := by
  rw [List.filterMap_map, List.map_filterMap]
  rfl

/-- Some moves lead from one exchange to another, and this leaves the sessions on the way. -/
def Comes (exchange : Exchange) (sights : List Sight) (next : Exchange) : Prop :=
  ∃ moves, exchange.run moves = next ∧ (exchange.log moves).filterMap Incident.sight? = sights

namespace Comes

variable {exchange next last : Exchange} {sights later : List Sight}

theorem refl (exchange : Exchange) : exchange.Comes [] exchange :=
  ⟨[], rfl, rfl⟩

theorem trans (comes : exchange.Comes sights next) (goesOn : next.Comes later last) :
    exchange.Comes (sights ++ later) last := by
  obtain ⟨first, rfl, rfl⟩ := comes
  obtain ⟨second, rfl, rfl⟩ := goesOn
  exact ⟨first ++ second, exchange.run_append first second, by
    rw [log_append, List.filterMap_append]⟩

theorem move {incidents : List Incident} {move : Move}
    (moved : exchange.step move = (next, incidents)) :
    exchange.Comes (incidents.filterMap Incident.sight?) next := by
  refine ⟨[move], ?_, ?_⟩
  · exact congrArg Prod.fst moved
  · rw [log, log, List.append_nil, moved]

end Comes

section Moves

variable {exchange : Exchange} {index : Nat} {now : Instant}

theorem comes_device {worker : Device.Worker} (found : exchange.devices[index]? = some worker)
    (stimulus : Device.Stimulus) :
    let turn := worker.turn exchange.directory now exchange.hub stimulus
    exchange.Comes ((turn.notes.filterMap Device.Note.began?).map (.began index))
      (exchange.afterDevice index turn.hub turn.worker) := by
  intro turn
  rw [← sights_device]
  apply @Comes.move _ _ _ (.device index now stimulus)
  simp only [step, found]
  rfl

theorem comes_browser {worker : Browser.Worker}
    (found : exchange.browsers[index]? = some worker) (stimulus : Browser.Stimulus) :
    let turn := worker.turn exchange.directory now exchange.hub stimulus
    exchange.Comes ((turn.notes.filterMap Browser.Note.enqueued?).map (.enqueued index))
      (exchange.afterBrowser index turn.hub turn.worker) := by
  intro turn
  rw [← sights_browser]
  apply @Comes.move _ _ _ (.browser index now stimulus)
  simp only [step, found]
  rfl

/-- The turns that a device session takes while nobody else does are moves. -/
theorem comes_of_settles_device {hub after : Hub} {worker last : Device.Worker}
    {notes : List Device.Note}
    (settles : Settles (Device.Worker.go exchange.directory now) hub worker notes after last)
    (inside : index < exchange.devices.length) :
    (exchange.afterDevice index hub worker).Comes
      ((notes.filterMap Device.Note.began?).map (.began index))
      (exchange.afterDevice index after last) := by
  induction settles with
  | here => exact .refl _
  | @go hub after worker last later settles ih =>
      have turn := @comes_device (exchange.afterDevice index hub worker) index now worker
        (List.getElem?_set_self inside) .go
      rw [List.filterMap_append, List.map_append]
      refine turn.trans ?_
      simp only [afterDevice, List.set_set] at ih ⊢
      exact ih

theorem comes_of_settles_browser {hub after : Hub} {worker last : Browser.Worker}
    {notes : List Browser.Note}
    (settles : Settles (Browser.Worker.go exchange.directory now) hub worker notes after last)
    (inside : index < exchange.browsers.length) :
    (exchange.afterBrowser index hub worker).Comes
      ((notes.filterMap Browser.Note.enqueued?).map (.enqueued index))
      (exchange.afterBrowser index after last) := by
  induction settles with
  | here => exact .refl _
  | @go hub after worker last later settles ih =>
      have turn := @comes_browser (exchange.afterBrowser index hub worker) index now worker
        (List.getElem?_set_self inside) .go
      rw [List.filterMap_append, List.map_append]
      refine turn.trans ?_
      simp only [afterBrowser, List.set_set] at ih ⊢
      exact ih

end Moves

theorem comes_step (board : Switchboard) (move : Switchboard.Move) :
    (ofBoard board).Comes (board.sights move) (ofBoard (board.step move)) := by
  cases move with
  | connectDevice now =>
      apply @Comes.move _ _ [] (.connectDevice now)
      simp [step, ofBoard, Switchboard.step]
  | connectBrowser now name flag =>
      apply @Comes.move _ _ [] (.connectBrowser now name flag)
      simp [step, ofBoard, Switchboard.step]
  | device index now event =>
      cases found : board.devices[index]? with
      | none =>
          simp only [Switchboard.sights, Switchboard.step, found]
          exact .refl _
      | some session =>
          have there : (ofBoard board).devices[index]? = some ⟨session, .rest⟩ := by
            simp [ofBoard, found]
          obtain ⟨begun, ⟨notes, settles, same⟩, all⟩ :=
            Device.reaches_step board.directory now board.hub session event
          have first := @comes_device (ofBoard board) index now _ there (.event event)
          have begins : (Device.Worker.mk session .rest).turn board.directory now board.hub
              (.event event) = session.begin board.directory now board.hub event := by
            rw [Device.Worker.turn, if_pos rfl]
          simp only [ofBoard, begins] at first
          have others := @comes_of_settles_device (ofBoard board) index now _ _ _ _ _ settles
            (List.getElem?_eq_some_iff.mp there).1
          have both := first.trans others
          rw [← List.map_append, same, all] at both
          simp only [Switchboard.sights, Switchboard.step, found]
          simpa [ofBoard, afterDevice, List.map_set] using both
  | browser index now event =>
      cases found : board.browsers[index]? with
      | none =>
          simp only [Switchboard.sights, Switchboard.step, found]
          exact .refl _
      | some session =>
          have there : (ofBoard board).browsers[index]? = some ⟨session, .rest⟩ := by
            simp [ofBoard, found]
          obtain ⟨messages, ⟨notes, settles, same⟩, all⟩ :=
            Browser.reaches_step board.directory now board.hub session event
          have first := @comes_browser (ofBoard board) index now _ there (.event event)
          have begins : (Browser.Worker.mk session .rest).turn board.directory now board.hub
              (.event event) = session.begin board.directory now board.hub event := by
            rw [Browser.Worker.turn, if_pos rfl]
          simp only [ofBoard, begins] at first
          have others := @comes_of_settles_browser (ofBoard board) index now _ _ _ _ _ settles
            (List.getElem?_eq_some_iff.mp there).1
          have both := first.trans others
          rw [← List.map_append, same, all] at both
          simp only [Switchboard.sights, Switchboard.step, found]
          simpa [ofBoard, afterBrowser, List.map_set] using both

/-- Every run of a switchboard is a run of an exchange: it leads to the same hub and the same
sessions, and the same leaves them. -/
theorem comes_run (board : Switchboard) (moves : List Switchboard.Move) :
    (ofBoard board).Comes (board.trace Switchboard.sights moves) (ofBoard (board.run moves)) := by
  induction moves generalizing board with
  | nil => exact .refl _
  | cons move moves ih => exact (comes_step board move).trans (ih (board.step move))

end Exchange

end StationRelay
