import StationRelay.Proofs.Exchange

/-!
# What a log says about the mailboxes

Of a log it can be read off which readings the mailbox of a browser session
accepted and which of them the session told its browser, and likewise which
requests the mailbox of a device session accepted and which of them it took up
for writing.  `remembers_run` ties all four to the mailboxes of the exchange that
a run leads to.
-/

namespace StationRelay

namespace Exchange

namespace Incident

/-- The report whose reading was posted to a browser session and accepted. -/
def delivered? (index : Nat) : Incident → Option Device.Pending
  | .device _ (.reported pending (some (link, true))) =>
    if link = index then some pending else none
  | .device .. | .browser .. => none

/-- The reading that a browser session put into its outbox. -/
def told? (index : Nat) : Incident → Option Reading
  | .browser teller note => if teller = index then note.told? else none
  | .device .. => none

/-- The request that was posted to a device session and accepted. -/
def requested? (index : Nat) : Incident → Option Command
  | .browser _ (.asked _ link command true) => if link = index then some command else none
  | .browser .. | .device .. => none

/-- The request that a device session took up for writing. -/
def begun? (index : Nat) : Incident → Option Command
  | .device writer note => if writer = index then note.requested? else none
  | .browser .. => none

end Incident

section Logs

variable (index : Nat) (log : List Incident)

def deliveredTo : List Device.Pending :=
  log.filterMap (Incident.delivered? index)

def toldBy : List Reading :=
  log.filterMap (Incident.told? index)

def requestedOf : List Command :=
  log.filterMap (Incident.requested? index)

def begunBy : List Command :=
  log.filterMap (Incident.begun? index)

variable {index log} (later : List Incident)

theorem deliveredTo_append :
    deliveredTo index (log ++ later) = deliveredTo index log ++ deliveredTo index later :=
  List.filterMap_append

theorem toldBy_append : toldBy index (log ++ later) = toldBy index log ++ toldBy index later :=
  List.filterMap_append

theorem requestedOf_append :
    requestedOf index (log ++ later) = requestedOf index log ++ requestedOf index later :=
  List.filterMap_append

theorem begunBy_append : begunBy index (log ++ later) = begunBy index log ++ begunBy index later :=
  List.filterMap_append

end Logs

section Notes

theorem filterMap_of_unseen {Note Seen : Type} {make : Note → Incident}
    {see : Incident → Option Seen} (unseen : ∀ note, see (make note) = none) (notes : List Note) :
    (notes.map make).filterMap see = [] := by
  rw [List.filterMap_map]
  exact List.filterMap_eq_nil_iff.mpr fun note _ => unseen note

theorem filterMap_of_own {Note Seen : Type} {make : Note → Incident} {own : Prop} [Decidable own]
    {see : Incident → Option Seen} {seen : Note → Option Seen}
    (same : ∀ note, see (make note) = if own then seen note else none) (notes : List Note) :
    (notes.map make).filterMap see = if own then notes.filterMap seen else [] := by
  by_cases isOwn : own
  · simp only [if_pos isOwn] at same ⊢
    rw [List.filterMap_map]
    exact congrArg (List.filterMap · notes) (funext same)
  · simp only [if_neg isOwn] at same ⊢
    exact filterMap_of_unseen same notes

variable (index number : Nat)

theorem deliveredTo_device (notes : List Device.Note) :
    (deliveredTo index (notes.map (.device number))).map Device.Pending.reading =
      Links.acceptedAt index (notes.filterMap Device.Note.posted?) := by
  rw [deliveredTo, List.map_filterMap, List.filterMap_map, Links.acceptedAt,
    List.filterMap_filterMap]
  congr 1
  funext note
  cases note with
  | began packet => rfl
  | reported pending posted =>
      rcases posted with _ | ⟨link, accepted⟩
      · rfl
      · by_cases here : link = index <;> cases accepted <;>
          simp [Incident.delivered?, Device.Note.posted?, here]

theorem deliveredTo_browser (notes : List Browser.Note) :
    deliveredTo index (notes.map (.browser number)) = [] :=
  filterMap_of_unseen (fun _ => rfl) notes

theorem toldBy_device (notes : List Device.Note) :
    toldBy index (notes.map (.device number)) = [] :=
  filterMap_of_unseen (fun _ => rfl) notes

theorem toldBy_browser (notes : List Browser.Note) :
    toldBy index (notes.map (.browser number)) =
      if number = index then notes.filterMap Browser.Note.told? else [] :=
  filterMap_of_own (fun _ => rfl) notes

theorem requestedOf_device (notes : List Device.Note) :
    requestedOf index (notes.map (.device number)) = [] :=
  filterMap_of_unseen (fun _ => rfl) notes

theorem requestedOf_browser (notes : List Browser.Note) :
    requestedOf index (notes.map (.browser number)) =
      Links.acceptedAt index (notes.filterMap Browser.Note.posted?) := by
  rw [requestedOf, Links.acceptedAt, List.filterMap_map, List.filterMap_filterMap]
  congr 1
  funext note
  cases note with
  | enqueued message => rfl
  | asked station link command accepted =>
      cases accepted <;> simp [Incident.requested?, Browser.Note.posted?]

theorem begunBy_device (notes : List Device.Note) :
    begunBy index (notes.map (.device number)) =
      if number = index then notes.filterMap Device.Note.requested? else [] :=
  filterMap_of_own (fun _ => rfl) notes

theorem begunBy_browser (notes : List Browser.Note) :
    begunBy index (notes.map (.browser number)) = [] :=
  filterMap_of_unseen (fun _ => rfl) notes

end Notes

/-- The log is the history of both mailboxes with this number. -/
structure Remembers (index : Nat) (exchange : Exchange) (log : List Incident) : Prop where
  readings : Links.Records index exchange.settings.queueCapacity exchange.hub.browsers
    ((deliveredTo index log).map Device.Pending.reading) (toldBy index log)
  commands : Links.Records index exchange.settings.queueCapacity exchange.hub.devices
    (requestedOf index log) (begunBy index log)

theorem Remembers.start (index : Nat) (directory : Directory) (settings : Settings) :
    Remembers index (start directory settings) [] :=
  ⟨.empty, .empty⟩

theorem Remembers.step {index : Nat} {exchange : Exchange} {log : List Incident}
    {next : Exchange × List Incident} (remembers : Remembers index exchange log)
    (wired : exchange.Wired) (steps : exchange.Steps next) :
    Remembers index next.1 (log ++ next.2) := by
  obtain ⟨readings, commands⟩ := remembers
  cases steps with
  | idle =>
      rw [List.append_nil]
      exact ⟨readings, commands⟩
  | connectsDevice fresh =>
      rw [List.append_nil]
      exact ⟨readings, commands.concat fresh.made rfl (.ofCapacity _)⟩
  | connectsBrowser fresh =>
      rw [List.append_nil]
      exact ⟨readings.concat fresh.made fresh.sized fresh.unused, commands⟩
  | @device number worker now turn found turns =>
      dsimp only
      constructor
      · rw [deliveredTo_append, toldBy_append, toldBy_device, List.append_nil, List.map_append,
          deliveredTo_device]
        exact readings.posts turns.postsReading
      · rw [requestedOf_append, requestedOf_device, List.append_nil, begunBy_append,
          begunBy_device]
        exact commands.receives (turns.takesCommand (wired.device found))
  | @browser number worker now turn found turns =>
      dsimp only
      constructor
      · rw [deliveredTo_append, deliveredTo_browser, List.append_nil, toldBy_append,
          toldBy_browser]
        exact readings.receives (turns.takesReading (wired.browser found))
      · rw [requestedOf_append, requestedOf_browser, begunBy_append, begunBy_browser,
          List.append_nil]
        exact commands.posts turns.postsCommand

theorem remembers_run (index : Nat) (directory : Directory) (settings : Settings)
    (moves : List Move) :
    Remembers index ((start directory settings).run moves)
      ((start directory settings).log moves) := by
  have both := @run_induction
    (fun exchange log => exchange.Wired ∧ Remembers index exchange log)
    (fun steps holds => ⟨holds.1.step steps, holds.2.step holds.1 steps⟩) _ []
    ⟨Wired.start directory settings, Remembers.start index directory settings⟩ moves
  exact both.2

end Exchange

end StationRelay
