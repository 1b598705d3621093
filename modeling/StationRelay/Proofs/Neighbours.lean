import StationRelay.Proofs.BrowserSteps
import StationRelay.Proofs.Deeds
import StationRelay.Proofs.Ownership

/-!
# What one session does to the links of others

Nobody can post to a link that no station leads to.  `Hub.Respects` says what a
party does at most to a hub it shares: it claims stations for its own links
only, and leaves the mailboxes of unclaimed links alone.  Every step of a device
session respects the links of the others, and a browser session respects all.
-/

namespace StationRelay

namespace Hub

/-- No station leads to the link, and nothing is in its mailbox. -/
structure Unclaimed (hub : Hub) (link : LinkId) : Prop where
  stations : ∀ station, hub.stations.get station ≠ some link
  items : hub.devices.items link = []

/-- What a party with these links does to a hub at most. -/
structure Respects (mine : LinkId → Prop) (hub after : Hub) : Prop where
  length : after.devices.table.length = hub.devices.table.length
  stations : ∀ {station : Station} {link : LinkId}, after.stations.get station = some link →
    hub.stations.get station = some link ∨ mine link
  unclaimed : ∀ {link : LinkId}, ¬ mine link → hub.Unclaimed link → after.Unclaimed link

namespace Respects

variable {mine : LinkId → Prop}

theorem refl (hub : Hub) : hub.Respects mine hub :=
  ⟨rfl, Or.inl, fun _ unclaimed => unclaimed⟩

theorem trans {first second third : Hub} (left : first.Respects mine second)
    (right : second.Respects mine third) : first.Respects mine third where
  length := right.length.trans left.length
  stations leads := (right.stations leads).elim left.stations Or.inr
  unclaimed notMine unclaimed := right.unclaimed notMine (left.unclaimed notMine unclaimed)

theorem of_same {hub after : Hub} (stations : after.stations = hub.stations)
    (devices : after.devices = hub.devices) : hub.Respects mine after := by
  refine ⟨congrArg (List.length ∘ Links.table) devices, ?_, ?_⟩
  · rw [stations]
    exact Or.inl
  · intro link _ unclaimed
    exact ⟨stations ▸ unclaimed.stations, devices ▸ unclaimed.items⟩

theorem of_modify (hub : Hub) {own : LinkId} (isMine : mine own)
    (change : Link Command → Link Command) :
    hub.Respects mine { hub with devices := hub.devices.modify own change } := by
  refine ⟨hub.devices.length_modify own change, Or.inl, ?_⟩
  intro link notMine unclaimed
  have different : own ≠ link := by
    rintro rfl
    exact notMine isMine
  exact ⟨unclaimed.stations, (hub.devices.items_modify_ne change different).trans unclaimed.items⟩

theorem leaveDevice (hub : Hub) (station : Station) :
    hub.Respects mine (hub.leaveDevice station) := by
  have shrinks : ∀ {other : Station} {link : LinkId},
      (hub.leaveDevice station).stations.get other = some link →
        hub.stations.get other = some link := by
    intro other link leads
    unfold Hub.leaveDevice at leads
    rw [PerStation.get_set] at leads
    by_cases same : other = station
    · rw [if_pos same] at leads
      cases leads
    · rwa [if_neg same] at leads
  refine ⟨rfl, fun leads => Or.inl (shrinks leads), ?_⟩
  intro link _ unclaimed
  exact ⟨fun other leads => unclaimed.stations other (shrinks leads), unclaimed.items⟩

theorem claim (hub : Hub) (station : Station) {own : LinkId} (isMine : mine own) :
    hub.Respects mine { hub with stations := hub.stations.set station (some own) } := by
  have claims : ∀ {other : Station} {link : LinkId},
      (hub.stations.set station (some own)).get other = some link →
        hub.stations.get other = some link ∨ mine link := by
    intro other link leads
    rw [PerStation.get_set] at leads
    by_cases same : other = station
    · rw [if_pos same] at leads
      cases leads
      exact Or.inr isMine
    · rw [if_neg same] at leads
      exact Or.inl leads
  refine ⟨rfl, claims, ?_⟩
  intro link notMine unclaimed
  refine ⟨?_, unclaimed.items⟩
  intro other leads
  exact (claims leads).elim (unclaimed.stations other) notMine

theorem postCommand {hub : Hub} {station : Station} {found : LinkId}
    (leads : hub.findDevice station = some found) (command : Command) :
    hub.Respects mine (hub.postCommand found command) := by
  refine ⟨hub.devices.length_modify .., Or.inl, ?_⟩
  intro link _ unclaimed
  have claimed : hub.stations.get station = some found := (Option.filter_eq_some_iff.mp leads).1
  have different : found ≠ link := by
    rintro rfl
    exact unclaimed.stations station claimed
  exact ⟨unclaimed.stations, (hub.devices.items_modify_ne _ different).trans unclaimed.items⟩

theorem forwardTo (hub : Hub) (command : Command) (raw : UInt8) :
    hub.Respects mine (Browser.forwardTo hub command raw).1 := by
  unfold Browser.forwardTo
  split
  · rename_i link found
    obtain ⟨station, _, leads⟩ := Option.bind_eq_some_iff.mp found
    exact postCommand leads command
  · exact refl hub

theorem forward (hub : Hub) (command : Command) (stationIds : List UInt8) :
    hub.Respects mine (Browser.forward hub command stationIds).1 := by
  induction stationIds generalizing hub with
  | nil => exact refl hub
  | cons raw rest ih => exact (forwardTo hub command raw).trans (ih _)

theorem handleDevice (directory : Directory) (hub : Hub) (engine : Device.Engine)
    (buffer : Bytes) (isMine : mine engine.link) :
    hub.Respects mine (Device.handle directory hub engine buffer).hub := by
  have listed := Device.handling_handle directory hub engine buffer
  generalize Device.handle directory hub engine buffer = handled at listed ⊢
  cases listed with
  | accepted => exact claim hub _ isMine
  | report => exact of_same (SameClaims.onReport hub _ _).stations (Device.devices_onReport hub _ _)
  | _ => exact refl hub

theorem closeDevice (hub : Hub) (engine : Device.Engine) :
    hub.Respects mine (Device.close hub engine).1 := by
  unfold Device.close
  split
  · exact leaveDevice hub _
  · exact refl hub

end Respects

end Hub

/-! ## Devices -/

namespace Device.Session

section Steps

variable {directory : Directory} {now : Instant} {hub after : Hub} {session last : Session}
  {deeds : List Deed} {mine : LinkId → Prop}

theorem finish_respects (hub : Hub) {session : Session} (isMine : mine session.link)
    (outcome : Outcome) : hub.Respects mine (finish hub session outcome).1 :=
  ((Hub.Respects.closeDevice hub session.engine).trans (.of_modify _ isMine _)).trans
    (.of_modify _ isMine _)

theorem Drains.engine_link (drains : Drains directory now hub session deeds after last) :
    last.engine.link = session.engine.link := by
  induction drains with
  | stop | breach => rfl
  | write nonempty called good performed =>
      subst called
      exact link_handle ..
  | next nonempty called good performed goesOn ih =>
      subst called
      exact ih.trans (link_handle ..)

theorem Drains.respects (drains : Drains directory now hub session deeds after last)
    (own : session.engine.link = session.link) (isMine : mine session.link) :
    hub.Respects mine after := by
  induction drains with
  | stop => exact .refl _
  | breach => exact finish_respects _ isMine _
  | write nonempty called good performed =>
      subst called
      exact .handleDevice _ _ _ _ (own ▸ isMine)
  | next nonempty called good performed goesOn ih =>
      subst called
      exact (Hub.Respects.handleDevice _ _ _ _ (own ▸ isMine)).trans
        (ih ((link_handle ..).trans own) isMine)

variable {event : Event}

theorem Steps.engine_link (steps : Steps directory now hub session event deeds after last) :
    last.engine.link = session.engine.link := by
  cases steps with
  | reads waiting nonempty drains => exact drains.engine_link
  | resumes writing performed drains => exact drains.engine_link
  | _ => rfl

theorem Steps.respects (steps : Steps directory now hub session event deeds after last)
    (own : session.engine.link = session.link) (isMine : mine session.link) :
    hub.Respects mine after := by
  cases steps with
  | ends => exact finish_respects _ isMine _
  | reads waiting nonempty drains => exact drains.respects own isMine
  | resumes writing performed drains => exact drains.respects own isMine
  | requests => exact .of_modify _ isMine _
  | _ => exact .refl _

end Steps

end Device.Session

/-! ## Browsers -/

namespace Browser

/-- Forwarding keeps the property, and so does whatever browsers do among themselves. -/
structure Harmless (Holds : Hub → Prop) : Prop where
  forward : ∀ {hub : Hub} (command : Command) (stationIds : List UInt8), Holds hub →
    Holds (Browser.forward hub command stationIds).1
  browsers : ∀ {hub : Hub} (browsers : Links Reading) (sessions : List (Uuid × BrowserEntry)),
    Holds hub → Holds { hub with browsers, sessions }

namespace Harmless

variable {Holds : Hub → Prop} (harmless : Harmless Holds)

include harmless

theorem handle (directory : Directory) {hub : Hub} (engine : Engine) (buffer : Bytes)
    (holds : Holds hub) : Holds (handle directory hub engine buffer).hub := by
  unfold Browser.handle
  split
  · split
    · rename_i request _
      cases request with
      | stations => exact holds
      | readings stationIds => exact harmless.forward _ stationIds holds
    · exact holds
  all_goals exact holds

theorem finish {progress : Progress} (outcome : Outcome) (holds : Holds progress.hub) :
    Holds (progress.finish outcome).hub := by
  have left : Holds (progress.hub.leaveBrowser progress.session.engine.session) :=
    harmless.browsers progress.hub.browsers _ holds
  exact harmless.browsers _ _ left

theorem drains {directory : Directory} {now : Instant} {progress last : Progress}
    (drains : Progress.Drains directory now progress last) (holds : Holds progress.hub) :
    Holds last.hub := by
  induction drains with
  | stop | breach => exact holds
  | next nonempty called good goesOn ih =>
      subst called
      apply ih
      rw [Progress.hub_enqueueReplies]
      exact harmless.handle directory _ _ holds

theorem acts {directory : Directory} {now : Instant} {progress acted : Progress} {event : Event}
    (acts : Session.Acts directory now progress event acted) (holds : Holds progress.hub) :
    Holds acted.hub := by
  cases acts with
  | feeds isOpen nonempty drains => exact harmless.drains drains holds
  | delivers => exact harmless.browsers _ _ holds
  | ends | fails => exact harmless.finish _ holds
  | _ => exact holds

/-- What is harmless survives every step of a browser session. -/
theorem step {hub : Hub} (holds : Holds hub) (directory : Directory) (now : Instant)
    (session : Session) (event : Event) : Holds (session.step directory now hub event).hub := by
  rcases session.step_cases directory now hub event with ⟨_, same⟩ | ⟨acted, _, acts, result⟩
  · rw [same]
    exact holds
  · rw [result]
    have holdsActed := harmless.acts acts holds
    unfold Progress.conclude
    split
    · split
      · exact harmless.finish _ holdsActed
      · exact holdsActed
    · exact holdsActed

theorem start {hub : Hub} (holds : Holds hub) (settings : Settings) (now : Instant) (name : Uuid)
    (flag : TransportFlag) : Holds (Session.start settings now hub name flag).1 := by
  simp only [Session.start, Hub.joinBrowser]
  split
  · rename_i joined session joins
    split at joins
    · cases joins
    · cases joins
      exact harmless.browsers _ _ holds
  · exact harmless.browsers _ _ holds

end Harmless

theorem harmless_respects {mine : LinkId → Prop} (hub : Hub) :
    Harmless (hub.Respects mine ·) where
  forward command stationIds respects := respects.trans (.forward _ command stationIds)
  browsers _ _ respects := respects.trans (.of_same rfl rfl)

end Browser

end StationRelay
