import StationRelay.Proofs.Deeds

/-!
# The language of what a device is sent

`Word` is the language of what a session says to its device: a greeting, any
number of refusals, and once the device is accepted a welcome with refusals,
pings and requests behind it.  A log is the list of the deeds of a session;
`begun` and `written` are the packets in it, and `PongBetween` says that its
pings are kept apart by pongs.
-/

namespace StationRelay

namespace Device

/-! ## Where an item stands in two lists -/

section Splitting

variable {α : Type} {item : α} {first second before after : List α}

theorem split_first (free : item ∉ second) (split : first ++ second = before ++ item :: after) :
    ∃ rest, first = before ++ item :: rest ∧ after = rest ++ second := by
  rcases List.append_eq_append_iff.mp split with ⟨between, _, back⟩ | ⟨between, front, back⟩
  · refine absurd ?_ free
    rw [back]
    exact List.mem_append_right _ (List.mem_cons_self ..)
  · cases between with
    | nil =>
        refine absurd ?_ free
        rw [List.nil_append] at back
        rw [← back]
        exact List.mem_cons_self ..
    | cons head rest =>
        obtain ⟨rfl, rfl⟩ := List.cons.inj back
        exact ⟨rest, front, rfl⟩

theorem split_second (free : item ∉ first) (split : first ++ second = before ++ item :: after) :
    ∃ rest, before = first ++ rest ∧ second = rest ++ item :: after := by
  rcases List.append_eq_append_iff.mp split with ⟨rest, front, back⟩ | ⟨rest, front, back⟩
  · exact ⟨rest, front, back⟩
  · cases rest with
    | nil => exact ⟨[], by rw [front, List.append_nil, List.append_nil], back.symm⟩
    | cons head rest =>
        obtain ⟨rfl, rfl⟩ := List.cons.inj back
        refine absurd ?_ free
        rw [front]
        exact List.mem_append_right _ (List.mem_cons_self ..)

end Splitting

/-! ## The language -/

/-- A packet that an accepted device can be sent. -/
inductive Served : Downlink → Prop where
  | refusal : Served (.refusal .stationTaken)
  | ping : Served .ping
  | request (session : Uuid) (flag : TransportFlag) : Served (.request session flag)

inductive Word : List Downlink → Prop where
  | unaccepted (refusals : List Refusal) : Word (.greeting :: refusals.map .refusal)
  | accepted (refusals : List Refusal) {served : List Downlink}
      (all : ∀ packet ∈ served, Served packet) :
      Word (.greeting :: refusals.map .refusal ++ .welcome :: served)

namespace Word

theorem not_mem_refused {packet : Downlink} (notGreeting : packet ≠ .greeting)
    (notRefusal : ∀ reason, packet ≠ .refusal reason) (refusals : List Refusal) :
    packet ∉ Downlink.greeting :: refusals.map .refusal := by
  intro member
  rcases List.mem_cons.mp member with rfl | member
  · exact notGreeting rfl
  · obtain ⟨reason, _, rfl⟩ := List.mem_map.mp member
    exact notRefusal reason rfl

theorem welcome_not_mem (refusals : List Refusal) :
    Downlink.welcome ∉ Downlink.greeting :: refusals.map .refusal := by
  refine not_mem_refused (by decide) ?_ refusals
  intro reason
  exact nofun

theorem ping_not_mem (refusals : List Refusal) :
    Downlink.ping ∉ Downlink.greeting :: refusals.map .refusal := by
  refine not_mem_refused (by decide) ?_ refusals
  intro reason
  exact nofun

theorem count_welcome_le {word : List Downlink} (isWord : Word word) :
    word.count .welcome ≤ 1 := by
  cases isWord with
  | unaccepted refusals =>
      rw [List.count_eq_zero.mpr (welcome_not_mem refusals)]
      exact Nat.zero_le 1
  | @accepted refusals served all =>
      have notServed : Downlink.welcome ∉ served := by
        intro member
        cases all _ member
      have total : (Downlink.greeting :: refusals.map .refusal ++ .welcome :: served).count
          .welcome = 0 + (0 + 1) := by
        rw [List.count_append, List.count_eq_zero.mpr (welcome_not_mem refusals),
          List.count_cons_self, List.count_eq_zero.mpr notServed]
      exact Nat.le_of_eq total

/-- Nothing but the greeting and refusals is sent before the welcome. -/
theorem welcome_mem {word before after : List Downlink} {packet : Downlink} (isWord : Word word)
    (split : word = before ++ packet :: after) (notGreeting : packet ≠ .greeting)
    (notWelcome : packet ≠ .welcome) (notRefusal : ∀ reason, packet ≠ .refusal reason) :
    .welcome ∈ before := by
  cases isWord with
  | unaccepted refusals =>
      refine absurd ?_ (not_mem_refused notGreeting notRefusal refusals)
      rw [split]
      exact List.mem_append_right _ (List.mem_cons_self ..)
  | @accepted refusals served all =>
      obtain ⟨rest, rfl, back⟩ :=
        split_second (not_mem_refused notGreeting notRefusal refusals) split
      cases rest with
      | nil => exact absurd (List.cons.inj back).1.symm notWelcome
      | cons head rest =>
          rw [← (List.cons.inj back).1]
          exact List.mem_append_right _ (List.mem_cons_self ..)

end Word

/-! ## Logs -/

def begun (log : List Deed) : List Downlink :=
  log.filterMap Deed.began?

def written (log : List Deed) : List Downlink :=
  log.filterMap Deed.wrote?

/-- Between any two deeds of this kind a pong was handled. -/
def PongBetween (mark : Deed) (log : List Deed) : Prop :=
  ∀ before between after, log = before ++ mark :: (between ++ mark :: after) →
    .handled .pong ∈ between

/-- Behind every deed of this kind a pong was handled. -/
def Answered (mark : Deed) (log : List Deed) : Prop :=
  ∀ before after, log = before ++ mark :: after → .handled .pong ∈ after

section Logs

variable {mark : Deed} {log deeds : List Deed}

theorem begun_append (log deeds : List Deed) : begun (log ++ deeds) = begun log ++ begun deeds :=
  List.filterMap_append

theorem written_append (log deeds : List Deed) :
    written (log ++ deeds) = written log ++ written deeds :=
  List.filterMap_append

theorem Answered.of_not_mem (free : mark ∉ log) : Answered mark log := by
  intro before after split
  refine absurd ?_ free
  rw [split]
  exact List.mem_append_right _ (List.mem_cons_self ..)

theorem Answered.append (answered : Answered mark log) (free : mark ∉ deeds) :
    Answered mark (log ++ deeds) := by
  intro before after split
  obtain ⟨rest, front, rfl⟩ := split_first free split
  exact List.mem_append_left _ (answered before rest front)

theorem Answered.of_pong (free : mark ∉ deeds) (pong : .handled .pong ∈ deeds) :
    Answered mark (log ++ deeds) := by
  intro before after split
  obtain ⟨rest, _, rfl⟩ := split_first free split
  exact List.mem_append_right _ pong

theorem PongBetween.of_not_mem (free : mark ∉ log) : PongBetween mark log := by
  intro before between after split
  exact absurd (split ▸ List.mem_append_right _ (List.mem_cons_self ..)) free

theorem PongBetween.append (separated : PongBetween mark log) (free : mark ∉ deeds) :
    PongBetween mark (log ++ deeds) := by
  intro before between after split
  obtain ⟨rest, front, back⟩ := split_first free split
  obtain ⟨last, rfl, _⟩ := split_first free back.symm
  exact separated before between last front

theorem PongBetween.concat (separated : PongBetween mark log) (answered : Answered mark log) :
    PongBetween mark (log ++ [mark]) := by
  intro before between after split
  rcases List.eq_nil_or_concat after with rfl | ⟨rest, last, rfl⟩
  · have front : log ++ [mark] = before ++ mark :: between ++ [mark] := by
      rw [split, List.append_assoc, List.cons_append]
    exact answered before between (List.append_cancel_right front)
  · have front : log ++ [mark] = before ++ mark :: (between ++ mark :: rest) ++ [last] := by
      rw [split]
      simp only [List.concat_eq_append, List.append_assoc, List.cons_append]
    exact separated before between rest (List.append_inj_left' front rfl)

theorem PongBetween.of_append (separated : PongBetween mark (log ++ deeds)) :
    PongBetween mark log := by
  intro before between after split
  refine separated before between (after ++ deeds) ?_
  rw [split]
  simp only [List.append_assoc, List.cons_append]

end Logs

end Device

end StationRelay
