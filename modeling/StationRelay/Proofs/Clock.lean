import StationRelay.Proofs.Switchboard

/-!
# Runs by the clock

The moves of a run carry their instants, and nothing else says when they happen.
`Paced` asks two things of these instants: that they come in order, and that time
passes between two moves only while the switchboard lets it.  What lets time pass
is a parameter: a timer that is due may hold the clock, or a write that is still
to be done, or nothing at all.  `Paced.induction` carries an invariant of the
switchboard, of the clock and of what was seen at which instant through such a
run.

What may be seen next often depends on how things stand.  `Follows` is a history
item by item, each allowed where the one before it led.  A clock that is held must
not be held for good: `Endures` says that time can go on.
-/

namespace StationRelay

/-! ## Histories that a relation allows -/

/-- A history from one state to another, every item allowed by the relation. -/
inductive Follows {σ α : Type} (next : σ → α → σ → Prop) : σ → List α → σ → Prop where
  | nil (state : σ) : Follows next state [] state
  | cons {first mid last : σ} {item : α} {rest : List α} (now : next first item mid)
      (later : Follows next mid rest last) : Follows next first (item :: rest) last

namespace Follows

variable {σ α : Type} {next : σ → α → σ → Prop} {first mid last : σ} {before after : List α}

theorem append (follows : Follows next first before mid) (later : Follows next mid after last) :
    Follows next first (before ++ after) last := by
  induction follows with
  | nil => exact later
  | cons now _ ih => exact .cons now (ih later)

theorem concat {item : α} (follows : Follows next first before mid) (now : next mid item last) :
    Follows next first (before ++ [item]) last :=
  follows.append (.cons now (.nil last))

theorem split (follows : Follows next first (before ++ after) last) :
    ∃ mid, Follows next first before mid ∧ Follows next mid after last := by
  induction before generalizing first with
  | nil => exact ⟨first, .nil first, follows⟩
  | cons item rest ih =>
      cases follows with
      | cons now later =>
          obtain ⟨mid, front, back⟩ := ih later
          exact ⟨mid, .cons now front, back⟩

/-- Behind a state that allows nothing there is nothing. -/
theorem nil_of_stuck (follows : Follows next first after last)
    (stuck : ∀ {item mid}, ¬ next first item mid) : after = [] := by
  cases follows with
  | nil => rfl
  | cons now => exact absurd now stuck

/-- What every item keeps of the state and of the history before it, whole histories keep. -/
theorem carry (Told : List α → σ → Prop)
    (step : ∀ {history first item mid}, Told history first → next first item mid →
      Told (history ++ [item]) mid)
    (follows : Follows next first after last) (told : Told before first) :
    Told (before ++ after) last := by
  induction follows generalizing before with
  | nil =>
      rw [List.append_nil]
      exact told
  | cons now _ ih =>
      rw [List.append_cons]
      exact ih (step told now)

end Follows

namespace Switchboard

def Move.instant : Move → Instant
  | .connectDevice now => now
  | .connectBrowser now _ _ => now
  | .device _ now _ => now
  | .browser _ now _ => now

theorem settings_step (board : Switchboard) (move : Move) :
    (board.step move).settings = board.settings := by
  cases move with
  | connectDevice | connectBrowser => rfl
  | device index now event =>
      rw [step]
      split <;> rfl
  | browser index now event =>
      rw [step]
      split <;> rfl

def stamped {α : Type} (seen : Switchboard → Move → List α) (board : Switchboard) (move : Move) :
    List (Instant × α) :=
  (seen board move).map (move.instant, ·)

/-- It is this late and no earlier, and the switchboard let the time pass. -/
def Passes (lets : Switchboard → Instant → Prop) (board : Switchboard) (last now : Instant) :
    Prop :=
  last ≤ now ∧ (last < now → lets board now)

/-- The moves come in the order of their instants, and the run is watched until `ends`. -/
def Paced (lets : Switchboard → Instant → Prop) (board : Switchboard) (last : Instant) :
    List Move → Instant → Prop
  | [], ends => Passes lets board last ends
  | move :: moves, ends =>
    Passes lets board last move.instant ∧ Paced lets (board.step move) move.instant moves ends

section Decidable

variable (lets : Switchboard → Instant → Prop) [∀ board now, Decidable (lets board now)]

instance (board : Switchboard) (last now : Instant) : Decidable (Passes lets board last now) :=
  inferInstanceAs (Decidable (_ ∧ _))

instance Paced.decidable : (board : Switchboard) → (last : Instant) → (moves : List Move) →
    (ends : Instant) → Decidable (Paced lets board last moves ends)
  | board, last, [], ends => inferInstanceAs (Decidable (Passes lets board last ends))
  | board, _, move :: moves, ends =>
    have := Paced.decidable (board.step move) move.instant moves ends
    inferInstanceAs (Decidable (_ ∧ Paced lets (board.step move) move.instant moves ends))

end Decidable

section Paced

variable {lets : Switchboard → Instant → Prop} {α : Type} {seen : Switchboard → Move → List α}

/-- What the passing of time and every move keep, a run by the clock keeps. -/
theorem Paced.induction {Holds : Switchboard → Instant → List (Instant × α) → Prop}
    (passes : ∀ {board last now log}, last < now → lets board now → Holds board last log →
      Holds board now log)
    (step : ∀ {board log} (move : Move), Holds board move.instant log →
      Holds (board.step move) move.instant (log ++ stamped seen board move))
    {board : Switchboard} {last ends : Instant} {log : List (Instant × α)} {moves : List Move}
    (paced : Paced lets board last moves ends) (holds : Holds board last log) :
    Holds (board.run moves) ends (log ++ board.trace (stamped seen) moves) := by
  have waits {board : Switchboard} {last now : Instant} {log : List (Instant × α)}
      (allowed : Passes lets board last now) (holds : Holds board last log) :
      Holds board now log := by
    rcases Nat.eq_or_lt_of_le allowed.1 with rfl | later
    · exact holds
    · exact passes later (allowed.2 later) holds
  induction moves generalizing board last log with
  | nil =>
      rw [trace, List.append_nil]
      exact waits paced holds
  | cons move moves ih =>
      obtain ⟨allowed, goesOn⟩ := paced
      rw [trace, ← List.append_assoc]
      exact ih goesOn (step move (waits allowed holds))

/-- What is seen is seen in the order of time, and not after the end. -/
theorem Paced.sorted {board : Switchboard} {last ends : Instant} {moves : List Move}
    (paced : Paced lets board last moves ends) :
    ((board.trace (stamped seen) moves).map Prod.fst).Pairwise (· ≤ ·) ∧
      ∀ instant ∈ (board.trace (stamped seen) moves).map Prod.fst, instant ≤ ends := by
  let Ordered (_ : Switchboard) (clock : Instant) (log : List (Instant × α)) : Prop :=
    (log.map Prod.fst).Pairwise (· ≤ ·) ∧ ∀ instant ∈ log.map Prod.fst, instant ≤ clock
  refine @Paced.induction lets α seen Ordered ?passes ?step _ _ _ [] _ paced ⟨.nil, nofun⟩
  case passes =>
    intro _ last now log later _ holds
    refine ⟨holds.1, fun instant member => ?_⟩
    exact Nat.le_of_lt (Nat.lt_of_le_of_lt (holds.2 instant member) later)
  case step =>
    intro board log move holds
    have own : ∀ instant ∈ (stamped seen board move).map Prod.fst, instant = move.instant := by
      intro instant member
      simp only [stamped, List.map_map, List.mem_map] at member
      obtain ⟨_, _, rfl⟩ := member
      rfl
    dsimp only [Ordered]
    rw [List.map_append]
    refine ⟨List.pairwise_append.mpr ⟨holds.1, ?_, ?_⟩, ?_⟩
    · exact List.pairwise_of_forall_mem_list fun first here second there =>
        Nat.le_of_eq ((own first here).trans (own second there).symm)
    · intro first before second new
      exact own second new ▸ holds.2 first before
    · intro instant member
      exact (List.mem_append.mp member).elim (holds.2 instant) fun new => Nat.le_of_eq (own _ new)

/-! ### Time goes on -/

variable {board : Switchboard} {clock : Instant}

theorem Passes.trans {first mid last : Instant} (early : Passes lets board first mid)
    (late : Passes lets board mid last) : Passes lets board first last := by
  refine ⟨Nat.le_trans early.1 late.1, fun waits => ?_⟩
  rcases Nat.eq_or_lt_of_le late.1 with rfl | later
  · exact early.2 waits
  · exact late.2 later

/-- A run that is watched until an instant, and another from then on. -/
theorem Paced.append {last mid ends : Instant} {moves more : List Move}
    (paced : Paced lets board last moves mid) (later : Paced lets (board.run moves) mid more ends) :
    Paced lets board last (moves ++ more) ends := by
  induction moves generalizing board last with
  | nil =>
      cases more with
      | nil => exact Passes.trans paced later
      | cons move rest => exact ⟨Passes.trans paced later.1, later.2⟩
  | cons move moves ih => exact ⟨paced.1, ih paced.2 later⟩

/-- From now on time can go on to any later instant, with no moves but such. -/
def Endures (lets : Switchboard → Instant → Prop) (Usual : Move → Prop) (board : Switchboard)
    (clock : Instant) : Prop :=
  ∀ later, clock ≤ later → ∃ moves, (∀ move ∈ moves, Usual move) ∧
    Paced lets board clock moves later

variable {Usual : Move → Prop}

theorem Endures.of_lets (free : ∀ later, lets board later) : Endures lets Usual board clock :=
  fun later inOrder => ⟨[], nofun, inOrder, fun _ => free later⟩

/-- Time can go on until a move, and from there. -/
theorem Endures.of_step {move : Move} (usual : Usual move) (inOrder : clock ≤ move.instant)
    (waits : ∀ later, clock < later → later ≤ move.instant → lets board later)
    (after : Endures lets Usual (board.step move) move.instant) :
    Endures lets Usual board clock := by
  intro later passed
  by_cases early : later ≤ move.instant
  · exact ⟨[], nofun, passed, fun waiting => waits later waiting early⟩
  · obtain ⟨moves, areUsual, paced⟩ := after later (Nat.le_of_not_le early)
    exact ⟨move :: moves, List.forall_mem_cons.mpr ⟨usual, areUsual⟩,
      ⟨inOrder, fun waiting => waits _ waiting (Nat.le_refl _)⟩, paced⟩

theorem le_of_le_max {clock due later : Nat} (passes : clock < later)
    (early : later ≤ max clock due) : later ≤ due := by
  omega

/-- A run goes on as the switchboard does that it leads to. -/
theorem Paced.endures {last ends : Instant} {moves : List Move}
    (paced : Paced lets board last moves ends) (endures : Endures lets Usual (board.run moves) ends)
    {later : Instant} (inOrder : ends ≤ later) :
    ∃ more, (∀ move ∈ more, Usual move) ∧ Paced lets board last (moves ++ more) later := by
  obtain ⟨more, usual, goesOn⟩ := endures later inOrder
  exact ⟨more, usual, paced.append goesOn⟩

end Paced

end Switchboard

end StationRelay
