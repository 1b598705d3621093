import StationRelay.Mailbox

/-!
# Links to sessions

A link is the handle through which others post to the mailbox of a session.  It
lives as long as somebody holds it: the session itself, or a party that looked
it up.  Links are numbered in the order they are made, and a number is never
used twice, so a number that is kept after the last holder has let go finds a
dead link.
-/

namespace StationRelay

abbrev LinkId := Nat

structure Link (α : Type) where
  mailbox : Mailbox α
  /-- How many hold the link. -/
  holders : Nat
  deriving DecidableEq

/-- All links of one kind, by number. -/
structure Links (α : Type) where
  table : List (Link α)
  deriving DecidableEq

namespace Links

variable {α : Type}

def empty : Links α := ⟨[]⟩

def get? (links : Links α) (id : LinkId) : Option (Link α) :=
  links.table[id]?

def nextId (links : Links α) : LinkId :=
  links.table.length

/-- Makes a link with one holder to an empty mailbox; its number is `nextId`. -/
def create (links : Links α) (capacity : Nat) : Links α :=
  ⟨links.table ++ [⟨Mailbox.ofCapacity capacity, 1⟩]⟩

def isLive (links : Links α) (id : LinkId) : Bool :=
  match links.get? id with
  | some link => 0 < link.holders
  | none => false

def modify (links : Links α) (id : LinkId) (change : Link α → Link α) : Links α :=
  ⟨links.table.modify id change⟩

def hold (links : Links α) (id : LinkId) : Links α :=
  links.modify id fun link => { link with holders := link.holders + 1 }

def release (links : Links α) (id : LinkId) : Links α :=
  links.modify id fun link => { link with holders := link.holders - 1 }

def accepts (links : Links α) (id : LinkId) : Bool :=
  match links.get? id with
  | some link => decide link.mailbox.Accepts
  | none => false

def post (links : Links α) (id : LinkId) (item : α) : Links α :=
  links.modify id fun link => { link with mailbox := link.mailbox.post item }

def first? (links : Links α) (id : LinkId) : Option α :=
  match links.get? id with
  | some link => link.mailbox.items.head?
  | none => none

def take (links : Links α) (id : LinkId) : Links α :=
  links.modify id fun link => { link with mailbox := link.mailbox.drop }

def closeMailbox (links : Links α) (id : LinkId) : Links α :=
  links.modify id fun link => { link with mailbox := link.mailbox.close }

/-! ## What a link shows

Holders and waiting items are all that is seen of a link from outside.  A
number without a link shows no holder and no item.
-/

def holderCount (links : Links α) (id : LinkId) : Nat :=
  match links.get? id with
  | some link => link.holders
  | none => 0

/-- What waits in the mailbox behind a link, oldest first. -/
def items (links : Links α) (id : LinkId) : List α :=
  match links.get? id with
  | some link => link.mailbox.items
  | none => []

theorem isLive_iff (links : Links α) (id : LinkId) :
    links.isLive id = true ↔ 0 < links.holderCount id := by
  unfold isLive holderCount
  cases links.get? id <;> simp

theorem first?_eq (links : Links α) (id : LinkId) :
    links.first? id = (links.items id).head? := by
  unfold first? items
  cases links.get? id <;> rfl

theorem get?_modify (links : Links α) (id other : LinkId) (change : Link α → Link α) :
    (links.modify id change).get? other =
      if id = other then (links.get? other).map change else links.get? other := by
  simp only [modify, get?, List.getElem?_modify]
  split <;> simp

@[simp] theorem length_modify (links : Links α) (id : LinkId) (change : Link α → Link α) :
    (links.modify id change).table.length = links.table.length := by
  simp [modify]

/-- Only numbers in the table are held. -/
theorem lt_length_of_holderCount {links : Links α} {id : LinkId}
    (held : 0 < links.holderCount id) : id < links.table.length := by
  unfold holderCount get? at held
  cases found : links.table[id]? with
  | none =>
      rw [found] at held
      cases held
  | some link => exact (List.getElem?_eq_some_iff.mp found).1

/-- A change that leaves the holders of a link as they are is not seen in any count. -/
theorem holderCount_modify (links : Links α) (id other : LinkId) {change : Link α → Link α}
    (same : ∀ link, (change link).holders = link.holders) :
    (links.modify id change).holderCount other = links.holderCount other := by
  unfold holderCount
  rw [get?_modify]
  by_cases equal : id = other
  · rw [if_pos equal]
    cases links.get? other <;> simp [same]
  · rw [if_neg equal]

/-- A change to one link is not seen in the mailbox behind another. -/
theorem items_modify_ne (links : Links α) {id other : LinkId} (change : Link α → Link α)
    (different : id ≠ other) : (links.modify id change).items other = links.items other := by
  unfold items
  rw [get?_modify, if_neg different]

@[simp] theorem holderCount_post (links : Links α) (id other : LinkId) (item : α) :
    (links.post id item).holderCount other = links.holderCount other :=
  links.holderCount_modify id other fun _ => rfl

@[simp] theorem holderCount_take (links : Links α) (id other : LinkId) :
    (links.take id).holderCount other = links.holderCount other :=
  links.holderCount_modify id other fun _ => rfl

@[simp] theorem holderCount_closeMailbox (links : Links α) (id other : LinkId) :
    (links.closeMailbox id).holderCount other = links.holderCount other :=
  links.holderCount_modify id other fun _ => rfl

/-- The new link has one holder, and the others keep theirs. -/
theorem holderCount_create (links : Links α) (capacity : Nat) (other : LinkId) :
    (links.create capacity).holderCount other =
      if other = links.nextId then 1 else links.holderCount other := by
  unfold holderCount create get? nextId
  rcases Nat.lt_trichotomy other links.table.length with lower | equal | above
  · rw [List.getElem?_append_left lower, if_neg (Nat.ne_of_lt lower)]
  · subst other
    simp
  · have beyond : links.table[other]? = none := List.getElem?_eq_none (Nat.le_of_lt above)
    have notNew : other ≠ links.table.length := Nat.ne_of_gt above
    rw [List.getElem?_eq_none (by simp; omega), beyond, if_neg notNew]

/-- The mailbox of the new link is empty, as a number without a link shows. -/
@[simp] theorem items_create (links : Links α) (capacity : Nat) (other : LinkId) :
    (links.create capacity).items other = links.items other := by
  unfold items create get?
  rcases Nat.lt_trichotomy other links.table.length with lower | equal | above
  · rw [List.getElem?_append_left lower]
  · subst other
    simp [Mailbox.ofCapacity]
  · have beyond : links.table[other]? = none := List.getElem?_eq_none (Nat.le_of_lt above)
    rw [List.getElem?_eq_none (by simp; omega), beyond]

/-- Holding a link adds one to its own count only. -/
theorem holderCount_hold {links : Links α} {id : LinkId} (found : id < links.table.length)
    (other : LinkId) :
    (links.hold id).holderCount other =
      links.holderCount other + if other = id then 1 else 0 := by
  unfold holderCount hold
  rw [get?_modify]
  by_cases same : id = other
  · subst other
    simp [get?, List.getElem?_eq_getElem found]
  · rw [if_neg same, if_neg (fun equal => same equal.symm), Nat.add_zero]

/-- Letting a link go takes one from its own count only. -/
theorem holderCount_release (links : Links α) (id other : LinkId) :
    (links.release id).holderCount other =
      links.holderCount other - if other = id then 1 else 0 := by
  unfold holderCount release
  rw [get?_modify]
  by_cases same : id = other
  · subst other
    cases links.get? id <;> simp
  · rw [if_neg same, if_neg (fun equal => same equal.symm), Nat.sub_zero]

end Links

end StationRelay
