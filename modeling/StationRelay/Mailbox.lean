/-!
# Bounded queues between sessions

A mailbox belongs to the session that takes items out of it.  Anyone who holds
a link to that session may post; a post to a full or closed mailbox is refused
and changes nothing.
-/

namespace StationRelay

structure Mailbox (α : Type) where
  capacity : Nat
  /-- What was posted and not yet taken, oldest first. -/
  items : List α
  /-- The receiving end exists. -/
  isOpen : Bool
  deriving DecidableEq

namespace Mailbox

variable {α : Type}

/-- The largest capacity a mailbox can be made with. -/
def maxCapacity : Nat := 0x1FFFFFFFFFFFFFFF

def Supports (capacity : Nat) : Prop :=
  0 < capacity ∧ capacity ≤ maxCapacity

instance (capacity : Nat) : Decidable (Supports capacity) :=
  inferInstanceAs (Decidable (_ ∧ _))

def ofCapacity (capacity : Nat) : Mailbox α :=
  ⟨capacity, [], true⟩

/-- A post succeeds: the receiving end exists and there is room. -/
def Accepts (mailbox : Mailbox α) : Prop :=
  mailbox.isOpen = true ∧ mailbox.items.length < mailbox.capacity

instance (mailbox : Mailbox α) : Decidable mailbox.Accepts :=
  inferInstanceAs (Decidable (_ ∧ _))

def post (mailbox : Mailbox α) (item : α) : Mailbox α :=
  if mailbox.Accepts then { mailbox with items := mailbox.items ++ [item] } else mailbox

def drop (mailbox : Mailbox α) : Mailbox α :=
  { mailbox with items := mailbox.items.tail }

/-- The receiving end goes away, and what it had not taken with it. -/
def close (mailbox : Mailbox α) : Mailbox α :=
  { mailbox with items := [], isOpen := false }

end Mailbox

end StationRelay
