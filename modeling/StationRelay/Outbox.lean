/-!
# Messages that wait to be sent

An outbox keeps messages in the order they were put in.  The first one is the
one being sent; it leaves when it has been sent.
-/

namespace StationRelay

structure Outbox (α : Type) where
  waiting : List α
  deriving DecidableEq

namespace Outbox

variable {α : Type}

def empty : Outbox α := ⟨[]⟩

/-- Puts a message behind the others, and tells whether it is the only one. -/
def push (outbox : Outbox α) (message : α) : Outbox α × Bool :=
  (⟨outbox.waiting ++ [message]⟩, outbox.waiting.isEmpty)

def head? (outbox : Outbox α) : Option α :=
  outbox.waiting.head?

/-- Takes out the message that was sent; the next one is at the head. -/
def complete (outbox : Outbox α) : Outbox α :=
  ⟨outbox.waiting.tail⟩

def size (outbox : Outbox α) : Nat :=
  outbox.waiting.length

def isEmpty (outbox : Outbox α) : Bool :=
  outbox.waiting.isEmpty

end Outbox

end StationRelay
