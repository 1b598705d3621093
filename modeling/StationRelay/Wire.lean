import StationRelay.SessionError

/-!
# Wires

A wire joins a peer to its session.  It holds what the peer has sent and the
session has not yet read, and says whether reads and writes succeed at the
moment.  What was sent before the end of the stream or before a fault is read
first.
-/

namespace StationRelay

structure Wire (α : Type) where
  /-- What was sent and not yet read, oldest first. -/
  incoming : List α := []
  /-- The peer sends nothing more. -/
  isOver : Bool := false
  readFault : Option TransportFault := none
  writeFault : Option TransportFault := none
  /-- Writes wait. -/
  isStalled : Bool := false
  deriving DecidableEq

inductive WriteState where
  | free
  | blocked
  | failing (fault : TransportFault)
  deriving DecidableEq

inductive Notice (α : Type) where
  /-- The peer got this. -/
  | got (item : α)
  /-- The stream to the peer ended. -/
  | closed
  | ended (outcome : Outcome)
  deriving DecidableEq

namespace Notice

variable {α β : Type}

def map (f : α → β) : Notice α → Notice β
  | .got item => .got (f item)
  | .closed => .closed
  | .ended outcome => .ended outcome

/-- What is seen when a session ends: the stream ends first. -/
def ofOutcome : Option Outcome → List (Notice α)
  | some outcome => [.closed, .ended outcome]
  | none => []

end Notice

namespace Wire

variable {α : Type}

def writeState (wire : Wire α) : WriteState :=
  match wire.writeFault with
  | some fault => .failing fault
  | none => if wire.isStalled then .blocked else .free

def send (wire : Wire α) (items : List α) : Wire α :=
  { wire with incoming := wire.incoming ++ items }

def drop (wire : Wire α) (count : Nat) : Wire α :=
  { wire with incoming := wire.incoming.drop count }

end Wire

end StationRelay
