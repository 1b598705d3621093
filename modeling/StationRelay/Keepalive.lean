import StationRelay.Settings

/-!
# Pings and pongs

A keepalive waits for the time of the next ping, or for the answer to the last
one.  It only keeps the deadline; whoever owns it sends the ping and ends the
session when the answer is overdue.
-/

namespace StationRelay

inductive KeepaliveTimer where
  /-- A ping is to be sent. -/
  | ping
  /-- The answer to the last ping is overdue. -/
  | pongTimeout
  deriving DecidableEq

structure Keepalive where
  pingInterval : Duration
  pongTimeout : Duration
  /-- Nothing while it is stopped. -/
  pending : Option (Instant × KeepaliveTimer)
  deriving DecidableEq

namespace Keepalive

def stopped (pingInterval pongTimeout : Duration) : Keepalive :=
  ⟨pingInterval, pongTimeout, none⟩

/-- The next ping is due one interval from now. -/
def start (keepalive : Keepalive) (now : Instant) : Keepalive :=
  { keepalive with pending := some (now + keepalive.pingInterval, .ping) }

def stop (keepalive : Keepalive) : Keepalive :=
  { keepalive with pending := none }

def IsRunning (keepalive : Keepalive) : Prop :=
  keepalive.pending.isSome = true

instance (keepalive : Keepalive) : Decidable keepalive.IsRunning :=
  inferInstanceAs (Decidable (_ = true))

/-- A ping went out now: its answer is due one timeout from now. -/
def pingSent (keepalive : Keepalive) (now : Instant) : Keepalive :=
  { keepalive with pending := some (now + keepalive.pongTimeout, .pongTimeout) }

/-- A pong came in now.  One that nobody asked for changes nothing. -/
def pongReceived (keepalive : Keepalive) (now : Instant) : Keepalive :=
  match keepalive.pending with
  | some (_, .pongTimeout) => keepalive.start now
  | _ => keepalive

end Keepalive

end StationRelay
