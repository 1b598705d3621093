/-!
# Time and the limits of a session

Time is counted in whole milliseconds from an arbitrary origin.  A duration is
told in seconds from one second on, with the digits of the milliseconds it
needs, and in milliseconds below.

The settings are the limits that every session keeps: six durations, the longest
payload of a request, and the capacity of the queue through which other sessions
reach it.
-/

namespace StationRelay

/-- Milliseconds since the origin. -/
abbrev Instant := Nat

abbrev Duration := Nat

namespace Duration

/-- The three digits of a number of milliseconds below a second, without the zeros at their end. -/
def fractionChars (millis : Nat) : List Char :=
  let digits := [millis / 100, millis / 10 % 10, millis % 10]
  let kept := (digits.reverse.dropWhile (· = 0)).reverse
  kept.map fun d => Char.ofNat (48 + d)

def toText (duration : Duration) : String :=
  if duration = 0 then "0ns"
  else if duration < 1000 then toString duration ++ "ms"
  else
    let fraction := fractionChars (duration % 1000)
    toString (duration / 1000)
      ++ (if fraction.isEmpty then "" else "." ++ String.ofList fraction) ++ "s"

end Duration

structure Settings where
  /-- A device must be accepted within this time. -/
  handshakeTimeout : Duration := 30000
  /-- An accepted device, or a started request, must be heard from within this time. -/
  readTimeout : Duration := 30000
  writeTimeout : Duration := 30000
  /-- A peer that is quiet is pinged after this time. -/
  pingInterval : Duration := 10000
  /-- A ping must be answered within this time. -/
  pongTimeout : Duration := 10000
  /-- A browser must complete its upgrade within this time. -/
  upgradeTimeout : Duration := 30000
  maxPayload : Nat := 4096
  queueCapacity : Nat := 64
  deriving DecidableEq

end StationRelay
