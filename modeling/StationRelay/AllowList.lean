import StationRelay.Station
import StationRelay.Uuid

/-!
# Directories and allow lists

A directory tells which devices may connect and what the stations are called.
An allow list is a directory made from configuration: the registered devices,
each once, and the names given to stations.  A station without a given name
has its default name; of two names for one station the later one counts.
-/

namespace StationRelay

structure Directory where
  isRegistered : Uuid → Bool
  stationName : Station → String

structure AllowList where
  devices : List Uuid
  names : PerStation (Option String)

namespace AllowList

/-- Adds a device, unless it is there. -/
def addDevice (devices : List Uuid) (device : Uuid) : List Uuid :=
  if device ∈ devices then devices else devices ++ [device]

def ofEntries (devices : List Uuid) (names : List (Station × String)) : AllowList where
  devices := devices.foldl addDevice []
  names := names.foldl (fun table (station, name) => table.set station (some name))
    (PerStation.const none)

def deviceCount (list : AllowList) : Nat :=
  list.devices.length

def directory (list : AllowList) : Directory where
  isRegistered device := decide (device ∈ list.devices)
  stationName station := (list.names.get station).getD station.defaultName

end AllowList

end StationRelay
