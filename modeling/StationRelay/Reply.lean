import StationRelay.Json.Writer
import StationRelay.Station

/-!
# Replies to a browser

A reply is one JSON object.  The answer to request 1 lists stations by number
and name; a reading is told under id 0.
-/

namespace StationRelay

/-- A connected station as a browser is told it. -/
structure StationEntry where
  stationId : UInt8
  name : String
  deriving DecidableEq

inductive Reply where
  | stations (entries : List StationEntry)
  | reading (reading : Reading)
  deriving DecidableEq

namespace StationEntry

def toChars (entry : StationEntry) : List Char :=
  Json.objectChars
    [ ("stationId", Json.natChars entry.stationId.toNat),
      ("stationName", Json.quote entry.name) ]

end StationEntry

namespace Reply

def toChars : Reply → List Char
  | .stations entries =>
    Json.objectChars
      [ ("id", Json.natChars 1),
        ("stations", Json.arrayChars (entries.map StationEntry.toChars)) ]
  | .reading told =>
    Json.objectChars
      [ ("id", Json.natChars 0),
        ("stationId", Json.natChars told.station.toByte.toNat),
        ("temperature", Json.wordChars told.temperature),
        ("humidity", Json.wordChars told.humidity),
        ("time", Json.natChars told.time.toNat) ]

def toText (reply : Reply) : String :=
  String.ofList reply.toChars

end Reply

end StationRelay
