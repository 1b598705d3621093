import StationRelay.Json.Reader
import StationRelay.Station

/-!
# Requests of a browser

A request is a JSON object with an `id`; request 0 also names stations in
`stationIds`.  An array of the two values in this order is read like the object.
Other members are skipped whatever they hold.  Of the listed stations only the
plain integer literals from 0 to 255 are kept.
-/

namespace StationRelay

inductive Request where
  /-- Which stations are connected? -/
  | stations
  /-- Ask these stations for a reading. -/
  | readings (stationIds : List UInt8)
  deriving DecidableEq

/-- Why a payload is no request. -/
inductive RequestError where
  | notJson
  | unknownId (id : Nat)
  | missingStations
  deriving DecidableEq

namespace RequestError

/-- What is said of the error; a text that is no JSON request is not described further. -/
def message? : RequestError → Option String
  | .notJson => none
  | .unknownId id => some s!"unknown request id {id}"
  | .missingStations => some "request 0 is missing field `stationIds`"

end RequestError

namespace Request

structure Fields where
  id : Nat
  stationIds : Option (List Json)

/-- Levels of nesting allowed in an entry of `stationIds`. -/
def entryDepth : Nat := 125

/-- An id is a plain literal of at most 64 bits. -/
def id? : Json → Option Nat
  | .number literal => literal.word?
  | _ => none

def entries? : Json → Option (Option (List Json))
  | .null => some none
  | .array items => if Json.holdsItems entryDepth items then some (some items) else none
  | _ => none

def valuesOf (name : String) (members : List (List Json.Piece × Json)) : List Json :=
  members.filterMap fun (key, value) =>
    if Json.text? key = some name then some value else none

/-- The fields of an object: every name is a text, one `id`, and at most one `stationIds`. -/
def Fields.ofMembers? (members : List (List Json.Piece × Json)) : Option Fields :=
  if members.all fun (key, _) => (Json.text? key).isSome then
    match valuesOf "id" members, valuesOf "stationIds" members with
    | [id], [] => (id? id).map (⟨·, none⟩)
    | [id], [entries] => do
      let id ← id? id
      let stationIds ← entries? entries
      return ⟨id, stationIds⟩
    | _, _ => none
  else none

/-- The fields of an object, or of an array that holds exactly the two of them. -/
def Fields.ofJson? : Json → Option Fields
  | .object members => Fields.ofMembers? members
  | .array [id, entries] => do
    let id ← id? id
    let stationIds ← entries? entries
    return ⟨id, stationIds⟩
  | _ => none

def stationByte? : Json → Option UInt8
  | .number literal => literal.byte?
  | _ => none

def ofFields (fields : Fields) : Except RequestError Request :=
  if fields.id = 1 then .ok .stations
  else if fields.id = 0 then
    match fields.stationIds with
    | some entries => .ok (.readings (entries.filterMap stationByte?))
    | none => .error .missingStations
  else .error (.unknownId fields.id)

def parse (payload : Bytes) : Except RequestError Request :=
  match Json.read? payload >>= Fields.ofJson? with
  | none => .error .notJson
  | some fields => ofFields fields

end Request

namespace Station

def ofJson? (text : Bytes) : Option Station := do
  let value ← Json.read? text
  let raw ← Request.stationByte? value
  ofByte? raw

end Station

end StationRelay
