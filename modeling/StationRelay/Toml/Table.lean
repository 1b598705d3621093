/-!
# Tables and what they hold

A value keeps what a configuration may ask of it.  Nothing asks what a float or
a date says, so of those only the kind is kept.  A table keeps its entries in
the order they were written; no key stands in it twice.

A document builds its tables piece by piece.  What may still be added to a
table depends on how it came into being, so while a document is read each table
remembers that.  A table that a header named is complete with its section; one
that was only passed on the way to another may still get its own header; one
that the points of a key made grows by such keys only.
-/

namespace StationRelay

inductive Toml where
  | string (text : String)
  | integer (value : Int)
  | float
  | boolean (value : Bool)
  | date
  | array (items : List Toml)
  | table (entries : List (String × Toml))

namespace Toml

/-- How a table came into being. -/
inductive Origin where
  /-- A header named it. -/
  | header
  /-- A header passed through it. -/
  | passed
  /-- The points of a key made it. -/
  | dotted
  deriving DecidableEq

inductive Entry where
  /-- A value, to which nothing can be added. -/
  | value (content : Toml)
  | table (origin : Origin) (body : List (String × Entry))
  /-- Tables that headers in double brackets put one behind the other. -/
  | tables (bodies : List (List (String × Entry)))

abbrev Body := List (String × Entry)

mutual

/-- The value that an entry amounts to. -/
def Entry.toToml : Entry → Toml
  | .value content => content
  | .table _ body => .table (entriesOf body)
  | .tables bodies => .array (tablesOf bodies)

def entriesOf : List (String × Entry) → List (String × Toml)
  | [] => []
  | (key, entry) :: rest => (key, entry.toToml) :: entriesOf rest

def tablesOf : List (List (String × Entry)) → List Toml
  | [] => []
  | body :: rest => .table (entriesOf body) :: tablesOf rest

end

namespace Body

def toTable (body : Body) : Toml :=
  .table (entriesOf body)

/-- Puts another entry under a key, at the end if the key is new. -/
def put (body : Body) (key : String) (entry : Entry) : Body :=
  if (body.lookup key).isSome then
    body.map fun (other, old) => if other = key then (other, entry) else (other, old)
  else body ++ [(key, entry)]

/-- Changes the last of some tables. -/
def updateLast? (change : Body → Option Body) : List Body → Option (List Body)
  | [] => none
  | [last] => (change last).map fun changed => [changed]
  | first :: rest => (updateLast? change rest).map fun changed => first :: changed

/-- Puts a value under a key that must be new.  The key's other parts lead to the table it goes
into; the last of them must name a table that the points of a key made. -/
def assign? (value : Toml) : List String → Body → Option Body
  | [], _ => none
  | [key], body => if (body.lookup key).isSome then none else some (body.put key (.value value))
  | part :: rest, body =>
    match body.lookup part with
    | none => (assign? value rest []).map fun made => body.put part (.table .dotted made)
    | some (.value _) => none
    | some (.table origin inner) =>
      if origin = .header ∨ (origin = .passed ∧ rest.length ≤ 1) then none
      else (assign? value rest inner).map fun changed => body.put part (.table origin changed)
    | some (.tables bodies) =>
      if rest.length ≤ 1 then none
      else (updateLast? (assign? value rest) bodies).map fun changed =>
        body.put part (.tables changed)

def assignAll? : List (List String × Toml) → Body → Option Body
  | [], body => some body
  | (path, value) :: rest, body => (assign? value path body).bind (assignAll? rest)

/-- Opens the table that a header names and fills it.  Double brackets open a new table behind
those of the same name; single brackets open a table that no header has named. -/
def openTable? (isDouble : Bool) (fill : Body → Option Body) : List String → Body → Option Body
  | [], _ => none
  | [key], body =>
    match body.lookup key with
    | none =>
      (fill []).map fun filled =>
        body.put key (if isDouble then .tables [filled] else .table .header filled)
    | some (.table .passed inner) =>
      if isDouble then none
      else (fill inner).map fun filled => body.put key (.table .header filled)
    | some (.tables bodies) =>
      if isDouble then (fill []).map fun filled => body.put key (.tables (bodies ++ [filled]))
      else none
    | some _ => none
  | part :: rest, body =>
    match body.lookup part with
    | none =>
      (openTable? isDouble fill rest []).map fun made => body.put part (.table .passed made)
    | some (.value _) => none
    | some (.table origin inner) =>
      (openTable? isDouble fill rest inner).map fun changed =>
        body.put part (.table origin changed)
    | some (.tables bodies) =>
      (updateLast? (openTable? isDouble fill rest) bodies).map fun changed =>
        body.put part (.tables changed)

end Body

end Toml

end StationRelay
