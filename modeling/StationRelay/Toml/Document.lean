import StationRelay.Toml.Value

/-!
# Documents

A document is a sequence of lines, each of which is empty, assigns a value to a
key, or is a header that says into which table the following keys go.  A byte
order mark may stand in front.  `ofText?` gives the entries of the whole.
-/

namespace StationRelay

namespace Toml

inductive Line where
  | assign (path : List String) (value : Toml)
  | header (isDouble : Bool) (path : List String)

def header? : List Char → Option (Line × List Char)
  | '[' :: '[' :: rest => do
    let (path, after) ← key? rest
    match after with
    | ']' :: ']' :: rest => return (.header true path, ← skipLineEnd? rest)
    | _ => none
  | '[' :: rest => do
    let (path, after) ← key? rest
    match after with
    | ']' :: rest => return (.header false path, ← skipLineEnd? rest)
    | _ => none
  | _ => none

def line? (text : List Char) : Option (Line × List Char) :=
  match text with
  | '[' :: _ => header? text
  | _ => do
    let ((path, value), rest) ← assignment? value? text
    return (.assign path value, ← skipLineEnd? rest)

def lines? (text : List Char) : Option (List Line) :=
  match skipLines? text with
  | none => none
  | some [] => some []
  | some start =>
    match line? start with
    | none => none
    | some (line, rest) =>
      if rest.length < text.length then (lines? rest).map (line :: ·) else none
termination_by text.length

/-- What is assigned between two headers. -/
abbrev Assignments := List (List String × Toml)

/-- The assignments in front of the first header, and each header with those behind it. -/
def sections : List Line → Assignments × List ((Bool × List String) × Assignments)
  | [] => ([], [])
  | .assign path value :: rest =>
    let (own, later) := sections rest
    ((path, value) :: own, later)
  | .header isDouble path :: rest =>
    let (own, later) := sections rest
    ([], ((isDouble, path), own) :: later)

/-- Builds the tables of the sections in order. -/
def openAll? : List ((Bool × List String) × Assignments) → Body → Option Body
  | [], body => some body
  | ((isDouble, path), assigned) :: rest, body =>
    (Body.openTable? isDouble (Body.assignAll? assigned) path body).bind (openAll? rest)

def withoutMark : List Char → List Char
  | '\ufeff' :: rest => rest
  | text => text

def ofText? (text : String) : Option (List (String × Toml)) := do
  let lines ← lines? (withoutMark text.toList)
  let (top, later) := sections lines
  let body ← Body.assignAll? top [] >>= openAll? later
  return entriesOf body

end Toml

end StationRelay
