import StationRelay.Toml.Date
import StationRelay.Toml.Number
import StationRelay.Toml.Table
import StationRelay.Toml.Text

/-!
# Keys and values

A key is bare or quoted; keys with points between them lead through tables.
Arrays may run over lines and end with a comma; a table between braces stands
on one line and does not.  Both nest to a limited depth, and a key has a
limited number of parts.
-/

namespace StationRelay

namespace Toml

/-- One more than the greatest depth of arrays and tables in each other, and than the greatest
number of parts of a key. -/
def nestingBound : Nat := 80

def isBareKeyChar (c : Char) : Bool :=
  c.isAlphanum || c = '_' || c = '-'

def keyPart? (text : List Char) : Option (String × List Char) :=
  match text with
  | '"' :: rest => (basic? rest).map fun (chars, after) => (String.ofList chars, after)
  | '\'' :: rest => (literal? rest).map fun (chars, after) => (String.ofList chars, after)
  | _ =>
    let chars := text.takeWhile isBareKeyChar
    if chars.isEmpty then none
    else some (String.ofList chars, text.dropWhile isBareKeyChar)

/-- The parts of a key with points between them, at most so many, and what follows the blanks
behind them. -/
def keyParts? : Nat → List Char → Option (List String × List Char)
  | 0, _ => none
  | bound + 1, text => do
    let (part, after) ← keyPart? (skipBlanks text)
    match skipBlanks after with
    | '.' :: rest =>
      let (parts, rest) ← keyParts? bound rest
      return (part :: parts, rest)
    | rest => return ([part], rest)

def key? (text : List Char) : Option (List String × List Char) :=
  keyParts? (nestingBound - 1) text

abbrev ValueReader := List Char → Option (Toml × List Char)

/-- The items of an array up to its end; the opening bracket is gone already. -/
def items? (value? : ValueReader) (text : List Char) : Option (List Toml × List Char) := do
  let start ← skipLines? text
  match start with
  | ']' :: rest => return ([], rest)
  | _ =>
    let (item, after) ← value? start
    match ← skipLines? after with
    | ']' :: rest => return ([item], rest)
    | ',' :: rest =>
      if rest.length < text.length then
        let (others, rest) ← items? value? rest
        return (item :: others, rest)
      else none
    | _ => none
termination_by text.length

/-- A key, the sign of equality and a value, with the blanks behind it. -/
def assignment? (value? : ValueReader) (text : List Char) :
    Option ((List String × Toml) × List Char) := do
  let (path, after) ← key? text
  match after with
  | '=' :: rest =>
    let (value, rest) ← value? (skipBlanks rest)
    return ((path, value), skipBlanks rest)
  | _ => none

/-- The assignments of a table between braces, of which there is at least one, up to its end. -/
def assignments? (value? : ValueReader) (text : List Char) :
    Option (List (List String × Toml) × List Char) := do
  let (first, after) ← assignment? value? text
  match after with
  | '\x7d' :: rest => return ([first], rest)
  | ',' :: rest =>
    if rest.length < text.length then
      let (others, rest) ← assignments? value? rest
      return (first :: others, rest)
    else none
  | _ => none
termination_by text.length

/-- A table between braces; the opening brace is gone already. -/
def inlineTable? (value? : ValueReader) (text : List Char) : Option (Toml × List Char) := do
  match skipBlanks text with
  | '\x7d' :: rest => return (.table [], rest)
  | _ =>
    let (assigned, rest) ← assignments? value? text
    let body ← Body.assignAll? assigned []
    return (Body.toTable body, rest)

def scalar? (text : List Char) : Option (Toml × List Char) :=
  match text with
  | '"' :: _ | '\'' :: _ =>
    (string? text).map fun (chars, rest) => (.string (String.ofList chars), rest)
  | 't' :: 'r' :: 'u' :: 'e' :: rest => some (.boolean true, rest)
  | 'f' :: 'a' :: 'l' :: 's' :: 'e' :: rest => some (.boolean false, rest)
  | _ =>
    match skipDate? text with
    | some rest => some (.date, rest)
    | none =>
      match skipFloat? text with
      | some rest => some (.float, rest)
      | none => (integer? text).map fun (value, rest) => (.integer value, rest)

/-- A value in which arrays and tables nest to the given depth at most, and what follows it. -/
def valueWithin? : Nat → ValueReader
  | 0, text => scalar? text
  | depth + 1, text =>
    match text with
    | '[' :: rest =>
      (items? (valueWithin? depth) rest).map fun (items, after) => (.array items, after)
    | '\x7b' :: rest => inlineTable? (valueWithin? depth) rest
    | _ => scalar? text

def value? : ValueReader :=
  valueWithin? (nestingBound - 1)

end Toml

end StationRelay
