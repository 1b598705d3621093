import StationRelay.Address

/-!
# Reading addresses

Four bytes are read in decimal without zeros in front.  Eight groups are read
in hexadecimal with up to four digits each; two colons in a row stand for as
many zero groups as are missing, at least one, and the last two groups may be
written as four bytes.
-/

namespace StationRelay

namespace Address

/-- The number in front, which has at least one digit and at most so many, and what follows. -/
def number? (base maxDigits : Nat) (text : List Char) : Option (Nat × List Char) :=
  let isDigit (c : Char) : Bool := (Hex.value? c).any (· < base)
  let digits := text.takeWhile isDigit
  if digits.isEmpty || maxDigits < digits.length then none
  else
    some (digits.foldl (fun n c => base * n + (Hex.value? c).getD 0) 0, text.dropWhile isDigit)

def byte? (text : List Char) : Option (UInt8 × List Char) :=
  match number? 10 3 text with
  | some (n, rest) =>
    let length := text.length - rest.length
    if 255 < n ∨ (text.head? = some '0' ∧ 1 < length) then none else some (UInt8.ofNat n, rest)
  | none => none

def group? (text : List Char) : Option (UInt16 × List Char) :=
  (number? 16 4 text).map fun (n, rest) => (UInt16.ofNat n, rest)

def skip? (c : Char) : List Char → Option (List Char)
  | head :: rest => if head = c then some rest else none
  | [] => none

def short? (text : List Char) : Option (Address4 × List Char) := do
  let (a, text) ← byte? text
  let (b, text) ← byte? (← skip? '.' text)
  let (c, text) ← byte? (← skip? '.' text)
  let (d, text) ← byte? (← skip? '.' text)
  return (⟨a, b, c, d⟩, text)

/-- What follows the colon in front of every group but the first. -/
def afterColon? (isFirst : Bool) (text : List Char) : Option (List Char) :=
  if isFirst then some text else skip? ':' text

/-- The groups with colons between them, at most so many; whether they end with four bytes; and
what follows. -/
def groups : Nat → Bool → List Char → List UInt16 × Bool × List Char
  | 0, _, text => ([], false, text)
  | room + 1, isFirst, text =>
    match if 0 < room then afterColon? isFirst text >>= short? else none with
    | some (address, rest) => (address.groups, true, rest)
    | none =>
      match afterColon? isFirst text >>= group? with
      | some (group, rest) =>
        let (others, isShort, rest) := groups room false rest
        (group :: others, isShort, rest)
      | none => ([], false, text)

def ofGroups? (groups : List UInt16) : Option Address6 :=
  if h : groups.length = 8 then some ⟨groups, h⟩ else none

/-- Eight groups, with zero groups left out or not. -/
def long? (text : List Char) : Option (Address6 × List Char) := do
  let (front, isShort, rest) := groups 8 true text
  if front.length = 8 then
    let address ← ofGroups? front
    return (address, rest)
  else if isShort then none
  else
    let rest ← skip? ':' rest >>= skip? ':'
    let (back, _, rest) := groups (7 - front.length) true rest
    let missing := 8 - front.length - back.length
    let address ← ofGroups? (front ++ List.replicate missing 0 ++ back)
    return (address, rest)

def ofText? (text : String) : Option Address :=
  match short? text.toList with
  | some (address, []) => some (.v4 address)
  | some _ => none
  | none =>
    match long? text.toList with
    | some (address, []) => some (.v6 address)
    | _ => none

end Address

end StationRelay
