import StationRelay.Bytes.Hex
import StationRelay.Toml.Blank

/-!
# Strings

A string stands between quotes, of one kind or of two: between double quotes a
backslash begins an escape, between single quotes it means itself.  A string
between single quotes or single double quotes ends on its line; one between
three may hold ends of lines, and up to two quotes of its own right before the
closing three.  An end of line is one line feed, however it was written.
-/

namespace StationRelay

namespace Toml

def isBasicChar (c : Char) : Bool :=
  isCommentChar c && c ≠ '"' && c ≠ '\\'

/-- A character that stands for itself between single quotes. -/
def isLiteralChar (c : Char) : Bool :=
  isCommentChar c && c ≠ '\''

/-- The character whose number has exactly these hexadecimal digits. -/
def codePoint? (count : Nat) (digits : List Char) : Option Char := do
  let values ← digits.mapM Hex.value?
  let code := values.foldl (fun n d => 16 * n + d) 0
  if digits.length = count ∧ code.isValidChar then some (Char.ofNat code) else none

/-- The character that an escape stands for, and what follows; the backslash is gone already. -/
def escape? : List Char → Option (Char × List Char)
  | 'b' :: rest => some ('\x08', rest)
  | 't' :: rest => some ('\t', rest)
  | 'n' :: rest => some ('\n', rest)
  | 'f' :: rest => some ('\x0c', rest)
  | 'r' :: rest => some ('\r', rest)
  | '"' :: rest => some ('"', rest)
  | '\\' :: rest => some ('\\', rest)
  | 'u' :: rest => (codePoint? 4 (rest.take 4)).map fun c => (c, rest.drop 4)
  | 'U' :: rest => (codePoint? 8 (rest.take 8)).map fun c => (c, rest.drop 8)
  | _ => none

theorem escape?_lt {text rest : List Char} {c : Char} (h : escape? text = some (c, rest)) :
    rest.length < text.length := by
  unfold escape? at h
  split at h
  case h_8 tail =>
    obtain ⟨_, _, eq⟩ := Option.map_eq_some_iff.mp h
    cases eq
    simp only [List.length_drop, List.length_cons]
    omega
  case h_9 tail =>
    obtain ⟨_, _, eq⟩ := Option.map_eq_some_iff.mp h
    cases eq
    simp only [List.length_drop, List.length_cons]
    omega
  case h_10 => cases h
  all_goals
    cases h
    simp

/-- A string and what follows it, with one character put in front of the string. -/
def prepend (c : Char) : List Char × List Char → List Char × List Char
  | (text, rest) => (c :: text, rest)

def basic? (text : List Char) : Option (List Char × List Char) :=
  match text with
  | [] => none
  | '"' :: rest => some ([], rest)
  | '\\' :: rest =>
    match found : escape? rest with
    | none => none
    | some (c, after) =>
      have _shorter := escape?_lt found
      (basic? after).map (prepend c)
  | c :: rest => if isBasicChar c then (basic? rest).map (prepend c) else none
termination_by text.length
decreasing_by
  · simp only [List.length_cons]; omega
  · simp

def literal? : List Char → Option (List Char × List Char)
  | [] => none
  | '\'' :: rest => some ([], rest)
  | c :: rest => if isLiteralChar c then (literal? rest).map (prepend c) else none

/-- Where a string between three quotes ends: the quotes of its own in front of the closing three,
and what follows those. -/
def closing? (quote : Char) (text : List Char) : Option (List Char × List Char) :=
  let run := text.takeWhile (· = quote)
  if run.length < 3 then none
  else
    let own := min (run.length - 3) 2
    some (run.take own, text.drop (own + 3))

def skipBlankLines : List Char → List Char
  | '\n' :: rest => skipBlankLines rest
  | '\r' :: '\n' :: rest => skipBlankLines rest
  | c :: rest => if isBlank c then skipBlankLines rest else c :: rest
  | [] => []

theorem length_skipBlankLines_le (text : List Char) :
    (skipBlankLines text).length ≤ text.length := by
  fun_induction skipBlankLines text <;> simp_all <;> omega

/-- What follows a backslash at the end of its line: the end, and the blanks and ends of lines
behind it, are left out. -/
def skipEscapedNewline? (text : List Char) : Option (List Char) :=
  (skipNewline? (skipBlanks text)).map skipBlankLines

theorem skipEscapedNewline?_lt {text rest : List Char}
    (h : skipEscapedNewline? text = some rest) : rest.length < text.length := by
  unfold skipEscapedNewline? at h
  obtain ⟨line, newline, eq⟩ := Option.map_eq_some_iff.mp h
  have blanks : (skipBlanks text).length ≤ text.length :=
    (List.dropWhile_suffix isBlank).length_le
  have lines := length_skipBlankLines_le line
  subst eq
  unfold skipNewline? at newline
  split at newline
  · rename_i found
    cases newline
    rw [found] at blanks
    simp only [List.length_cons] at blanks
    omega
  · rename_i found
    cases newline
    rw [found] at blanks
    simp only [List.length_cons] at blanks
    omega
  · cases newline

def multilineBasic? (text : List Char) : Option (List Char × List Char) :=
  match closing? '"' text with
  | some ended => some ended
  | none =>
    match text with
    | [] => none
    | '"' :: rest => (multilineBasic? rest).map (prepend '"')
    | '\n' :: rest => (multilineBasic? rest).map (prepend '\n')
    | '\r' :: '\n' :: rest => (multilineBasic? rest).map (prepend '\n')
    | '\\' :: rest =>
      match line : skipEscapedNewline? rest with
      | some after =>
        have _shorter := skipEscapedNewline?_lt line
        multilineBasic? after
      | none =>
        match found : escape? rest with
        | none => none
        | some (c, after) =>
          have _shorter := escape?_lt found
          (multilineBasic? after).map (prepend c)
    | c :: rest => if isBasicChar c then (multilineBasic? rest).map (prepend c) else none
termination_by text.length
decreasing_by
  all_goals
    simp only [List.length_cons]
    omega

def multilineLiteral? (text : List Char) : Option (List Char × List Char) :=
  match closing? '\'' text with
  | some ended => some ended
  | none =>
    match text with
    | [] => none
    | '\'' :: rest => (multilineLiteral? rest).map (prepend '\'')
    | '\n' :: rest => (multilineLiteral? rest).map (prepend '\n')
    | '\r' :: '\n' :: rest => (multilineLiteral? rest).map (prepend '\n')
    | c :: rest => if isLiteralChar c then (multilineLiteral? rest).map (prepend c) else none

def trimNewline (text : List Char) : List Char :=
  (skipNewline? text).getD text

def string? : List Char → Option (List Char × List Char)
  | '"' :: '"' :: '"' :: rest => multilineBasic? (trimNewline rest)
  | '"' :: rest => basic? rest
  | '\'' :: '\'' :: '\'' :: rest => multilineLiteral? (trimNewline rest)
  | '\'' :: rest => literal? rest
  | _ => none

end Toml

end StationRelay
