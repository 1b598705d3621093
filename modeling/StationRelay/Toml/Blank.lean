/-!
# What stands between the values of a document

Within a line only spaces and tabs are blank.  Inside an array the ends of
lines are blank too, and comments may stand before them.
-/

namespace StationRelay

namespace Toml

def isBlank (c : Char) : Bool :=
  c = ' ' || c = '\t'

def isCommentChar (c : Char) : Bool :=
  c = '\t' || (' ' ≤ c && c ≤ '~') || '\x80' ≤ c

def skipBlanks (text : List Char) : List Char :=
  text.dropWhile isBlank

def skipNewline? : List Char → Option (List Char)
  | '\n' :: rest => some rest
  | '\r' :: '\n' :: rest => some rest
  | _ => none

def skipComment : List Char → List Char
  | '#' :: rest => rest.dropWhile isCommentChar
  | text => text

/-- What follows the rest of a line, in which only a comment may still stand.  The end of the text
ends a line too. -/
def skipLineEnd? (text : List Char) : Option (List Char) :=
  match skipComment (skipBlanks text) with
  | [] => some []
  | rest => skipNewline? rest

mutual

/-- What follows the blanks, ends of lines and comments in front. -/
def skipLines? : List Char → Option (List Char)
  | [] => some []
  | '\n' :: rest => skipLines? rest
  | '\r' :: '\n' :: rest => skipLines? rest
  | '\r' :: _ => none
  | '#' :: rest => skipCommentLine? rest
  | c :: rest => if isBlank c then skipLines? rest else some (c :: rest)

/-- The same from inside a comment, which ends with its line. -/
def skipCommentLine? : List Char → Option (List Char)
  | [] => some []
  | '\n' :: rest => skipLines? rest
  | '\r' :: '\n' :: rest => skipLines? rest
  | c :: rest => if isCommentChar c then skipCommentLine? rest else none

end

end Toml

end StationRelay
