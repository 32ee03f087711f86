import ScriptLexer.Toml.Value

namespace ScriptLexer.Toml

abbrev Reader (α : Type) := List Char → Except Fault (α × List Char)

def isBlank (c : Char) : Bool := c == ' ' || c == '\t'

def isBeyondAscii (c : Char) : Bool := 0x80 ≤ c.toNat

/-- Comments hold no control characters but the tab. -/
def isCommentCharacter (c : Char) : Bool :=
  c == '\t' || (0x20 ≤ c.toNat && c.toNat ≤ 0x7E) || isBeyondAscii c

def skipBlank (text : List Char) : List Char := text.dropWhile isBlank

def newLine? : List Char → Option (List Char)
  | '\n' :: text => some text
  | '\r' :: '\n' :: text => some text
  | _ => none

def skipComment : List Char → List Char
  | '#' :: text => text.dropWhile isCommentCharacter
  | text => text

def endLine (text : List Char) : Except Fault (List Char) :=
  match skipComment (skipBlank text) with
  | [] => .ok []
  | rest => (newLine? rest).elim (.error .lineEndExpected) .ok

/-- Skips blanks, line ends and whole comments; `commented` inside a comment. -/
def skipLines (commented : Bool) : List Char → List Char
  | [] => []
  | '\r' :: '\n' :: text => skipLines false text
  | '\n' :: text => skipLines false text
  | '#' :: text => skipLines true text
  | c :: text =>
      if isBlank c || (commented && isCommentCharacter c) then skipLines commented text
      else c :: text

def expect (wanted : Char) : List Char → Except Fault (List Char)
  | c :: text => if c = wanted then .ok text else .error (.expected wanted)
  | [] => .error (.expected wanted)

end ScriptLexer.Toml
