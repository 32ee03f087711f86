import ScriptLexer.Unicode.WhiteSpace

/-! Character classes of the source language. `CharClass` names them, `CharClass.holds` decides
them, and `CharClass.runs` lists the members of one between two code points. -/

namespace ScriptLexer

def byteOrderMark : Char := '\uFEFF'

def isWhitespace (c : Char) : Bool := Unicode.isWhiteSpace c || c == byteOrderMark

def isLineTerminator (c : Char) : Bool :=
  c == '\n' || c == '\r' || c == '\u2028' || c == '\u2029'

def isCommentStart (c : Char) : Bool := c == '/'

def isSign (c : Char) : Bool := c == '+' || c == '-'

def operatorStarts : List Char :=
  ['/', '+', '*', '%', '=', '!', '?', '&', '|', '~', '>', '<', '.', '^', '-']

def isOperatorStart (c : Char) : Bool := operatorStarts.contains c

def isDecimalDigit (c : Char) : Bool := c.isDigit

def isNumericSeparator (c : Char) : Bool := c == '_'

def isDigitOrSeparator (c : Char) : Bool := isDecimalDigit c || isNumericSeparator c

def isNumericRun (c : Char) : Bool := isDigitOrSeparator c || c == '.'

def isQuote (c : Char) : Bool := c == '\x22' || c == '\''

def isFormattingEscape (c : Char) : Bool := 0x8 ≤ c.toNat && c.toNat ≤ 0xD

def isNonFormattingEscape (c : Char) : Bool := isQuote c || c == '\\'

def isNonEscapeCharacter (c : Char) : Bool :=
  !(isNonFormattingEscape c || isFormattingEscape c || isLineTerminator c || c == 'u')

/-- A string body may hold raw line feeds and carriage returns, but no other line terminator. -/
def isStringCharacter (c : Char) : Bool := isFormattingEscape c || !isLineTerminator c

/-- Hexadecimal digits are upper case only. -/
def isHexDigit (c : Char) : Bool := isDecimalDigit c || ('A' ≤ c && c ≤ 'F')

def isIdentifierStart (c : Char) : Bool := c.isAlpha || c == '$' || c == '_'

def isIdentifierPart (c : Char) : Bool := isIdentifierStart c || isDecimalDigit c

inductive CharClass
  | whitespace | lineTerminator | operatorStart | commentStart | sign | decimalDigit
  | numericSeparator | digitOrSeparator | numericRun | quote | formattingEscape
  | nonFormattingEscape | nonEscapeCharacter | stringCharacter | hexDigit | identifierStart
  | identifierPart
  deriving DecidableEq, Repr

namespace CharClass

def all : List CharClass :=
  [whitespace, lineTerminator, operatorStart, commentStart, sign, decimalDigit, numericSeparator,
    digitOrSeparator, numericRun, quote, formattingEscape, nonFormattingEscape,
    nonEscapeCharacter, stringCharacter, hexDigit, identifierStart, identifierPart]

def name : CharClass → String
  | whitespace => "whitespace"
  | lineTerminator => "line_terminator"
  | operatorStart => "operator_start"
  | commentStart => "comment_start"
  | sign => "sign"
  | decimalDigit => "decimal_digit"
  | numericSeparator => "numeric_separator"
  | digitOrSeparator => "digit_or_separator"
  | numericRun => "numeric_run"
  | quote => "quote"
  | formattingEscape => "formatting_escape"
  | nonFormattingEscape => "non_formatting_escape"
  | nonEscapeCharacter => "non_escape_character"
  | stringCharacter => "string_character"
  | hexDigit => "hex_digit"
  | identifierStart => "identifier_start"
  | identifierPart => "identifier_part"

def ofName? (text : String) : Option CharClass := all.find? fun member => member.name == text

def holds : CharClass → Char → Bool
  | whitespace => isWhitespace
  | lineTerminator => isLineTerminator
  | operatorStart => isOperatorStart
  | commentStart => isCommentStart
  | sign => isSign
  | decimalDigit => isDecimalDigit
  | numericSeparator => isNumericSeparator
  | digitOrSeparator => isDigitOrSeparator
  | numericRun => isNumericRun
  | quote => isQuote
  | formattingEscape => isFormattingEscape
  | nonFormattingEscape => isNonFormattingEscape
  | nonEscapeCharacter => isNonEscapeCharacter
  | stringCharacter => isStringCharacter
  | hexDigit => isHexDigit
  | identifierStart => isIdentifierStart
  | identifierPart => isIdentifierPart

def holdsAt (member : CharClass) (point : Nat) : Bool :=
  if valid : point.isValidChar then member.holds (Char.ofNatAux point valid) else false

/-- Puts `point` in front of the runs above it, joining the first when it is adjacent. -/
def addBelow (point : Nat) : List (Nat × Nat) → List (Nat × Nat)
  | [] => [(point, point)]
  | (low, high) :: runs =>
      if low = point + 1 then (point, high) :: runs else (point, point) :: (low, high) :: runs

def runsOnto (member : CharClass) (first : Nat) : Nat → List (Nat × Nat) → List (Nat × Nat)
  | 0, runs => runs
  | count + 1, runs =>
      runsOnto member first count
        (if member.holdsAt (first + count) then addBelow (first + count) runs else runs)

def runs (member : CharClass) (first last : Nat) : List (Nat × Nat) :=
  member.runsOnto first (last + 1 - first) []

end CharClass

theorem isStringCharacter_iff (c : Char) :
    isStringCharacter c = true ↔ c ≠ '\u2028' ∧ c ≠ '\u2029' := by
  by_cases feed : c = '\n'
  · subst feed; decide
  by_cases carriage : c = '\r'
  · subst carriage; decide
  by_cases separator : c = '\u2028'
  · subst separator; decide
  by_cases paragraph : c = '\u2029'
  · subst paragraph; decide
  simp [isStringCharacter, isLineTerminator, feed, carriage, separator, paragraph]

end ScriptLexer
