/-! The lexical error codes: their numbers, the labels built from them, and their messages. -/

namespace ScriptLexer

inductive ErrorCode
  | unexpectedToken
  | unsupportedPunctuator
  | unterminatedStringLiteral
  | unterminatedComment
  | octalLiteralsNotSupported
  | hexadecimalDigitExpected
  | unicodeValueOutOfRange
  | unterminatedUnicodeEscapeSequence
  | numericSeparatorNotAllowed
  | multipleNumericSeparatorsNotAllowed
  deriving DecidableEq, Repr

namespace ErrorCode

def all : List ErrorCode :=
  [unexpectedToken, unsupportedPunctuator, unterminatedStringLiteral, unterminatedComment,
    octalLiteralsNotSupported, hexadecimalDigitExpected, unicodeValueOutOfRange,
    unterminatedUnicodeEscapeSequence, numericSeparatorNotAllowed,
    multipleNumericSeparatorsNotAllowed]

def number : ErrorCode → Nat
  | unexpectedToken => 1
  | unsupportedPunctuator => 900
  | unterminatedStringLiteral => 1002
  | unterminatedComment => 1010
  | octalLiteralsNotSupported => 1121
  | hexadecimalDigitExpected => 1125
  | unicodeValueOutOfRange => 1198
  | unterminatedUnicodeEscapeSequence => 1199
  | numericSeparatorNotAllowed => 6188
  | multipleNumericSeparatorsNotAllowed => 6189

def name : ErrorCode → String
  | unexpectedToken => "UnexpectedToken"
  | unsupportedPunctuator => "UnsupportedPunctuator"
  | unterminatedStringLiteral => "UnterminatedStringLiteral"
  | unterminatedComment => "UnterminatedComment"
  | octalLiteralsNotSupported => "OctalLiteralsNotSupported"
  | hexadecimalDigitExpected => "HexadecimalDigitExpected"
  | unicodeValueOutOfRange => "UnicodeValueOutOfRange"
  | unterminatedUnicodeEscapeSequence => "UnterminatedUnicodeEscapeSequence"
  | numericSeparatorNotAllowed => "NumericSeparatorNotAllowed"
  | multipleNumericSeparatorsNotAllowed => "MultipleNumericSeparatorsNotAllowed"

def message : ErrorCode → String
  | unexpectedToken => "Unexpected token"
  | unsupportedPunctuator => "Unsupported punctuator"
  | unterminatedStringLiteral => "Unterminated string literal."
  | unterminatedComment => "'*/' expected."
  | octalLiteralsNotSupported => "Octal literals are not supported"
  | hexadecimalDigitExpected => "Hexadecimal digit expected."
  | unicodeValueOutOfRange =>
      "An extended Unicode escape value must be between 0x0 and 0x10FFFF inclusive."
  | unterminatedUnicodeEscapeSequence => "Unterminated Unicode escape sequence"
  | numericSeparatorNotAllowed => "Numeric separators are not allowed here."
  | multipleNumericSeparatorsNotAllowed =>
      "Multiple consecutive numeric separators are not permitted."

def labelStart : String := "TS"

def label (code : ErrorCode) : String := labelStart ++ toString code.number

def ofNumber? (number : Nat) : Option ErrorCode := all.find? fun code => code.number == number

theorem mem_all (code : ErrorCode) : code ∈ all := by cases code <;> decide

theorem ofNumber?_number (code : ErrorCode) : ofNumber? code.number = some code := by
  cases code <;> rfl

theorem number_of_ofNumber? (number : Nat) (code : ErrorCode)
    (found : ofNumber? number = some code) : code.number = number := by
  simpa using List.find?_some found

end ErrorCode
end ScriptLexer
