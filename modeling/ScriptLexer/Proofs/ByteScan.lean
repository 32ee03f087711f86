import ScriptLexer.Lexer
import ScriptLexer.Proofs.ByteCursor

/-! The scanners over a byte cursor, each a sequence of moves and loops with the slices that its
tokens are cut out by. A scanner that meets a fault says on which line it stood. -/

namespace ScriptLexer

/-- A fault, and the line on which a scanner stood when it met it. -/
structure ScanFault where
  code : ErrorCode
  line : Nat
  deriving DecidableEq, Repr

abbrev Scanned (α : Type) := Except ScanFault α × ByteCursor

namespace ByteCursor

def done (cursor : ByteCursor) : Scanned Unit := (.ok (), cursor)

def fail {α : Type} (cursor : ByteCursor) (code : ErrorCode) : Scanned α :=
  (.error ⟨code, cursor.line⟩, cursor)

def word (cursor : ByteCursor) : Run (Scanned Token) := do
  let start := cursor.position
  let cursor ← cursor.advance
  let cursor ← cursor.advanceWhile isIdentifierPart
  return (.ok (Token.ofWord (← cursor.sliceFrom start)), cursor)

def structural (c : Char) (cursor : ByteCursor) : Run (Scanned Token) := do
  let cursor ← cursor.advance
  match Vocabulary.structuralKind? c with
  | some kind => return (.ok (Token.ofText kind [c]), cursor)
  | none => return cursor.fail .unexpectedToken

def lineComment (cursor : ByteCursor) : Run (Scanned Token) := do
  let start := cursor.position
  let cursor ← cursor.advanceBy 2
  let cursor ← cursor.advanceWhile fun c => !isLineTerminator c
  return (.ok (Token.ofText .singleLineComment (← cursor.sliceFrom start)), cursor)

def atClose (c : Char) (cursor : ByteCursor) : Run Bool :=
  if c == '*' then (· == some '/') <$> cursor.peekAt 1 else pure false

def passComment (cursor : ByteCursor) : Run (Scanned Unit) := do
  match ← cursor.current with
  | none => return cursor.fail .unterminatedComment
  | some c =>
      if ← atClose c cursor then return done (← cursor.advanceBy 2)
      else (← cursor.advance) |>.passComment
partial_fixpoint

def blockComment (cursor : ByteCursor) : Run (Scanned Token) := do
  let start := cursor.position
  match ← passComment (← cursor.advanceBy 2) with
  | (.ok (), cursor) =>
      return (.ok (Token.ofText .multiLineComment (← cursor.sliceFrom start)), cursor)
  | (.error fault, cursor) => return (.error fault, cursor)

/-- Reads digits and separators; `previous` is the one that was read last. -/
def digits (previous : Option Char) (cursor : ByteCursor) : Run (Scanned Unit) := do
  match (← cursor.current).filter isDigitOrSeparator with
  | some c =>
      if isNumericSeparator c && previous.any isNumericSeparator then
        return cursor.fail .multipleNumericSeparatorsNotAllowed
      else (← cursor.advance) |>.digits (some c)
  | none =>
      if previous.any isNumericSeparator then return cursor.fail .numericSeparatorNotAllowed
      else return cursor.done
partial_fixpoint

def fraction (cursor : ByteCursor) : Run (Scanned Unit) := do
  match ← cursor.current with
  | some c =>
      if isNumericSeparator c then return cursor.fail .numericSeparatorNotAllowed
      else if isDecimalDigit c then digits none cursor
      else return cursor.done
  | none => return cursor.done

def wholeDigits (cursor : ByteCursor) : Run (Scanned Unit) := do
  let (zero, cursor) ← cursor.expect '0'
  if zero then
    if (← cursor.current).any isDigitOrSeparator then return cursor.fail .octalLiteralsNotSupported
    else return cursor.done
  else digits none cursor

def numeral (cursor : ByteCursor) : Run (Scanned Unit) := do
  let (pointed, cursor) ← cursor.expect '.'
  if pointed then fraction cursor
  else
    match ← wholeDigits cursor with
    | (.error fault, cursor) => return (.error fault, cursor)
    | (.ok (), cursor) =>
        let (pointed, cursor) ← cursor.expect '.'
        if pointed then fraction cursor else return cursor.done

def passSign (cursor : ByteCursor) : Run ByteCursor := do
  if (← cursor.current).any isSign then cursor.advance else return cursor

/-- A number of which the body is malformed takes its whole run with it. -/
def number (cursor : ByteCursor) : Run (Scanned Token) := do
  let start := cursor.position
  match ← numeral (← cursor.passSign) with
  | (.ok (), cursor) => return (.ok (Scan.numberToken (← cursor.sliceFrom start)), cursor)
  | (.error fault, cursor) => return (.error fault, ← cursor.advanceWhile isNumericRun)

/-- The bytes at which the first `count` characters of `text` end, where `text` is `offset` bytes in.
-/
def characterEnds : Nat → Nat → List Char → List Nat
  | 0, _, _ => []
  | _ + 1, _, [] => []
  | count + 1, offset, c :: text =>
      (offset + c.utf8Size) :: characterEnds count (offset + c.utf8Size) text

/-- The longest punctuator of at most `length` characters at the front of `text`, each candidate
cut at one of `ends`. -/
def longest (text : List Char) (ends : List Nat) : Nat → Run (Option (Nat × Token))
  | 0 => return none
  | length + 1 => do
      let candidate ← slice text 0 (ends.getD length 0)
      match Vocabulary.punctuatorKind? (String.ofList candidate) with
      | some kind => return some (length + 1, Token.ofText kind candidate)
      | none => longest text ends length

def operator (cursor : ByteCursor) : Run (Scanned Token) := do
  let text ← cursor.remaining
  let ends := characterEnds Vocabulary.longestPunctuatorLength 0 text
  match ← longest text ends ends.length with
  | some (length, token) => return (.ok token, ← cursor.advanceBy length)
  | none => return ((cursor.fail .unsupportedPunctuator).1, ← cursor.advance)

def atNumber (cursor : ByteCursor) : Run Bool := do
  if (← cursor.current).any fun c => isSign c || c == '.' then
    return (← cursor.peekAt 1).any isDecimalDigit
  else return false

def punctuator (cursor : ByteCursor) : Run (Scanned Token) := do
  if ← atNumber cursor then number cursor else operator cursor

def comment (cursor : ByteCursor) : Run (Scanned Token) := do
  match ← cursor.peekAt 1 with
  | some '/' => lineComment cursor
  | some '*' => blockComment cursor
  | _ => punctuator cursor

def codePoint (cursor : ByteCursor) : Run (Scanned Unit) := do
  let start := cursor.position
  let cursor ← cursor.advanceWhile isHexDigit
  let value := Scan.hexadecimal? (← cursor.sliceFrom start)
  match ← cursor.current with
  | some '\x7d' =>
      if cursor.position ≤ start then return cursor.fail .hexadecimalDigitExpected
      else if value.any (· ≤ Scan.escapeLimit) then return done (← cursor.advance)
      else return cursor.fail .unicodeValueOutOfRange
  | some '\x7b' => return cursor.fail .hexadecimalDigitExpected
  | _ => return cursor.fail .unterminatedUnicodeEscapeSequence

def codePointEscape (cursor : ByteCursor) : Run (Scanned Unit) := do
  let cursor ← cursor.advance
  let (opened, cursor) ← cursor.expect '\x7b'
  if opened then codePoint cursor else return cursor.fail .hexadecimalDigitExpected

/-- Reads the escape of which the cursor is on the backslash. What it may not take along is left
for the body. -/
def escapeSequence (cursor : ByteCursor) : Run (Scanned Unit) := do
  let cursor ← cursor.advance
  match ← cursor.current with
  | some c =>
      if c = 'u' then codePointEscape cursor
      else if isNonFormattingEscape c || isNonEscapeCharacter c then return done (← cursor.advance)
      else return cursor.done
  | none => return cursor.done

def passTail (quote : Char) (cursor : ByteCursor) : Run ByteCursor := do
  match ← cursor.current with
  | none => return cursor
  | some c =>
      if c = quote then cursor.advance
      else if isStringCharacter c then
        if c = '\\' then (← (← cursor.advance).advance) |>.passTail quote
        else (← cursor.advance) |>.passTail quote
      else return cursor
partial_fixpoint

def literalBody (quote : Char) (cursor : ByteCursor) : Run (Scanned Unit) := do
  match ← cursor.current with
  | some c =>
      if c = quote then return done (← cursor.advance)
      else if c = '\\' then
        match ← escapeSequence cursor with
        | (.ok (), cursor) => cursor |>.literalBody quote
        | (.error fault, cursor) => return (.error fault, ← cursor.passTail quote)
      else if isStringCharacter c then (← cursor.advance) |>.literalBody quote
      else return cursor.fail .unterminatedStringLiteral
  | none => return cursor.fail .unterminatedStringLiteral
partial_fixpoint

def literal (quote : Char) (cursor : ByteCursor) : Run (Scanned Token) := do
  let start := cursor.position
  match ← literalBody quote (← cursor.advance) with
  | (.ok (), cursor) =>
      return (.ok (Token.ofText .stringLiteral (← cursor.sliceFrom start)), cursor)
  | (.error fault, cursor) => return (.error fault, cursor)

def leading (c : Char) (cursor : ByteCursor) : Run (Scanned Token) :=
  if isCommentStart c then comment cursor
  else if isOperatorStart c then punctuator cursor
  else if isDecimalDigit c then number cursor
  else if isQuote c then literal c cursor
  else if isIdentifierStart c then word cursor
  else structural c cursor

def next (cursor : ByteCursor) : Run (Scanned Token) := do
  match ← cursor.current with
  | none => return (.ok .eof, cursor)
  | some c => if isWhitespace c then (← cursor.advance) |>.next else cursor.leading c
partial_fixpoint

def drain (cursor : ByteCursor) : Run (List (Except ScanFault Token) × ByteCursor) := do
  let (found, cursor) ← cursor.next
  if found.toOption.any Token.isEof then return ([], cursor)
  else
    let (later, cursor) ← cursor |>.drain
    return (found :: later, cursor)
partial_fixpoint

end ByteCursor
end ScriptLexer
