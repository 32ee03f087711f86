import ScriptLexer.Characters
import ScriptLexer.Scan

/-! Numeric literals: an optional sign, whole digits, and a fraction behind a point. Separators
stand between two digits. A malformed number takes its whole run of digits, separators and points
with it. -/

namespace ScriptLexer.Scan

/-- A number starts at a digit, or at a sign or point that a digit follows directly. -/
def startsNumber : List Char → Bool
  | [] => false
  | c :: text =>
      isDecimalDigit c || ((isSign c || c == '.') && text.head?.any isDecimalDigit)

def hasDoubleSeparator : List Char → Bool
  | [] => false
  | c :: digits =>
      (isNumericSeparator c && digits.head?.any isNumericSeparator) || hasDoubleSeparator digits

def separatorFault? (digits : List Char) : Option ErrorCode :=
  if hasDoubleSeparator digits then some .multipleNumericSeparatorsNotAllowed
  else if digits.getLast?.any isNumericSeparator then some .numericSeparatorNotAllowed
  else none

def wholeFault? : List Char → Option ErrorCode
  | '0' :: _ :: _ => some .octalLiteralsNotSupported
  | digits => separatorFault? digits

def fractionFault? (digits : List Char) : Option ErrorCode :=
  if digits.head?.any isNumericSeparator then some .numericSeparatorNotAllowed
  else separatorFault? digits

def sign (text : List Char) : List Char := (text.take 1).filter isSign

def unsigned (text : List Char) : List Char := text.drop (sign text).length

def numberToken (text : List Char) : Token := Token.ofText .numericLiteral text

def malformedNumber (code : ErrorCode) (text : List Char) : Scan :=
  reject code (sign text ++ (unsigned text).takeWhile isNumericRun) []
    ((unsigned text).dropWhile isNumericRun)

def number (text : List Char) : Scan :=
  let whole := (unsigned text).takeWhile isDigitOrSeparator
  match wholeFault? whole with
  | some code => malformedNumber code text
  | none =>
      match (unsigned text).dropWhile isDigitOrSeparator with
      | '.' :: after =>
          let digits := after.takeWhile isDigitOrSeparator
          match fractionFault? digits with
          | some code => malformedNumber code text
          | none =>
              let seen := sign text ++ whole ++ '.' :: digits
              accept (numberToken seen) seen (after.dropWhile isDigitOrSeparator)
      | rest => accept (numberToken (sign text ++ whole)) (sign text ++ whole) rest

theorem sign_append_unsigned (text : List Char) : sign text ++ unsigned text = text := by
  cases text with
  | nil => rfl
  | cons c text => by_cases signed : isSign c = true <;> simp [sign, unsigned, signed]

theorem malformedNumber_covers (code : ErrorCode) (text : List Char) :
    (malformedNumber code text).Covers text := by
  simp [malformedNumber, Covers, reject, List.takeWhile_append_dropWhile, sign_append_unsigned]

theorem number_covers (text : List Char) : (number text).Covers text := by
  unfold number
  simp only
  split
  · exact malformedNumber_covers _ text
  · have whole := List.takeWhile_append_dropWhile (l := unsigned text) (p := isDigitOrSeparator)
    split
    · rename_i after pointed
      split at *
      · exact malformedNumber_covers _ text
      · conv => rhs; rw [← sign_append_unsigned text, ← whole, pointed]
        simp [Covers, accept, List.takeWhile_append_dropWhile]
    · simp [Covers, accept, whole, sign_append_unsigned]

end ScriptLexer.Scan
