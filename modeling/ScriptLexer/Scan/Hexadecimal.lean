import ScriptLexer.Characters

/-! The value of a run of upper-case hexadecimal digits, as far as 32 bits hold it. -/

namespace ScriptLexer.Scan

def hexadecimalLimit : Nat := 0x100000000

def hexDigitValue? (c : Char) : Option Nat :=
  if isDecimalDigit c then some (c.toNat - '0'.toNat)
  else if isHexDigit c then some (c.toNat - 'A'.toNat + 10)
  else none

def addHexDigit (value : Nat) (c : Char) : Option Nat := do
  let digit ← hexDigitValue? c
  let next := value * 16 + digit
  if next < hexadecimalLimit then some next else none

/-- Reads from the left and stops at the first digit that leads past the limit. -/
def hexadecimal? : List Char → Option Nat
  | [] => none
  | digits => digits.foldlM addHexDigit 0

def hexadecimalValue (digits : List Char) : Nat :=
  digits.foldl (fun value c => value * 16 + (hexDigitValue? c).getD 0) 0

end ScriptLexer.Scan
