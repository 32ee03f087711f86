import ScriptLexer.Toml.Quoted

/-! Numbers, dates and truth values of TOML. Each reader gives none when its form is not at the head
of the text. -/

namespace ScriptLexer.Toml

def fixedDigits? (count low high : Nat) (text : List Char) : Option (Nat × List Char) :=
  let digits := text.take count
  let value := valueInBase 10 digits
  if digits.length = count && digits.all Char.isDigit && low ≤ value && value ≤ high then
    some (value, text.drop count)
  else none

def after? (wanted : Char) : List Char → Option (List Char)
  | c :: text => if c = wanted then some text else none
  | [] => none

def daysInMonth (year month : Nat) : Nat :=
  if month = 2 then
    if year % 4 = 0 && (year % 100 != 0 || year % 400 = 0) then 29 else 28
  else if month = 4 || month = 6 || month = 9 || month = 11 then 30
  else 31

def date? (text : List Char) : Option (List Char) := do
  let (year, rest) ← fixedDigits? 4 0 9999 text
  let (month, rest) ← fixedDigits? 2 1 12 (← after? '-' rest)
  let (_, rest) ← fixedDigits? 2 1 (daysInMonth year month) (← after? '-' rest)
  return rest

def skipFraction : List Char → List Char
  | '.' :: c :: text => if c.isDigit then text.dropWhile Char.isDigit else '.' :: c :: text
  | text => text

def time? (text : List Char) : Option (List Char) := do
  let (_, rest) ← fixedDigits? 2 0 23 text
  let (_, rest) ← fixedDigits? 2 0 59 (← after? ':' rest)
  let (_, rest) ← fixedDigits? 2 0 60 (← after? ':' rest)
  return skipFraction rest

def numericOffset? (text : List Char) : Option (List Char) := do
  let (_, rest) ← fixedDigits? 2 0 23 text
  let (_, rest) ← fixedDigits? 2 0 59 (← after? ':' rest)
  return rest

def skipOffset : List Char → List Char
  | 'Z' :: text => text
  | 'z' :: text => text
  | '+' :: text => (numericOffset? text).getD ('+' :: text)
  | '-' :: text => (numericOffset? text).getD ('-' :: text)
  | text => text

def isDateTimeMark (c : Char) : Bool := c == 'T' || c == 't' || c == ' '

def timeAfterDate? : List Char → Option (List Char)
  | c :: text => if isDateTimeMark c then (time? text).map skipOffset else none
  | [] => none

def upTo (text rest : List Char) : String := String.ofList (text.take (text.length - rest.length))

def dateTime? (text : List Char) : Option (Value × List Char) := do
  let rest ← match date? text with
    | some rest => some ((timeAfterDate? rest).getD rest)
    | none => time? text
  return (.dateTime (upTo text rest), rest)

def partedDigits? (isDigit : Char → Bool) : List Char → Option (List Char × List Char)
  | [] => none
  | c :: text =>
      if !isDigit c then none
      else
        match text with
        | '_' :: text => (partedDigits? isDigit text).map (keep c)
        | text => some ((partedDigits? isDigit text).elim ([c], text) (keep c))

def splitSign : List Char → Bool × List Char
  | '-' :: text => (true, text)
  | '+' :: text => (false, text)
  | text => (false, text)

def wholeDigits? : List Char → Option (List Char × List Char)
  | '0' :: text => some (['0'], text)
  | text => partedDigits? Char.isDigit text

def exponent? : List Char → Option (Int × List Char)
  | c :: text =>
      if c = 'e' || c = 'E' then
        let (negative, digits) := splitSign text
        (partedDigits? Char.isDigit digits).map fun (digits, rest) =>
          let value : Int := valueInBase 10 digits
          (if negative then -value else value, rest)
      else none
  | [] => none

/-- The least number that binary floating point of 64 bits rounds to infinity. -/
def infinityBound : Nat := Nat.pow 2 1024 - Nat.pow 2 970

def reachesInfinity (digits : List Char) (exponent : Int) : Bool :=
  let significant := digits.dropWhile (· == '0')
  let magnitude : Int := significant.length + exponent
  if significant.isEmpty || magnitude < 300 then false
  else if 320 < magnitude then true
  else if 0 ≤ exponent then infinityBound ≤ valueInBase 10 significant * Nat.pow 10 exponent.toNat
  else infinityBound * Nat.pow 10 (-exponent).toNat ≤ valueInBase 10 significant

def special? (text : List Char) : Option (List Char) :=
  match (splitSign text).2 with
  | 'i' :: 'n' :: 'f' :: rest => some rest
  | 'n' :: 'a' :: 'n' :: rest => some rest
  | _ => none

def decimalFloat? (text : List Char) : Option (List Char × Int × List Char) := do
  let (whole, rest) ← wholeDigits? text
  match rest with
  | '.' :: rest =>
      let (fraction, rest) ← partedDigits? Char.isDigit rest
      let (exponent, rest) := (exponent? rest).getD (0, rest)
      return (whole ++ fraction, exponent - fraction.length, rest)
  | rest =>
      let (exponent, rest) ← exponent? rest
      return (whole, exponent, rest)

def float? (text : List Char) : Option (Except Fault (Value × List Char)) :=
  let (negative, unsigned) := splitSign text
  match decimalFloat? unsigned with
  | some (digits, exponent, rest) =>
      if !negative && reachesInfinity digits exponent then some (.error .outOfRange)
      else some (.ok (.float (upTo text rest), rest))
  | none => (special? text).map fun rest => .ok (.float (upTo text rest), rest)

def isDigitInBase (base : Nat) (c : Char) : Bool := isHexDigit c && digitValue c < base

def smallestInteger : Int := -0x8000000000000000

def largestInteger : Int := 0x7FFFFFFFFFFFFFFF

def ranged (value : Int) (rest : List Char) : Except Fault (Value × List Char) :=
  if smallestInteger ≤ value && value ≤ largestInteger then .ok (.integer value, rest)
  else .error .outOfRange

def inBase (base : Nat) (text : List Char) : Except Fault (Value × List Char) :=
  match partedDigits? (isDigitInBase base) text with
  | some (digits, rest) => ranged (valueInBase base digits) rest
  | none => .error .valueExpected

def integer (text : List Char) : Except Fault (Value × List Char) :=
  match text with
  | '0' :: 'x' :: digits => inBase 16 digits
  | '0' :: 'o' :: digits => inBase 8 digits
  | '0' :: 'b' :: digits => inBase 2 digits
  | text =>
      let (negative, unsigned) := splitSign text
      match wholeDigits? unsigned with
      | some (digits, rest) =>
          let value : Int := valueInBase 10 digits
          ranged (if negative then -value else value) rest
      | none => .error .valueExpected

def isNumberStart (c : Char) : Bool := c.isDigit || c == '+' || c == '-' || c == 'i' || c == 'n'

def scalar : Reader Value
  | 't' :: 'r' :: 'u' :: 'e' :: rest => .ok (.boolean true, rest)
  | 'f' :: 'a' :: 'l' :: 's' :: 'e' :: rest => .ok (.boolean false, rest)
  | text =>
      if text.head?.any isNumberStart then
        match dateTime? text with
        | some read => .ok read
        | none => (float? text).getD (integer text)
      else (quoted text).map fun (content, rest) => (.string (String.ofList content), rest)

end ScriptLexer.Toml
