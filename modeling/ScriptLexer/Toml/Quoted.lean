import ScriptLexer.Toml.Lines

/-! The four kinds of TOML strings: with escapes or literal, on one line or on several. -/

namespace ScriptLexer.Toml

def isHexDigit (c : Char) : Bool :=
  c.isDigit || ('a' ≤ c && c ≤ 'f') || ('A' ≤ c && c ≤ 'F')

def digitValue (c : Char) : Nat :=
  if c.isDigit then c.toNat - '0'.toNat
  else if c.isUpper then c.toNat - 'A'.toNat + 10
  else c.toNat - 'a'.toNat + 10

def valueInBase (base : Nat) (digits : List Char) : Nat :=
  digits.foldl (fun value c => value * base + digitValue c) 0

def scalar? (digits : List Char) : Option Char :=
  if !digits.all isHexDigit then none
  else
    let point := valueInBase 16 digits
    if valid : point.isValidChar then some (Char.ofNatAux point valid) else none

def simpleEscape? : Char → Option Char
  | 'b' => some '\x08'
  | 't' => some '\t'
  | 'n' => some '\n'
  | 'f' => some '\x0c'
  | 'r' => some '\r'
  | '\x22' => some '\x22'
  | '\\' => some '\\'
  | _ => none

/-- The character of the escape at the head of a text behind its backslash, and how many characters
the escape has. -/
def escape? : List Char → Option (Char × Nat)
  | 'u' :: text => if 4 ≤ text.length then (scalar? (text.take 4)).map (·, 5) else none
  | 'U' :: text => if 8 ≤ text.length then (scalar? (text.take 8)).map (·, 9) else none
  | c :: _ => (simpleEscape? c).map (·, 1)
  | [] => none

def isBasicCharacter (c : Char) : Bool := isCommentCharacter c && c != '\x22' && c != '\\'

def isLiteralCharacter (c : Char) : Bool := isCommentCharacter c && c != '\''

def keep (c : Char) (left : List Char × List Char) : List Char × List Char := (c :: left.1, left.2)

/-- A string with escapes behind its opening quote. The first `skip` characters have been read with
an escape. -/
def basic (skip : Nat) : Reader (List Char)
  | [] => .error .unterminatedString
  | c :: text =>
      match skip with
      | skip + 1 => basic skip text
      | 0 =>
          if c = '\x22' then .ok ([], text)
          else if c = '\\' then
            match escape? text with
            | some (escaped, length) => (basic length text).map (keep escaped)
            | none => .error .invalidEscape
          else if isBasicCharacter c then (basic 0 text).map (keep c)
          else .error .unterminatedString

def literal : Reader (List Char)
  | [] => .error .unterminatedString
  | c :: text =>
      if c = '\'' then .ok ([], text)
      else if isLiteralCharacter c then (literal text).map (keep c)
      else .error .unterminatedString

/-- Three quotes close a string of several lines; one or two in front of them belong to it. -/
def closing? (quote : Char) (text : List Char) : Option (List Char × List Char) :=
  let quotes := (text.takeWhile (· == quote)).length
  if quotes < 3 then none
  else
    let inside := min (quotes - 3) 2
    some (List.replicate inside quote, text.drop (inside + 3))

def spaceLength : List Char → Nat
  | '\r' :: '\n' :: text => spaceLength text + 2
  | '\n' :: text => spaceLength text + 1
  | c :: text => if isBlank c then spaceLength text + 1 else 0
  | [] => 0

/-- A string with escapes on several lines, behind its three quotes. A backslash at the end of a
line takes the space up to the next character that is not one. -/
def basicLines (skip : Nat) : Reader (List Char)
  | [] => .error .unterminatedString
  | c :: text =>
      match skip with
      | skip + 1 => basicLines skip text
      | 0 =>
          match closing? '\x22' (c :: text) with
          | some closed => .ok closed
          | none =>
              if c = '\\' then
                if (newLine? (skipBlank text)).isSome then basicLines (spaceLength text) text
                else
                  match escape? text with
                  | some (escaped, length) => (basicLines length text).map (keep escaped)
                  | none => .error .invalidEscape
              else if c = '\r' && text.head? == some '\n' then basicLines 0 text
              else if isCommentCharacter c || c = '\n' then (basicLines 0 text).map (keep c)
              else .error .unterminatedString

def literalLines : Reader (List Char)
  | [] => .error .unterminatedString
  | c :: text =>
      match closing? '\'' (c :: text) with
      | some closed => .ok closed
      | none =>
          if c = '\r' && text.head? == some '\n' then literalLines text
          else if isCommentCharacter c || c = '\n' then (literalLines text).map (keep c)
          else .error .unterminatedString

def withoutNewLine (text : List Char) : List Char := (newLine? text).getD text

def quoted : Reader (List Char)
  | '\x22' :: '\x22' :: '\x22' :: text => basicLines 0 (withoutNewLine text)
  | '\'' :: '\'' :: '\'' :: text => literalLines (withoutNewLine text)
  | '\x22' :: text => basic 0 text
  | '\'' :: text => literal text
  | _ => .error .valueExpected

def isBareKeyCharacter (c : Char) : Bool := c.isAlphanum || c == '-' || c == '_'

def keyPart : Reader String
  | '\x22' :: text => (basic 0 text).map fun part => (String.ofList part.1, part.2)
  | '\'' :: text => (literal text).map fun part => (String.ofList part.1, part.2)
  | text =>
      let part := text.takeWhile isBareKeyCharacter
      if part.isEmpty then .error .keyExpected
      else .ok (String.ofList part, text.dropWhile isBareKeyCharacter)

def key : Nat → Reader (List String)
  | 0, _ => .error .tooDeep
  | longest + 1, text => do
      let (part, rest) ← keyPart (skipBlank text)
      match skipBlank rest with
      | '.' :: rest =>
          let (parts, rest) ← key longest rest
          return (part :: parts, rest)
      | rest => return ([part], rest)

end ScriptLexer.Toml
