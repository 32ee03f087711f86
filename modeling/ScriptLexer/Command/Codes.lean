import ScriptLexer.Command
import ScriptLexer.Unicode.WhiteSpace

/-! The command that lists the error codes, or the one it is asked for. A code is asked for by its
number, with or without its label. -/

namespace ScriptLexer.Command

structure Codes where
  code : Option String
  deriving DecidableEq, Repr

namespace Codes

def labelWidth : Nat := 8

def padRight (width : Nat) (text : String) : String :=
  text ++ String.ofList (List.replicate (width - text.length) ' ')

def line (code : ErrorCode) : String := padRight labelWidth code.label ++ code.message ++ "\n"

def numberLimit : Nat := 0x100000000

/-- A number in decimal digits, which a plus sign may precede. -/
def readNumber? (text : List Char) : Option Nat :=
  let digits := match text with
    | '+' :: digits => digits
    | digits => digits
  if digits.isEmpty || !digits.all Char.isDigit then none
  else
    let value := digits.foldl (fun value c => value * 10 + (c.toNat - '0'.toNat)) 0
    if value < numberLimit then some value else none

def withoutLabel : List Char → List Char
  | first :: second :: digits =>
      if (first == 't' || first == 'T') && (second == 's' || second == 'S') then digits
      else first :: second :: digits
  | text => text

def parse? (text : String) : Option ErrorCode :=
  readNumber? (withoutLabel (Unicode.trim text.toList)) >>= ErrorCode.ofNumber?

def selected (command : Codes) : Except Failure (List ErrorCode) :=
  match command.code with
  | none => .ok ErrorCode.all
  | some text =>
      match parse? text with
      | some code => .ok [code]
      | none => .error (.unknownCode text)

def perform (command : Codes) : Performance :=
  ⟨[], command.selected.map fun codes => ⟨codes.map fun code => .text (line code), .empty⟩⟩

end Codes
end ScriptLexer.Command
