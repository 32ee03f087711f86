/-! JSON documents and their layout: two spaces for each level, a line for each item and member,
nothing between the brackets of an empty list or object. -/

namespace ScriptLexer

inductive Json
  | null
  | number (value : Nat)
  | text (value : String)
  | list (items : List Json)
  | object (members : List (String × Json))

namespace Json

def hexDigit (value : Nat) : Char := Nat.digitChar value

/-- Quotes, backslashes and characters below the space are escaped; all else stands for itself. -/
def escape (c : Char) : List Char :=
  match c with
  | '\x22' => ['\\', '\x22']
  | '\\' => ['\\', '\\']
  | '\x08' => ['\\', 'b']
  | '\x0c' => ['\\', 'f']
  | '\n' => ['\\', 'n']
  | '\r' => ['\\', 'r']
  | '\t' => ['\\', 't']
  | c =>
      if c.toNat < 0x20 then
        ['\\', 'u', '0', '0', hexDigit (c.toNat / 16), hexDigit (c.toNat % 16)]
      else [c]

def quote (text : String) : List Char := '\x22' :: text.toList.flatMap escape ++ ['\x22']

def newLine (depth : Nat) : List Char := '\n' :: List.replicate (2 * depth) ' '

mutual

/-- The text of a value whose opening bracket stands at `depth`. -/
def layout (depth : Nat) : Json → List Char
  | null => "null".toList
  | number value => (toString value).toList
  | text value => quote value
  | list [] => ['[', ']']
  | list (item :: items) =>
      '[' :: newLine (depth + 1) ++ layout (depth + 1) item ++ layoutItems depth items
  | object [] => ['\x7b', '\x7d']
  | object ((key, value) :: members) =>
      '\x7b' :: newLine (depth + 1) ++ quote key ++ [':', ' '] ++ layout (depth + 1) value ++
        layoutMembers depth members

/-- What follows an item of a list: the other items and the bracket that closes it. -/
def layoutItems (depth : Nat) : List Json → List Char
  | [] => newLine depth ++ [']']
  | item :: items =>
      ',' :: newLine (depth + 1) ++ layout (depth + 1) item ++ layoutItems depth items

def layoutMembers (depth : Nat) : List (String × Json) → List Char
  | [] => newLine depth ++ ['\x7d']
  | (key, value) :: members =>
      ',' :: newLine (depth + 1) ++ quote key ++ [':', ' '] ++ layout (depth + 1) value ++
        layoutMembers depth members

end

def print (value : Json) : String := String.ofList (value.layout 0)

end Json
end ScriptLexer
