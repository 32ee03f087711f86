import ScriptLexer.Toml.Scalar

/-! TOML documents. A document is read statement by statement: a header opens a table, a key and its
value go into the table that is open. -/

namespace ScriptLexer.Toml

/-- The most parts a key may have, and the most brackets a value may stand in. -/
def deepest : Nat := 79

def items (item : Reader Value) : Nat → Reader (List Value)
  | 0, _ => .error (.expected ']')
  | fuel + 1, text =>
      match skipLines false text with
      | ']' :: rest => .ok ([], rest)
      | text => do
          let (value, rest) ← item text
          match skipLines false rest with
          | ',' :: rest =>
              let (values, rest) ← items item fuel rest
              return (value :: values, rest)
          | rest => return ([value], ← expect ']' rest)

/-- A key, the sign behind it and the value it is for: the parts in front of the last, the last, the
value. -/
def entry (item : Reader Value) : Reader (List String × String × Value) := fun text => do
  let (parts, rest) ← key deepest text
  let rest ← expect '=' rest
  let (value, rest) ← item (skipBlank rest)
  match parts.getLast? with
  | some last => return ((parts.dropLast, last, value), rest)
  | none => throw .keyExpected

def entries (item : Reader Value) (table : Table) : Nat → Reader Table
  | 0, _ => .error (.expected '\x7d')
  | fuel + 1, text => do
      let ((path, key, value), rest) ← entry item text
      let table ← table.put key value path
      match skipBlank rest with
      | ',' :: rest => entries item table fuel rest
      | rest => return (table, ← expect '\x7d' rest)

def value : Nat → Reader Value
  | 0, text =>
      match text with
      | '[' :: _ => .error .tooDeep
      | '\x7b' :: _ => .error .tooDeep
      | text => scalar text
  | depth + 1, text =>
      match text with
      | '[' :: text => do
          let (values, rest) ← items (value depth) (text.length + 1) text
          return (.array values, rest)
      | '\x7b' :: text =>
          match skipBlank text with
          | '\x7d' :: rest => .ok (.table .inline [], rest)
          | text => do
              let (table, rest) ← entries (value depth) [] (text.length + 1) text
              return (.table .inline table, rest)
      | text => scalar text

structure Draft where
  root : Table
  path : List String

def Draft.empty : Draft := ⟨[], []⟩

def Draft.open (draft : Draft) (change : String → Table → Except Fault Table)
    (path : List String) : Except Fault Draft :=
  match path.getLast? with
  | some last => do
      return ⟨← Table.within (change last) path.dropLast draft.root, path⟩
  | none => .error .keyExpected

def Draft.put (draft : Draft) (path : List String) (key : String) (value : Value) :
    Except Fault Draft := do
  return { draft with root := ← Table.within (Table.put key value path) draft.path draft.root }

def statement (draft : Draft) : Reader Draft
  | '[' :: '[' :: text => do
      let (path, rest) ← key deepest text
      let rest ← expect ']' (← expect ']' rest)
      return (← draft.open Table.addElement path, rest)
  | '[' :: text => do
      let (path, rest) ← key deepest text
      let rest ← expect ']' rest
      return (← draft.open Table.state path, rest)
  | text => do
      let ((path, key, read), rest) ← entry (value deepest) text
      return (← draft.put path key read, rest)

def isIdle (text : List Char) : Bool := text.head? == some '#' || (newLine? text).isSome

def statements : Nat → Draft → List Char → Except Fault Draft
  | 0, draft, _ => .ok draft
  | fuel + 1, draft, text =>
      match skipBlank text with
      | [] => .ok draft
      | text =>
          if isIdle text then do statements fuel draft (← endLine text)
          else do
            let (draft, rest) ← statement draft text
            statements fuel draft (← endLine rest)

def withoutMark : List Char → List Char
  | '\uFEFF' :: text => text
  | text => text

/-- The root table of a document. Every line takes a character, so there are fewer than characters.
-/
def parse (text : String) : Except Fault Table :=
  let chars := withoutMark text.toList
  (statements (chars.length + 1) .empty chars).map Draft.root

end ScriptLexer.Toml
