/-! TOML values, the tables they are gathered in, and the rules by which tables grow. A table is
stated once; one that a longer name brought about may still be stated, or grow by further names. -/

namespace ScriptLexer.Toml

/-- How a table came about: by a header of its own, on the way of a longer header, by a dotted key,
or written in braces. -/
inductive Origin
  | stated
  | implied
  | dotted
  | inline
  deriving DecidableEq, Repr

/-- Numbers with a fraction and dates are told apart and kept as they are written. -/
inductive Value
  | string (text : String)
  | integer (value : Int)
  | float (text : String)
  | boolean (value : Bool)
  | dateTime (text : String)
  | array (items : List Value)
  | table (origin : Origin) (entries : List (String × Value))
  | tables (items : List (List (String × Value)))

abbrev Table := List (String × Value)

inductive Fault
  | valueExpected
  | keyExpected
  | expected (wanted : Char)
  | lineEndExpected
  | unterminatedString
  | invalidEscape
  | outOfRange
  | tooDeep
  | duplicate (key : String)
  | notATable (key : String)
  deriving DecidableEq, Repr

def Fault.message : Fault → String
  | valueExpected => "expected a value"
  | keyExpected => "expected a key"
  | expected wanted => "expected '" ++ wanted.toString ++ "'"
  | lineEndExpected => "expected the end of the line"
  | unterminatedString => "unterminated string"
  | invalidEscape => "invalid escape sequence"
  | outOfRange => "value out of range"
  | tooDeep => "nested too deeply"
  | duplicate key => "duplicate key '" ++ key ++ "'"
  | notATable key => "key '" ++ key ++ "' is not a table"

namespace Table

def replace (key : String) (value : Value) (table : Table) : Table :=
  table.map fun entry => if entry.1 == key then (key, value) else entry

def append (key : String) (value : Value) (table : Table) : Table := table ++ [(key, value)]

def insertNew (key : String) (value : Value) (table : Table) : Except Fault Table :=
  match table.lookup key with
  | none => .ok (table.append key value)
  | some _ => .error (.duplicate key)

def changeLast (change : Table → Except Fault Table) : List Table → Except Fault (List Table)
  | [] => .ok []
  | [item] => (change item).map fun item => [item]
  | item :: items => (changeLast change items).map (item :: ·)

/-- Changes the table at `path`, the last element standing for an array of tables. Tables that are
missing on the way come about. -/
def within (change : Table → Except Fault Table) : List String → Table → Except Fault Table
  | [], table => change table
  | key :: path, table =>
      match table.lookup key with
      | none => do return table.append key (.table .implied (← within change path []))
      | some (.table .inline _) => .error (.notATable key)
      | some (.table origin inner) => do
          return table.replace key (.table origin (← within change path inner))
      | some (.tables items) => do
          return table.replace key (.tables (← changeLast (within change path) items))
      | some _ => .error (.notATable key)

def put (key : String) (value : Value) : List String → Table → Except Fault Table
  | [], table => table.insertNew key value
  | name :: path, table =>
      match table.lookup name with
      | none => do return table.append name (.table .dotted (← put key value path []))
      | some (.table .dotted inner) => do
          return table.replace name (.table .dotted (← put key value path inner))
      | some (.table .implied inner) => do
          if path.isEmpty then throw (.duplicate key)
          return table.replace name (.table .implied (← put key value path inner))
      | some (.tables items) => do
          if path.isEmpty then throw (.duplicate key)
          return table.replace name (.tables (← changeLast (put key value path) items))
      | some (.table _ _) => .error (.duplicate name)
      | some _ => .error (.notATable name)

def state (key : String) (table : Table) : Except Fault Table :=
  match table.lookup key with
  | none => .ok (table.append key (.table .stated []))
  | some (.table .implied inner) => .ok (table.replace key (.table .stated inner))
  | some _ => .error (.duplicate key)

def addElement (key : String) (table : Table) : Except Fault Table :=
  match table.lookup key with
  | none => .ok (table.append key (.tables [[]]))
  | some (.tables items) => .ok (table.replace key (.tables (items ++ [[]])))
  | some _ => .error (.duplicate key)

end Table
end ScriptLexer.Toml
