import ScriptLexer.Command.Tokens
import ScriptLexer.Toml.Document

/-! The configuration: four settings in two tables, each with a default. Other keys are left alone.
-/

namespace ScriptLexer

structure Config where
  format : OutputFormat
  color : Bool
  includeComments : Bool
  quiet : Bool
  deriving DecidableEq, Repr

namespace Config

def default : Config := ⟨.text, true, true, false⟩

/-- The values of `names` in a section: by name in a table, by position in an array. A date has none
of them. -/
def fields (names : List String) : Toml.Value → Option (List (Option Toml.Value))
  | .table _ entries => some (names.map fun name => entries.lookup name)
  | .array items => some (items.map some ++ names.map fun _ => none)
  | .tables items =>
      some (items.map (fun item => some (.table .stated item)) ++ names.map fun _ => none)
  | .dateTime _ => some (names.map fun _ => none)
  | _ => none

def readBool : Toml.Value → Option Bool
  | .boolean value => some value
  | _ => none

def isEmptyCollection : Toml.Value → Bool
  | .array [] => true
  | .table _ [] => true
  | _ => false

/-- A format is named by a string, or by the one key of a table that holds nothing under it. -/
def readFormat : Toml.Value → Option OutputFormat
  | .string name => OutputFormat.ofName? name
  | .table _ [(name, content)] =>
      if isEmptyCollection content then OutputFormat.ofName? name else none
  | _ => none

def readOr {α : Type} (read : Toml.Value → Option α) (absent : α) : Option Toml.Value → Option α
  | none => some absent
  | some value => read value

def readOutput (config : Config) (section? : Option Toml.Value) : Option Config :=
  match section? with
  | none => some config
  | some given => do
      match ← fields ["format", "color", "include_comments"] given with
      | format :: color :: includeComments :: _ =>
          return { config with
            format := ← readOr readFormat config.format format
            color := ← readOr readBool config.color color
            includeComments := ← readOr readBool config.includeComments includeComments }
      | _ => none

def readReport (config : Config) (section? : Option Toml.Value) : Option Config :=
  match section? with
  | none => some config
  | some given => do
      match ← fields ["quiet"] given with
      | quiet :: _ => return { config with quiet := ← readOr readBool config.quiet quiet }
      | _ => none

def invalid (key : String) : ConfigFault := .malformed ("invalid value for '" ++ key ++ "'")

def ofTable (table : Toml.Table) : Except ConfigFault Config := do
  let some config := readOutput default (table.lookup "output") | throw (invalid "output")
  let some config := readReport config (table.lookup "report") | throw (invalid "report")
  return config

def parse (text : String) : Except ConfigFault Config :=
  match Toml.parse text with
  | .ok table => ofTable table
  | .error fault => .error (.malformed fault.message)

def fileName : String := "tslex.toml"

def folderName : String := "tslex"

def join (directory name : String) : String :=
  if directory.endsWith "/" then directory ++ name else directory ++ "/" ++ name

/-- Where a configuration is looked for, in order: here, under the home directory, and in the
directory for configurations. -/
def candidates (home configHome : Option String) : List String :=
  fileName ::
    (home.toList.map fun home => join (join (join home ".config") folderName) fileName) ++
    configHome.toList.map fun directory => join (join directory folderName) fileName

def load (files : FileSystem) (path : String) : Except Failure Config :=
  if files.contains path then
    match files.readText path with
    | .error fault => .error (.io fault.message)
    | .ok text =>
        match parse text with
        | .ok config => .ok config
        | .error fault => .error (.config fault)
  else .error (.config (.absent path))

end Config
end ScriptLexer
