import ScriptLexer.CommandLine.Arguments
import ScriptLexer.Config

/-! Invocations: what the arguments and the environment together ask for. A flag wins over the
variable that stands for it. -/

namespace ScriptLexer.CommandLine

abbrev Environment := String → Option String

inductive Work
  | tokens (paths : List String) (format : Option OutputFormat) (noComments quiet : Bool)
  | check (paths : List String) (quiet : Bool)
  | codes (code : Option String)
  deriving DecidableEq, Repr

structure Invocation where
  verbose : Bool
  noColor : Bool
  config : Option String
  work : Work
  deriving DecidableEq, Repr

namespace Environment

def verboseName : String := "TSLEX_VERBOSE"

def configName : String := "TSLEX_CONFIG"

def noColorName : String := "TSLEX_NO_COLOR"

def modeName : String := "TSLEX_ENV"

def homeName : String := "HOME"

def configHomeName : String := "XDG_CONFIG_HOME"

def mode (environment : Environment) : Option String := environment modeName

def home (environment : Environment) : Option String :=
  (environment homeName).filter fun path => !path.isEmpty

/-- The directory for configurations, which lies in the home directory unless a full path is set. -/
def configHome (environment : Environment) : Option String :=
  (environment configHomeName).filter (fun path => path.startsWith "/") <|>
    environment.home.map fun home => Config.join home ".config"

end Environment

/-- A switch that a variable stands for where a place does not give it. -/
def switch (environment : Environment) (name : String) (flag : Flag) (program command : Draft) :
    Except UsageError Bool :=
  let given := program.has flag || command.has flag
  if program.has flag && command.has flag then .ok true
  else
    match environment name with
    | none => .ok given
    | some "true" => .ok true
    | some "false" => .ok given
    | some value => .error (.invalidVariable name value)

/-- The path of the configuration, that of the later place first. -/
def configPath (environment : Environment) (program command : Draft) :
    Except UsageError (Option String) :=
  let given := command.config <|> program.config
  if program.config.isSome && command.config.isSome then .ok given
  else
    match environment Environment.configName with
    | some "" => .error (.invalidVariable Environment.configName "")
    | path => .ok (given <|> path)

def workOf (name : CommandName) (draft : Draft) : Except UsageError Work :=
  match name with
  | .codes => .ok (.codes draft.operands.head?)
  | .tokens =>
      if draft.operands.isEmpty then .error .missingFile
      else .ok (.tokens draft.operands draft.format (draft.has .noComments) (draft.has .quiet))
  | .check =>
      if draft.operands.isEmpty then .error .missingFile
      else .ok (.check draft.operands (draft.has .quiet))

namespace Invocation

def ofReading (environment : Environment) (reading : Reading) : Except UsageError Invocation := do
  let work ← workOf reading.name reading.command
  let verbose ← switch environment Environment.verboseName .verbose reading.program reading.command
  let noColor ← switch environment Environment.noColorName .noColor reading.program reading.command
  let config ← configPath environment reading.program reading.command
  return ⟨verbose, noColor, config, work⟩

def parse (environment : Environment) (arguments : List String) : Except Stop Invocation := do
  let reading ← read .nothing .empty arguments
  (ofReading environment reading).mapError .usage

def sourcePaths (invocation : Invocation) : List String :=
  match invocation.work with
  | .tokens paths _ _ _ => paths
  | .check paths _ => paths
  | .codes _ => []

def configPaths (environment : Environment) (invocation : Invocation) : List String :=
  match invocation.config with
  | some path => [path]
  | none => Config.candidates environment.home environment.configHome

end Invocation
end ScriptLexer.CommandLine
