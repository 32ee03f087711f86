import ScriptLexer.CommandLine.Invocation

/-! The program as a whole: from arguments, environment and input to the exit status and what is
written on both outputs. The status is 0 if every source is without errors, 1 if one has an error,
2 if the work could not be done. -/

namespace ScriptLexer.CommandLine

structure World where
  environment : Environment
  input : Input

inductive Outcome
  | misused (error : UsageError)
  | ended (status : Nat) (out err : String)
  deriving DecidableEq, Repr

namespace Outcome

def status : Outcome → Nat
  | misused _ => 2
  | ended status _ _ => status

def out : Outcome → String
  | misused _ => ""
  | ended _ out _ => out

def err : Outcome → String
  | misused error => "error: " ++ error.message ++ "\n"
  | ended _ _ err => err

end Outcome

def programName : String := "tslex"

def versionNumber : String := "0.1.0"

def fullName : Scope → String
  | .program => programName
  | .command name => programName ++ "-" ++ name.text

def versionLine (scope : Scope) : String := fullName scope ++ " " ++ versionNumber ++ "\n"

def helpText : Scope → String
  | .program =>
      "Usage: " ++ programName ++ " [OPTIONS] <COMMAND>\n\nCommands:\n" ++
        String.join (CommandName.all.map fun name =>
          "  " ++ Command.Codes.padRight 8 name.text ++ name.description ++ "\n")
  | .command name => name.description ++ "\n\n" ++ name.help ++ "\n"

def loadConfig (world : World) (invocation : Invocation) :
    Except Failure (Option String × Config) :=
  match invocation.config with
  | some path => (Config.load world.input.files path).map fun config => (some path, config)
  | none =>
      let paths := invocation.configPaths world.environment
      match paths.find? fun path => world.input.files.contains path with
      | some path => (Config.load world.input.files path).map fun config => (some path, config)
      | none => .ok (none, .default)

def isQuiet (config : Config) : Work → Bool
  | .tokens _ _ _ quiet => quiet || config.quiet
  | .check _ quiet => quiet || config.quiet
  | .codes _ => false

def perform (config : Config) (input : Input) (work : Work) : Performance :=
  match work with
  | .tokens paths format noComments _ =>
      (Command.Tokens.mk paths (format.getD config.format)
        (config.includeComments && !noComments)).perform input
  | .check paths _ => (Command.Check.mk paths (isQuiet config work)).perform input
  | .codes code => (Command.Codes.mk code).perform

def console (environment : Environment) (config : Config) (invocation : Invocation) : Console :=
  .forCommand environment.mode (config.color && !invocation.noColor)
    (isQuiet config invocation.work)

structure Conduct where
  told : String
  result : Except Failure Product

def conduct (world : World) (invocation : Invocation) : Conduct :=
  match loadConfig world invocation with
  | .error failure => ⟨"", .error failure⟩
  | .ok (path?, config) =>
      let performance := perform config world.input invocation.work
      let events := path?.toList.map Event.configured ++ performance.events
      let console := console world.environment config invocation
      let lines := events.flatMap (Event.lines invocation.verbose console)
      ⟨String.join (lines.map Listing.endLine), performance.result⟩

def errorLine (failure : Failure) : String := "error: " ++ failure.message ++ "\n"

def conclude (told : String) (written : Except Failure (String × Summary)) : Outcome :=
  match written with
  | .ok (out, summary) => .ended (if summary.isClean then 0 else 1) out told
  | .error failure => .ended 2 "" (told ++ errorLine failure)

def Conduct.writeTo (conduct : Conduct) (sink : Sink) : Outcome :=
  conclude conduct.told ((conduct.result >>= fun product => product.writeTo sink).map
    fun (written, summary) => (sink.delivered written, summary))

def stopped (sink : Sink) : Stop → Outcome
  | .usage error => .misused error
  | .version scope => .ended 0 (sink.delivered (versionLine scope)) ""
  | .help scope => .ended 0 (sink.delivered (helpText scope)) ""

def run (world : World) (arguments : List String) (sink : Sink) : Outcome :=
  match Invocation.parse world.environment arguments with
  | .error stop => stopped sink stop
  | .ok invocation => (conduct world invocation).writeTo sink

end ScriptLexer.CommandLine
