import ScriptLexer.Diagnostic.Console
import ScriptLexer.Source

/-! What a run tells as it happens, and the lines it prints for it. Log lines appear when the run is
verbose, diagnostics as the console has them. -/

namespace ScriptLexer

inductive Event
  | configured (path : String)
  | lexing (source : Source)
  | reported (diagnostic : Diagnostic)
  | checked (lexed : LexedSource)

namespace Event

def configuredLine (path : String) : String := "DEBUG loaded configuration path=" ++ path

def lexingLine (source : Source) : String :=
  " INFO lexing source=" ++ source.name ++ " bytes=" ++ toString source.text.utf8ByteSize

def reportedLine (diagnostic : Diagnostic) : String :=
  "DEBUG lexical error: " ++ diagnostic.code.message ++ " source=" ++ diagnostic.source ++
    " line=" ++ toString diagnostic.line ++ " code=" ++ toString diagnostic.code.number

def checkedLine (lexed : LexedSource) : String :=
  " INFO checked source=" ++ lexed.source.name ++ " tokens=" ++ toString lexed.pulls.length ++
    " clean=" ++ toString lexed.failure?.isNone

def logLine : Event → String
  | configured path => configuredLine path
  | lexing source => lexingLine source
  | reported diagnostic => reportedLine diagnostic
  | checked lexed => checkedLine lexed

def lines (verbose : Bool) (console : Console) (event : Event) : List String :=
  let logged := if verbose then [event.logLine] else []
  match event with
  | reported diagnostic =>
      if console.enabled then logged ++ [console.render diagnostic] else logged
  | _ => logged

end Event
end ScriptLexer
