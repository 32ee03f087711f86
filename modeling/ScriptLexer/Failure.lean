import ScriptLexer.Files
import ScriptLexer.Sink

/-! What stops a command, by cause. Lexical errors do not: they are part of its result. -/

namespace ScriptLexer

inductive ConfigFault
  | absent (path : String)
  | malformed (explanation : String)
  deriving DecidableEq, Repr

def ConfigFault.message : ConfigFault → String
  | absent path => "Configuration file not found: " ++ path
  | malformed explanation => "Failed to parse configuration: " ++ explanation

inductive Failure
  | config (fault : ConfigFault)
  | read (path : String) (fault : ReadFault)
  | unknownCode (text : String)
  | io (reason : String)
  | json (reason : String)
  deriving DecidableEq, Repr

namespace Failure

def message : Failure → String
  | config fault => "Configuration error: " ++ fault.message
  | read path fault => "Cannot read " ++ path ++ ": " ++ fault.message
  | unknownCode text => "Unknown error code: " ++ text
  | io reason => "IO error: " ++ reason
  | json reason => "JSON error: " ++ reason

def ofRefusal : Refusal → Failure
  | .text reason => io reason
  | .document reason => json reason

end Failure
end ScriptLexer
