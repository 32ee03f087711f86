import ScriptLexer.CommandLine.Program

/-! The program on a real machine. It reads every file the invocation may ask for, lets the library
decide, and writes what it is told to. -/

namespace ScriptLexer.Main

open CommandLine

/-- The fault of a call that did not succeed at what is `found` at its path, or on the way there. -/
def faultOf (found : Bool) (error : IO.Error) : ReadFault :=
  match error with
  | .noFileOrDirectory _ code details => ofCode code details
  | .permissionDenied _ code details => ofCode code details
  | .inappropriateType _ code details => ofCode code details
  | .invalidArgument _ code details => ofCode code details
  | .resourceExhausted _ code details => ofCode code details
  | .otherError code details => ofCode code details
  | error => other (toString error)
where
  other (detail : String) : ReadFault := if found then .unreadable detail else .unreachable detail
  ofCode (code : UInt32) (details : String) : ReadFault :=
    match code with
    | 2 => .notFound
    | 20 => .notDirectory
    | 21 => .isDirectory
    | 36 => .nameTooLong
    | code => other (details ++ " (os error " ++ toString code ++ ")")

abbrev Snapshot := List (String × Except ReadFault ByteArray)

def isFound (path : String) : IO Bool := do
  try
    discard (IO.FS.realPath path)
    return true
  catch _ => return false

def snapshot (paths : List String) : IO Snapshot :=
  paths.mapM fun (path : String) => do
    try
      let bytes ← IO.FS.readBinFile path
      return (path, .ok bytes)
    catch error => return (path, .error (faultOf (← isFound path) error))

def filesOf (taken : Snapshot) : FileSystem := fun path =>
  (taken.lookup path).getD (.error .notFound)

def variableNames : List String :=
  [Environment.verboseName, Environment.configName, Environment.noColorName,
    Environment.modeName, Environment.homeName, Environment.configHomeName]

def environment : IO Environment := do
  let values ← variableNames.mapM fun name => return (name, ← IO.getEnv name)
  return fun name => (values.lookup name).join

def emit (output : IO.FS.Stream) : List Piece → IO (Except Failure Unit)
  | [] => return .ok ()
  | piece :: pieces => do
      try
        output.putStr piece.content
        output.flush
      catch error => return .error (.ofRefusal (piece.refused (faultOf true error).message))
      emit output pieces

def finish (outcome : Outcome) : IO UInt32 := do
  (← IO.getStdout).putStr outcome.out
  (← IO.getStderr).putStr outcome.err
  return outcome.status.toUInt32

/-- Reads the sources, once there is a configuration to read them under. -/
def inputOf (environment : Environment) (invocation : Invocation) : IO Input := do
  let configs ← snapshot (invocation.configPaths environment)
  match loadConfig ⟨environment, ⟨filesOf configs, .empty⟩⟩ invocation with
  | .error _ => return ⟨filesOf configs, .empty⟩
  | .ok _ => do
      let sources ← snapshot (invocation.sourcePaths.filter fun path => path != Input.stdinPath)
      let stdin ←
        if invocation.sourcePaths.contains Input.stdinPath then (← IO.getStdin).readBinToEnd
        else pure .empty
      return ⟨filesOf (configs ++ sources), stdin⟩

def runInvocation (environment : Environment) (invocation : Invocation) : IO UInt32 := do
  let conduct := conduct ⟨environment, ← inputOf environment invocation⟩ invocation
  (← IO.getStderr).putStr conduct.told
  match conduct.result with
  | .error failure => finish (conclude "" (.error failure))
  | .ok product => do
      let written ← emit (← IO.getStdout) product.pieces
      finish (conclude "" (written.map fun _ => ("", product.summary)))

end ScriptLexer.Main

open ScriptLexer ScriptLexer.Main in
def main (arguments : List String) : IO UInt32 := do
  let environment ← environment
  match CommandLine.Invocation.parse environment arguments with
  | .error stop => finish (CommandLine.stopped .unbounded stop)
  | .ok invocation => runInvocation environment invocation
