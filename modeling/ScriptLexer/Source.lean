import ScriptLexer.Files
import ScriptLexer.Lexer

/-! Sources: named texts, read from files or from standard input, and what lexing them to the end
gives. -/

namespace ScriptLexer

structure Source where
  name : String
  text : String
  deriving DecidableEq, Repr

/-- What a command reads from. Standard input is read at most once. -/
structure Input where
  files : FileSystem
  stdin : ByteArray

namespace Input

def stdinPath : String := "-"

def stdinName : String := "<stdin>"

def read (input : Input) (path : String) : Except ReadFault Source :=
  if path = stdinPath then (decodeText input.stdin).map (⟨stdinName, ·⟩)
  else (input.files.readText path).map (⟨path, ·⟩)

def afterRead (input : Input) (path : String) : Input :=
  if path = stdinPath then { input with stdin := .empty } else input

end Input

structure LexedSource where
  source : Source
  pulls : List Pull
  lexer : Lexer

namespace LexedSource

def ofSource (source : Source) : LexedSource :=
  let drained := (Lexer.ofText source.text.toList source.name).drain
  ⟨source, drained.1, drained.2⟩

def tokens (lexed : LexedSource) : List Token := lexed.pulls.filterMap Pull.token?

def reports (lexed : LexedSource) : List Diagnostic := lexed.pulls.filterMap Pull.report?

def failure? (lexed : LexedSource) : Option LexFailure := lexed.lexer.failure?

end LexedSource

def Input.lex (input : Input) : List String → List LexedSource × Option (String × ReadFault)
  | [] => ([], none)
  | path :: paths =>
      match input.read path with
      | .error fault => ([], some (path, fault))
      | .ok source =>
          let left := (input.afterRead path).lex paths
          (.ofSource source :: left.1, left.2)

end ScriptLexer
