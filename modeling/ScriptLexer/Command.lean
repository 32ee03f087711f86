import ScriptLexer.Event
import ScriptLexer.Failure
import ScriptLexer.Summary

/-! Commands. A command tells its events, then either fails or gives the output it wants written
and its summary. A sink settles what becomes of the output. -/

namespace ScriptLexer

structure Product where
  pieces : List Piece
  summary : Summary
  deriving DecidableEq, Repr

structure Performance where
  events : List Event
  result : Except Failure Product

namespace Product

def text (product : Product) : String := String.join (product.pieces.map Piece.content)

def writeTo (product : Product) (sink : Sink) : Except Failure (String × Summary) :=
  match sink.write "" product.pieces with
  | .ok written => .ok (written, product.summary)
  | .error refusal => .error (.ofRefusal refusal)

end Product

def Performance.writeTo (performance : Performance) (sink : Sink) :
    Except Failure (String × Summary) :=
  performance.result >>= fun product => product.writeTo sink

inductive CommandName
  | tokens
  | check
  | codes
  deriving DecidableEq, Repr

namespace CommandName

def all : List CommandName := [tokens, check, codes]

def text : CommandName → String
  | tokens => "tokens"
  | check => "check"
  | codes => "codes"

def ofText? (text : String) : Option CommandName := all.find? fun name => name.text == text

def description : CommandName → String
  | tokens => "Print the token stream of each input"
  | check => "Report lexical errors without printing tokens"
  | codes => "List lexical error codes"

def help : CommandName → String
  | tokens =>
      "Lexes each input file and prints one token per line, or a JSON array with the tokens and " ++
        "recorded errors of every file."
  | check =>
      "Lexes each input file, reports every lexical error to stderr and exits with status 1 if " ++
        "any file had errors."
  | codes =>
      "Prints every error code with its message, or only the message of the code given as " ++
        "`TS1002` or `1002`."

end CommandName
end ScriptLexer
