import ScriptLexer.Command
import ScriptLexer.Listing

namespace ScriptLexer

inductive OutputFormat
  | text
  | json
  deriving DecidableEq, Repr

namespace OutputFormat

def all : List OutputFormat := [text, json]

def name : OutputFormat → String
  | text => "text"
  | json => "json"

def ofName? (name : String) : Option OutputFormat := all.find? fun format => format.name == name

end OutputFormat

namespace Command

structure Tokens where
  paths : List String
  format : OutputFormat
  includeComments : Bool
  deriving DecidableEq, Repr

namespace Tokens

def events (lexed : LexedSource) : List Event :=
  .lexing lexed.source :: lexed.reports.map .reported

def pieces (command : Tokens) (sources : List LexedSource) : List Piece :=
  let listings := sources.map (Listing.ofSource command.includeComments)
  match command.format with
  | .text => [.text (Listing.text listings)]
  | .json => [.document (Listing.document listings), .text "\n"]

def perform (command : Tokens) (input : Input) : Performance :=
  let lexed := input.lex command.paths
  ⟨lexed.1.flatMap events,
    match lexed.2 with
    | some (path, fault) => .error (.read path fault)
    | none => .ok ⟨command.pieces lexed.1, .ofSources lexed.1⟩⟩

end Tokens
end Command
end ScriptLexer
