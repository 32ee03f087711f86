import ScriptLexer.Command

namespace ScriptLexer.Command

structure Check where
  paths : List String
  quiet : Bool
  deriving DecidableEq, Repr

namespace Check

def events (lexed : LexedSource) : List Event :=
  lexed.reports.map .reported ++ [.checked lexed]

def summaryLine (summary : Summary) : String :=
  toString summary.files ++ " file(s) checked, " ++ toString summary.filesWithErrors ++
    " with errors\n"

def pieces (command : Check) (summary : Summary) : List Piece :=
  if command.quiet then [] else [.text (summaryLine summary)]

def perform (command : Check) (input : Input) : Performance :=
  let lexed := input.lex command.paths
  ⟨lexed.1.flatMap events,
    match lexed.2 with
    | some (path, fault) => .error (.read path fault)
    | none =>
        let summary := Summary.ofSources lexed.1
        .ok ⟨command.pieces summary, summary⟩⟩

end Check
end ScriptLexer.Command
