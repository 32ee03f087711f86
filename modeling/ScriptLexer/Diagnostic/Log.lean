import ScriptLexer.Diagnostic

/-! A log of diagnostics in the order in which they were reported. It only grows. -/

namespace ScriptLexer

structure Log where
  entries : List Diagnostic
  deriving DecidableEq, Repr

namespace Log

def empty : Log := ⟨[]⟩

def report (log : Log) (diagnostic : Diagnostic) : Log := ⟨log.entries ++ [diagnostic]⟩

def append (log : Log) (diagnostics : List Diagnostic) : Log := ⟨log.entries ++ diagnostics⟩

def count (log : Log) : Nat := log.entries.length

def hasErrors (log : Log) : Bool := !log.entries.isEmpty

def codes (log : Log) : List ErrorCode := log.entries.map Diagnostic.code

def history (log : Log) : List Diagnostic → List Log
  | [] => []
  | diagnostic :: diagnostics =>
      log.report diagnostic :: (log.report diagnostic).history diagnostics

end Log
end ScriptLexer
