import ScriptLexer.Source

namespace ScriptLexer

structure Summary where
  files : Nat
  filesWithErrors : Nat
  errorLines : Nat
  deriving DecidableEq, Repr

namespace Summary

def empty : Summary := ⟨0, 0, 0⟩

def record (summary : Summary) : Option LexFailure → Summary
  | none => { summary with files := summary.files + 1 }
  | some failure =>
      ⟨summary.files + 1, summary.filesWithErrors + 1, summary.errorLines + failure.errors.count⟩

def isClean (summary : Summary) : Bool := summary.filesWithErrors == 0

def add (first second : Summary) : Summary :=
  ⟨first.files + second.files, first.filesWithErrors + second.filesWithErrors,
    first.errorLines + second.errorLines⟩

def ofSources (sources : List LexedSource) : Summary :=
  sources.foldl (fun summary lexed => summary.record lexed.failure?) empty

def history (summary : Summary) : List (Option LexFailure) → List Summary
  | [] => [summary]
  | outcome :: outcomes => summary :: (summary.record outcome).history outcomes

end Summary
end ScriptLexer
