import ScriptLexer.ErrorCode
import ScriptLexer.Token

/-! What a scanner makes of the text it is given. It reads `seen`, at the end of which the verdict
is known, passes over `skipped` to recover from a fault, and leaves `rest`. -/

namespace ScriptLexer

inductive Verdict
  | token (token : Token)
  | fault (code : ErrorCode)
  deriving DecidableEq, Repr

structure Scan where
  verdict : Verdict
  seen : List Char
  skipped : List Char
  rest : List Char
  deriving DecidableEq, Repr

namespace Scan

def accept (token : Token) (seen rest : List Char) : Scan := ⟨.token token, seen, [], rest⟩

def reject (code : ErrorCode) (seen skipped rest : List Char) : Scan :=
  ⟨.fault code, seen, skipped, rest⟩

def Covers (scan : Scan) (text : List Char) : Prop :=
  scan.seen ++ scan.skipped ++ scan.rest = text

theorem rest_length_lt (scan : Scan) (text : List Char) (covers : scan.Covers text)
    (progress : scan.seen ++ scan.skipped ≠ []) : scan.rest.length < text.length := by
  have positive := List.length_pos_iff.mpr progress
  rw [← covers, List.length_append]
  omega

end Scan
end ScriptLexer
