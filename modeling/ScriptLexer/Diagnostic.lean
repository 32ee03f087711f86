import ScriptLexer.ErrorCode

/-! A diagnostic: what was reported, where, as plain text and as text for a colour terminal. -/

namespace ScriptLexer

structure Diagnostic where
  source : String
  code : ErrorCode
  line : Nat
  deriving DecidableEq, Repr

namespace Diagnostic

def plain (diagnostic : Diagnostic) : String :=
  diagnostic.source ++ ":" ++ toString diagnostic.line ++ " - error " ++ diagnostic.code.label ++
    ": " ++ diagnostic.code.message

def paint (colour text : String) : String := "\x1b[" ++ colour ++ "m" ++ text ++ "\x1b[39m"

def green : String := "38;2;139;186;127"

def yellow : String := "33"

def red : String := "31"

def grey : String := "90"

def painted (diagnostic : Diagnostic) : String :=
  paint green diagnostic.source ++ ":" ++ paint yellow (toString diagnostic.line) ++ " - " ++
    paint red "error" ++ " " ++ paint grey (diagnostic.code.label ++ ":") ++ " " ++
    diagnostic.code.message

end Diagnostic
end ScriptLexer
