import ScriptLexer.Diagnostic

/-! How diagnostics reach a console: whether they are printed at all, and whether in colour. The
two settings are independent: a silent console still renders. -/

namespace ScriptLexer

structure Console where
  color : Bool
  enabled : Bool
  deriving DecidableEq, Repr

namespace Console

def printing (color : Bool) : Console := ⟨color, true⟩

def silent : Console := ⟨false, false⟩

/-- The mode in which a console that follows its environment prints nothing. -/
def testMode : String := "test"

def ofMode (mode : Option String) (color : Bool) : Console := ⟨color, mode != some testMode⟩

def ofModeDefault (mode : Option String) : Console := ofMode mode true

def forCommand (mode : Option String) (color quiet : Bool) : Console :=
  if quiet then silent else ofMode mode color

def render (console : Console) (diagnostic : Diagnostic) : String :=
  if console.color then diagnostic.painted else diagnostic.plain

end Console
end ScriptLexer
