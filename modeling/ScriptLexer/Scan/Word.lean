import ScriptLexer.Characters
import ScriptLexer.Scan

/-! Words: the longest run of identifier characters, whole, is a word of the vocabulary or an
identifier. -/

namespace ScriptLexer.Scan

def word (text : List Char) : Scan :=
  let run := text.takeWhile isIdentifierPart
  accept (Token.ofWord run) run (text.dropWhile isIdentifierPart)

theorem word_covers (text : List Char) : (word text).Covers text := by
  simp [word, Covers, accept, List.takeWhile_append_dropWhile]

end ScriptLexer.Scan
