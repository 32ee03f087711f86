import ScriptLexer.Characters
import ScriptLexer.Scan

/-! Comments. One that two slashes open ends in front of the line terminator, one that a slash and
a star open ends behind the first star and slash after them. -/

namespace ScriptLexer.Scan

/-- A comment that two slashes open, `text` being what follows them. -/
def lineComment (text : List Char) : Scan :=
  let seen := '/' :: '/' :: text.takeWhile fun c => !isLineTerminator c
  accept (Token.ofText .singleLineComment seen) seen (text.dropWhile fun c => !isLineTerminator c)

def upToClose? : List Char → Option (List Char)
  | '*' :: '/' :: _ => some ['*', '/']
  | [] => none
  | c :: text => (upToClose? text).map (c :: ·)

def blockComment (text : List Char) : Scan :=
  match upToClose? text with
  | some inside =>
      let seen := '/' :: '*' :: inside
      accept (Token.ofText .multiLineComment seen) seen (text.drop inside.length)
  | none => reject .unterminatedComment ('/' :: '*' :: text) [] []

theorem upToClose?_append (text inside : List Char) (found : upToClose? text = some inside) :
    inside ++ text.drop inside.length = text := by
  fun_induction upToClose? text generalizing inside with
  | case1 => obtain rfl := Option.some.inj found; rfl
  | case2 => cases found
  | case3 c text _ ih =>
      obtain ⟨tail, closed, rfl⟩ := Option.map_eq_some_iff.mp found
      simp [ih tail closed]

theorem lineComment_covers (text : List Char) :
    (lineComment text).Covers ('/' :: '/' :: text) := by
  simp [lineComment, Covers, accept, List.takeWhile_append_dropWhile]

theorem blockComment_covers (text : List Char) :
    (blockComment text).Covers ('/' :: '*' :: text) := by
  unfold blockComment
  split
  · rename_i inside found
    simp [Covers, accept, upToClose?_append text inside found]
  · simp [Covers, reject]

end ScriptLexer.Scan
