import ScriptLexer.Cursor
import ScriptLexer.Diagnostic.LineErrors
import ScriptLexer.Scan.Leading

/-! The lexer: a cursor, the name its reports carry, and the errors of the lines it has read. A
pull skips whitespace and takes the scan at the head of what is left; a fault is reported on the
line that its text reaches, and stands in the stream as an invalid token. -/

namespace ScriptLexer

structure Lexer where
  cursor : Cursor
  source : String
  errors : LineErrors
  deriving DecidableEq, Repr

/-- What a pull gives: a token unless the text was at its end, at most one report, and the lexer
after it. -/
structure Pull where
  token? : Option Token
  report? : Option Diagnostic
  lexer : Lexer
  deriving DecidableEq, Repr

def Pull.token (pull : Pull) : Token := pull.token?.getD .eof

structure LexFailure where
  source : String
  errors : LineErrors
  deriving DecidableEq, Repr

def LexFailure.message (failure : LexFailure) : String :=
  toString failure.errors.count ++ " lexical error(s) in " ++ failure.source

namespace Lexer

def defaultSource : String := "<input>"

def ofText (text : List Char) (source : String) : Lexer := ⟨.ofText text, source, .empty⟩

def rename (lexer : Lexer) (source : String) : Lexer := { lexer with source }

def reset (lexer : Lexer) : Lexer := { lexer with cursor := lexer.cursor.reset, errors := .empty }

def resetTo (lexer : Lexer) (text : List Char) : Lexer :=
  { lexer with cursor := .ofText text, errors := .empty }

def skipWhitespace (lexer : Lexer) : Lexer :=
  { lexer with cursor := lexer.cursor.advanceWhile isWhitespace }

def consume (lexer : Lexer) (scan : Scan) : Pull :=
  let seen := lexer.cursor.advanceBy scan.seen.length
  let cursor := seen.advanceBy scan.skipped.length
  match scan.verdict with
  | .token token => ⟨some token, none, { lexer with cursor }⟩
  | .fault code =>
      ⟨some .invalid, some ⟨lexer.source, code, seen.line⟩,
        { lexer with cursor, errors := lexer.errors.insert seen.line code }⟩

def next (lexer : Lexer) : Pull :=
  let start := lexer.skipWhitespace
  match Scan.leading? start.cursor.rest with
  | none => ⟨none, none, start⟩
  | some scan => start.consume scan

theorem skipWhitespace_rest (lexer : Lexer) :
    lexer.skipWhitespace.cursor.rest = lexer.cursor.rest.dropWhile isWhitespace :=
  Cursor.advanceWhile_rest isWhitespace lexer.cursor

theorem consume_rest (lexer : Lexer) (scan : Scan) (covers : scan.Covers lexer.cursor.rest) :
    (lexer.consume scan).lexer.cursor.rest = scan.rest := by
  have moved : ((lexer.cursor.advanceBy scan.seen.length).advanceBy scan.skipped.length).rest =
      scan.rest := by
    rw [Cursor.advanceBy_rest, Cursor.advanceBy_rest, ← covers]
    simp
  unfold consume
  cases scan.verdict <;> exact moved

theorem next_rest_length_lt (lexer : Lexer) (found : lexer.next.token?.isSome = true) :
    lexer.next.lexer.cursor.rest.length < lexer.cursor.rest.length := by
  have skipped := (List.dropWhile_suffix (l := lexer.cursor.rest) isWhitespace).length_le
  rw [← skipWhitespace_rest] at skipped
  unfold next at found ⊢
  simp only at found ⊢
  split at found
  · cases found
  · rename_i scan leads
    have shorter := Scan.leading?_rest_length_lt _ _ leads
    have covers : scan.Covers lexer.skipWhitespace.cursor.rest := by
      generalize lexer.skipWhitespace.cursor.rest = rest at leads
      cases rest with
      | nil => cases leads
      | cons c text =>
          obtain rfl := Option.some.inj leads
          exact Scan.leading_covers c text
    rw [consume_rest _ _ covers]
    omega

/-- The pulls that give tokens, in order, and the lexer after the one that meets the end. -/
def drain (lexer : Lexer) : List Pull × Lexer :=
  let pull := lexer.next
  if _found : pull.token?.isSome then
    let left := pull.lexer.drain
    (pull :: left.1, left.2)
  else ([], pull.lexer)
  termination_by lexer.cursor.rest.length
  decreasing_by exact next_rest_length_lt lexer _found

/-- At most `count` pulls that give tokens. The end of the text is met only by a pull beyond the
last token. -/
def pull : Nat → Lexer → List Pull × Lexer
  | 0, lexer => ([], lexer)
  | count + 1, lexer =>
      let first := lexer.next
      if first.token?.isSome then
        let left := pull count first.lexer
        (first :: left.1, left.2)
      else ([], first.lexer)

def failure? (lexer : Lexer) : Option LexFailure :=
  if lexer.errors.isEmpty then none else some ⟨lexer.source, lexer.errors⟩

end Lexer
end ScriptLexer
