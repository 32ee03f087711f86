import ScriptLexer.Cursor

/-! What can be asked of a cursor, as data, and the answers. A run of moves is a fold of
`Cursor.handle`. -/

namespace ScriptLexer.Cursor

inductive Move
  | current
  | peek
  | peekAt (count : Nat)
  | advance
  | advanceBy (count : Nat)
  | advanceWhile (member : CharClass)
  | expect (wanted : Char)
  | sliceFrom (start : Nat)
  | remaining
  | buffer
  | reset
  | resetTo (text : List Char)
  deriving DecidableEq, Repr

inductive Answer
  | done
  | character (found : Option Char)
  | matched (found : Bool)
  | text (text : List Char)
  | noSlice
  deriving DecidableEq, Repr

def handle (cursor : Cursor) : Move → Answer × Cursor
  | .current => (.character cursor.current?, cursor)
  | .peek => (.character cursor.peek?, cursor)
  | .peekAt count => (.character (cursor.peekAt? count), cursor)
  | .advance => (.done, cursor.advance)
  | .advanceBy count => (.done, cursor.advanceBy count)
  | .advanceWhile member => (.done, cursor.advanceWhile member.holds)
  | .expect wanted => (.matched (cursor.expect wanted).1, (cursor.expect wanted).2)
  | .sliceFrom start => ((cursor.sliceFrom? start).elim .noSlice .text, cursor)
  | .remaining => (.text cursor.rest, cursor)
  | .buffer => (.text cursor.buffer, cursor)
  | .reset => (.done, cursor.reset)
  | .resetTo text => (.done, ofText text)

def run (cursor : Cursor) : List Move → List (Answer × Cursor)
  | [] => []
  | move :: moves =>
      let answered := cursor.handle move
      answered :: answered.2.run moves

end ScriptLexer.Cursor
