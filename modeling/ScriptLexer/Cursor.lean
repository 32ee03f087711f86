import ScriptLexer.Characters

/-! A cursor over source text. It moves by whole characters and keeps the byte offset and the line
of its place as it goes; `rest` is what it has still to read. -/

namespace ScriptLexer

structure Cursor where
  buffer : List Char
  rest : List Char
  offset : Nat
  /-- A counter of 32 bits that starts at 1 shows the same number in every text of fewer than
  `2 ^ 32 - 1` line terminators. -/
  line : Nat
  deriving DecidableEq, Repr

def byteLength : List Char → Nat
  | [] => 0
  | c :: text => c.utf8Size + byteLength text

/-- Leaves out the first `count` bytes of `text`, if they are the bytes of whole characters. -/
def dropBytes? : Nat → List Char → Option (List Char)
  | 0, text => some text
  | _ + 1, [] => none
  | count + 1, c :: text =>
      if c.utf8Size ≤ count + 1 then dropBytes? (count + 1 - c.utf8Size) text else none

theorem drop_length_takeWhile (holds : Char → Bool) (text : List Char) :
    text.drop (text.takeWhile holds).length = text.dropWhile holds := by
  induction text with
  | nil => rfl
  | cons c text ih => by_cases member : holds c <;> simp [member, ih]

namespace Cursor

def ofText (text : List Char) : Cursor := ⟨text, text, 0, 1⟩

def current? (cursor : Cursor) : Option Char := cursor.rest.head?

def peekAt? (cursor : Cursor) (count : Nat) : Option Char := cursor.rest[count]?

def peek? (cursor : Cursor) : Option Char := cursor.peekAt? 1

def atEnd (cursor : Cursor) : Bool := cursor.rest.isEmpty

/-- A line ends at its terminator; of a carriage return and a line feed, at the line feed. -/
def endsLine (c : Char) (next : Option Char) : Bool :=
  isLineTerminator c && !(c == '\r' && next == some '\n')

def advance (cursor : Cursor) : Cursor :=
  match cursor.rest with
  | [] => cursor
  | c :: rest =>
      ⟨cursor.buffer, rest, cursor.offset + c.utf8Size,
        if endsLine c rest.head? then cursor.line + 1 else cursor.line⟩

def advanceBy : Nat → Cursor → Cursor
  | 0, cursor => cursor
  | count + 1, cursor => if cursor.atEnd then cursor else advanceBy count cursor.advance

def advanceWhile (holds : Char → Bool) (cursor : Cursor) : Cursor :=
  cursor.advanceBy (cursor.rest.takeWhile holds).length

def expect (wanted : Char) (cursor : Cursor) : Bool × Cursor :=
  if cursor.current? == some wanted then (true, cursor.advance) else (false, cursor)

/-- The text from byte `start` up to the cursor. There is none when `start` lies behind the cursor
or inside a character. -/
def sliceFrom? (cursor : Cursor) (start : Nat) : Option (List Char) :=
  if start ≤ cursor.offset then
    (dropBytes? start cursor.buffer).map fun tail => tail.take (tail.length - cursor.rest.length)
  else none

def reset (cursor : Cursor) : Cursor := ofText cursor.buffer

theorem advance_nil (cursor : Cursor) (finished : cursor.rest = []) : cursor.advance = cursor := by
  simp [advance, finished]

theorem advance_rest (cursor : Cursor) : cursor.advance.rest = cursor.rest.tail := by
  unfold advance
  split <;> simp_all

theorem advance_buffer (cursor : Cursor) : cursor.advance.buffer = cursor.buffer := by
  unfold advance
  split <;> rfl

theorem advanceBy_rest (count : Nat) (cursor : Cursor) :
    (cursor.advanceBy count).rest = cursor.rest.drop count := by
  induction count generalizing cursor with
  | zero => rfl
  | succ count ih =>
      unfold advanceBy
      split
      · rename_i finished
        simp_all [atEnd]
      · rw [ih, advance_rest, List.drop_tail]

theorem advanceBy_buffer (count : Nat) (cursor : Cursor) :
    (cursor.advanceBy count).buffer = cursor.buffer := by
  induction count generalizing cursor with
  | zero => rfl
  | succ count ih =>
      unfold advanceBy
      split
      · rfl
      · rw [ih, advance_buffer]

theorem advanceBy_add (first second : Nat) (cursor : Cursor) :
    cursor.advanceBy (first + second) = (cursor.advanceBy first).advanceBy second := by
  induction first generalizing cursor with
  | zero => simp [advanceBy]
  | succ first ih =>
      rw [show first + 1 + second = first + second + 1 by omega]
      by_cases finished : cursor.atEnd = true
      · cases second <;> simp [advanceBy, finished]
      · simp only [advanceBy, finished]
        exact ih cursor.advance

theorem advanceWhile_rest (holds : Char → Bool) (cursor : Cursor) :
    (cursor.advanceWhile holds).rest = cursor.rest.dropWhile holds := by
  rw [advanceWhile, advanceBy_rest, drop_length_takeWhile]

end Cursor
end ScriptLexer
