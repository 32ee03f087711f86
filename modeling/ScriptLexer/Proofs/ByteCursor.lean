import ScriptLexer.Proofs.Slices

/-! A cursor that keeps a byte position alone, and cuts what it looks at out of its text each time.
A cut is refused inside a character, and a loop may have no end. A cursor that has been led over
whole characters meets neither, and moves as the one that keeps what is left. -/

namespace ScriptLexer

structure Cut where
  start : Nat
  stop : Nat
  deriving DecidableEq, Repr

/-- A computation over a text. It has no value if it does not end, and breaks off at a cut that is
refused. -/
abbrev Run := ExceptT Cut Option

def slice (text : List Char) (start stop : Nat) : Run (List Char) :=
  match slice? text start stop with
  | some piece => pure piece
  | none => throw ⟨start, stop⟩

theorem slice_of_parts (front piece rest : List Char) :
    slice (front ++ (piece ++ rest)) (byteLength front) (byteLength (front ++ piece)) =
      pure piece := by
  rw [slice, slice?_eq_some_iff.mpr ⟨front, rest, rfl, rfl, rfl⟩]

structure ByteCursor where
  buffer : List Char
  position : Nat
  /-- Bounded as in `Cursor`: no counter of 32 bits wraps below `2 ^ 32 - 1` line terminators. -/
  line : Nat
  deriving DecidableEq, Repr

namespace ByteCursor

def remaining (cursor : ByteCursor) : Run (List Char) :=
  slice cursor.buffer cursor.position (byteLength cursor.buffer)

def sliceFrom (cursor : ByteCursor) (start : Nat) : Run (List Char) :=
  slice cursor.buffer start cursor.position

def current (cursor : ByteCursor) : Run (Option Char) := do
  return (← cursor.remaining).head?

def peekAt (cursor : ByteCursor) (count : Nat) : Run (Option Char) := do
  return (← cursor.remaining)[count]?

def atEnd (cursor : ByteCursor) : Bool := byteLength cursor.buffer ≤ cursor.position

def advance (cursor : ByteCursor) : Run ByteCursor := do
  match ← cursor.current with
  | none => return cursor
  | some c =>
      let moved := { cursor with position := cursor.position + c.utf8Size }
      let paired ← if c == '\r' then (· == some '\n') <$> moved.current else pure false
      return if isLineTerminator c && !paired then { moved with line := moved.line + 1 } else moved

def advanceBy : Nat → ByteCursor → Run ByteCursor
  | 0, cursor => return cursor
  | count + 1, cursor => do
      if cursor.atEnd then return cursor else advanceBy count (← cursor.advance)

def advanceWhile (holds : Char → Bool) (cursor : ByteCursor) : Run ByteCursor := do
  if (← cursor.current).any holds then (← cursor.advance) |>.advanceWhile holds else return cursor
partial_fixpoint

def expect (wanted : Char) (cursor : ByteCursor) : Run (Bool × ByteCursor) := do
  if (← cursor.current) == some wanted then return (true, ← cursor.advance)
  else return (false, cursor)

end ByteCursor

namespace Cursor

section Present

variable {cursor : Cursor} {holds : Char → Bool} {c : Char} {rest : List Char}
  (present : cursor.rest = c :: rest)
include present

theorem peekAt?_one : cursor.peekAt? 1 = rest.head? := by
  rw [peekAt?, present, List.getElem?_cons_succ, List.head?_eq_getElem?]

theorem advanceWhile_of_member (member : holds c = true) :
    cursor.advanceWhile holds = cursor.advance.advanceWhile holds := by
  have behind : cursor.advance.rest = rest := advance_rest_of_cons present
  rw [advanceWhile, advanceWhile, present, behind, List.takeWhile_cons_of_pos member,
    List.length_cons, Nat.add_comm, advanceBy_add, advanceBy_one]

theorem advanceWhile_of_stops (stops : ¬holds c = true) : cursor.advanceWhile holds = cursor := by
  rw [advanceWhile, present, List.takeWhile_cons_of_neg stops]
  rfl

end Present

section Expect

variable {cursor : Cursor} {wanted : Char}

theorem expect_of_current (found : cursor.current? = some wanted) :
    cursor.expect wanted = (true, cursor.advance) :=
  if_pos (beq_iff_eq.mpr found)

theorem expect_of_other (other : cursor.current? ≠ some wanted) :
    cursor.expect wanted = (false, cursor) :=
  if_neg (other ∘ beq_iff_eq.mp)

end Expect

def bytes (cursor : Cursor) : ByteCursor := ⟨cursor.buffer, cursor.offset, cursor.line⟩

def Sound (cursor : Cursor) : Prop := ∃ read, cursor.HasRead read

theorem sound_ofText (text : List Char) : (ofText text).Sound := ⟨[], hasRead_ofText text⟩

section Sound

variable {cursor : Cursor} (sound : cursor.Sound)
include sound

theorem Sound.advanceBy (count : Nat) : (cursor.advanceBy count).Sound := by
  obtain ⟨read, passed⟩ := sound
  exact ⟨_, passed.advanceBy count⟩

theorem Sound.advance : cursor.advance.Sound := advanceBy_one cursor ▸ sound.advanceBy 1

theorem bytes_remaining : cursor.bytes.remaining = pure cursor.rest := by
  obtain ⟨read, passed⟩ := sound
  have cut := slice_of_parts read cursor.rest []
  rw [List.append_nil, ← passed.buffer, ← passed.offset] at cut
  exact cut

theorem bytes_sliceFrom {front rest : List Char} (parts : cursor.rest = front ++ rest) :
    (cursor.advanceBy front.length).bytes.sliceFrom cursor.offset = pure front := by
  obtain ⟨read, passed⟩ := sound
  have moved := passed.advanceBy front.length
  have taken : cursor.rest.take front.length = front := by rw [parts, List.take_left]
  have cut := slice_of_parts read front (cursor.advanceBy front.length).rest
  rw [taken] at moved
  rw [← List.append_assoc, ← moved.buffer, ← moved.offset, ← passed.offset] at cut
  exact cut

theorem bytes_current : cursor.bytes.current = pure cursor.current? := by
  rw [ByteCursor.current, bytes_remaining sound, pure_bind, current?]

theorem bytes_current_of_cons {c : Char} {rest : List Char} (present : cursor.rest = c :: rest) :
    cursor.bytes.current = pure (some c) := by
  rw [bytes_current sound, current?, present, List.head?_cons]

theorem bytes_peekAt (count : Nat) :
    cursor.bytes.peekAt count = pure (cursor.peekAt? count) := by
  rw [ByteCursor.peekAt, bytes_remaining sound, pure_bind, peekAt?]

theorem bytes_atEnd : cursor.bytes.atEnd = cursor.atEnd := by
  obtain ⟨read, passed⟩ := sound
  rw [ByteCursor.atEnd, Cursor.atEnd, bytes, passed.buffer, passed.offset, byteLength_append]
  cases cursor.rest with
  | nil => simp [byteLength]
  | cons c rest =>
      have positive := byteLength_pos (List.cons_ne_nil c rest)
      simp only [List.isEmpty_cons, decide_eq_false_iff_not]
      omega

theorem bytes_advance : cursor.bytes.advance = pure cursor.advance.bytes := by
  rw [ByteCursor.advance, bytes_current sound, pure_bind]
  cases present : cursor.rest with
  | nil =>
      rw [advance_nil cursor present, current?, present]
      rfl
  | cons c rest =>
      -- The line is not looked at, so what stands at the new place is known before it is counted.
      have looked : ByteCursor.current ⟨cursor.buffer, cursor.offset + c.utf8Size, cursor.line⟩ =
          pure rest.head? := by
        have behind := bytes_current sound.advance
        rwa [current?, advance_rest, present, List.tail_cons, bytes, advance_buffer,
          show cursor.advance.offset = cursor.offset + c.utf8Size by simp only [advance, present]]
          at behind
      have ends : endsLine c rest.head? =
          (isLineTerminator c && !(c == '\r' && rest.head? == some '\n')) := rfl
      simp only [current?, present, List.head?_cons, bytes, looked, advance, ends]
      by_cases carriage : c = '\r'
      · simp only [carriage, BEq.rfl, if_true, map_pure, pure_bind, Bool.true_and]
        split <;> rfl
      · have other : (c == '\r') = false := beq_eq_false_iff_ne.mpr carriage
        simp only [other, Bool.false_eq_true, if_false, pure_bind, Bool.false_and]
        split <;> rfl

theorem bytes_advanceBy (count : Nat) :
    cursor.bytes.advanceBy count = pure (cursor.advanceBy count).bytes := by
  induction count generalizing cursor with
  | zero => rfl
  | succ count ih =>
      rw [ByteCursor.advanceBy, Cursor.advanceBy, bytes_atEnd sound]
      split
      · rfl
      · rw [bytes_advance sound, pure_bind]
        exact ih sound.advance

theorem bytes_advanceWhile (holds : Char → Bool) :
    cursor.bytes.advanceWhile holds = pure (cursor.advanceWhile holds).bytes := by
  -- The induction is on what is left, which every turn of the loop shortens.
  induction left : cursor.rest generalizing cursor with
  | nil =>
      rw [ByteCursor.advanceWhile, bytes_current sound, pure_bind, current?, Cursor.advanceWhile,
        left]
      rfl
  | cons c rest ih =>
      have behind : cursor.advance.rest = rest := advance_rest_of_cons left
      rw [ByteCursor.advanceWhile, bytes_current_of_cons sound left, pure_bind,
        Option.any_some]
      by_cases member : holds c = true
      · rw [if_pos member, bytes_advance sound, pure_bind, ih sound.advance behind,
          advanceWhile_of_member left member]
      · rw [if_neg member, advanceWhile_of_stops left member]

theorem bytes_expect (wanted : Char) :
    cursor.bytes.expect wanted =
      pure ((cursor.expect wanted).1, (cursor.expect wanted).2.bytes) := by
  rw [ByteCursor.expect, bytes_current sound, pure_bind]
  by_cases found : cursor.current? = some wanted
  · rw [if_pos (beq_iff_eq.mpr found), expect_of_current found, bytes_advance sound, pure_bind]
  · rw [if_neg (found ∘ beq_iff_eq.mp), expect_of_other found]

end Sound

end Cursor
end ScriptLexer
