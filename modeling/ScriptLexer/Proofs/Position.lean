import Mathlib.Data.String.Basic
import ScriptLexer.Cursor

/-! Where a cursor stands. Its offset is the length of what it has read, its line grows by the
lines that end there, and a slice up to it is the end of what it has read. -/

namespace ScriptLexer

theorem byteLength_eq_utf8Len (text : List Char) : byteLength text = String.utf8Len text := by
  induction text with
  | nil => rfl
  | cons c text ih => rw [byteLength, String.utf8Len_cons, ih, Nat.add_comm]

theorem byteLength_eq_utf8ByteSize (text : List Char) :
    byteLength text = (String.ofList text).utf8ByteSize :=
  (byteLength_eq_utf8Len text).trans (String.utf8ByteSize_ofList text).symm

theorem byteLength_append (front back : List Char) :
    byteLength (front ++ back) = byteLength front + byteLength back := by
  simp only [byteLength_eq_utf8Len, String.utf8Len_append]

theorem dropBytes?_byteLength (front back : List Char) :
    dropBytes? (byteLength front) (front ++ back) = some back := by
  induction front with
  | nil => simp [byteLength, dropBytes?]
  | cons c front ih =>
      have positive : 0 < c.utf8Size := c.utf8Size_pos
      obtain ⟨count, same⟩ : ∃ count, byteLength (c :: front) = count + 1 :=
        ⟨byteLength (c :: front) - 1, by simp only [byteLength]; omega⟩
      have fits : c.utf8Size ≤ count + 1 := by
        rw [← same]
        exact Nat.le_add_right _ _
      have left : count + 1 - c.utf8Size = byteLength front := by
        rw [← same]
        exact Nat.add_sub_cancel_left _ _
      rw [same, List.cons_append, dropBytes?, if_pos fits, left]
      exact ih

/-- The lines that end in `read`, behind which `following` stands. -/
def lineEnds : List Char → List Char → Nat
  | [], _ => 0
  | c :: read, following =>
      (if Cursor.endsLine c (read ++ following).head? then 1 else 0) + lineEnds read following

theorem lineEnds_append (front back following : List Char) :
    lineEnds (front ++ back) following =
      lineEnds front (back ++ following) + lineEnds back following := by
  induction front with
  | nil => simp [lineEnds]
  | cons c front ih =>
      simp only [List.cons_append, lineEnds, ih, List.append_assoc]
      omega

theorem lineEnds_le_terminators (read following : List Char) :
    lineEnds read following ≤ read.countP isLineTerminator := by
  induction read with
  | nil => exact Nat.le_refl 0
  | cons c read ih =>
      rw [lineEnds, List.countP_cons]
      by_cases ends : Cursor.endsLine c (read ++ following).head? = true
      · have terminator : isLineTerminator c = true := by
          rw [Cursor.endsLine, Bool.and_eq_true] at ends
          exact ends.1
        rw [if_pos ends, if_pos terminator]
        omega
      · rw [if_neg ends]
        omega

/-- What stands behind matters only to a carriage return at the end. -/
theorem lineEnds_congr (read : List Char) {following other : List Char}
    (same : following.head? = other.head? ∨ read.getLast? ≠ some '\r') :
    lineEnds read following = lineEnds read other := by
  induction read with
  | nil => rfl
  | cons c read ih =>
      cases read with
      | nil =>
          have ends : Cursor.endsLine c following.head? = Cursor.endsLine c other.head? := by
            rcases same with heads | last
            · rw [heads]
            · have other : (c == '\r') = false := by simpa using last
              simp only [Cursor.endsLine, other, Bool.false_and]
          simp only [lineEnds, List.nil_append, ends]
      | cons d read =>
          rw [List.getLast?_cons_cons] at same
          change _ + lineEnds (d :: read) following = _ + lineEnds (d :: read) other
          rw [ih same]
          rfl

theorem lineEnds_feed (read following : List Char) :
    lineEnds (read ++ ['\n']) following = lineEnds (read ++ ['\n']) [] :=
  lineEnds_congr _ (.inr (by simp))

namespace Cursor

theorem advance_rest_of_cons {cursor : Cursor} {c : Char} {rest : List Char}
    (present : cursor.rest = c :: rest) : cursor.advance.rest = rest := by
  rw [advance_rest, present, List.tail_cons]

theorem advanceBy_one (cursor : Cursor) : cursor.advanceBy 1 = cursor.advance := by
  rw [advanceBy]
  split
  · rename_i finished
    exact (advance_nil cursor (List.isEmpty_iff.mp finished)).symm
  · rfl

theorem advanceBy_line (count : Nat) (cursor : Cursor) :
    (cursor.advanceBy count).line =
      cursor.line + lineEnds (cursor.rest.take count) (cursor.rest.drop count) := by
  induction count generalizing cursor with
  | zero => simp [advanceBy, lineEnds]
  | succ count ih =>
      cases present : cursor.rest with
      | nil => simp [advanceBy, atEnd, present, lineEnds]
      | cons c rest =>
          have moved : cursor.advance.rest = rest := advance_rest_of_cons present
          have counted : cursor.advance.line =
              cursor.line + if endsLine c rest.head? then 1 else 0 := by
            simp only [advance, present]
            split <;> rfl
          have more : cursor.atEnd = false := by rw [atEnd, present, List.isEmpty_cons]
          rw [advanceBy, more, if_neg Bool.false_ne_true, ih, moved, counted, List.take_succ_cons,
            List.drop_succ_cons, lineEnds, List.take_append_drop]
          omega

def endOffset (cursor : Cursor) : Nat := cursor.offset + byteLength cursor.rest

theorem advance_endOffset (cursor : Cursor) : cursor.advance.endOffset = cursor.endOffset := by
  unfold endOffset advance
  split
  · rfl
  · rename_i c rest present
    rw [present, byteLength, Nat.add_assoc]

theorem advanceBy_endOffset (count : Nat) (cursor : Cursor) :
    (cursor.advanceBy count).endOffset = cursor.endOffset := by
  induction count generalizing cursor with
  | zero => rfl
  | succ count ih =>
      unfold advanceBy
      split
      · rfl
      · rw [ih, advance_endOffset]

structure HasRead (cursor : Cursor) (read : List Char) : Prop where
  buffer : cursor.buffer = read ++ cursor.rest
  offset : cursor.offset = byteLength read

theorem hasRead_ofText (text : List Char) : (ofText text).HasRead [] := ⟨rfl, rfl⟩

theorem HasRead.advance {cursor : Cursor} {read : List Char} (before : cursor.HasRead read) :
    cursor.advance.HasRead (read ++ cursor.rest.take 1) := by
  obtain ⟨buffer, offset⟩ := before
  unfold Cursor.advance
  split
  · rename_i finished
    exact ⟨by simpa [finished] using buffer, by simpa [finished] using offset⟩
  · rename_i c rest present
    refine ⟨by simpa [present] using buffer, ?_⟩
    simp [present, byteLength_append, byteLength, offset]

theorem HasRead.advanceBy {cursor : Cursor} {read : List Char} (before : cursor.HasRead read)
    (count : Nat) : (cursor.advanceBy count).HasRead (read ++ cursor.rest.take count) := by
  induction count generalizing cursor read with
  | zero => simpa [Cursor.advanceBy] using before
  | succ count ih =>
      unfold Cursor.advanceBy
      split
      · rename_i finished
        have nothing : cursor.rest = [] := by simpa [atEnd] using finished
        simpa [nothing] using before
      · have after := ih before.advance
        rwa [List.append_assoc, advance_rest, ← List.drop_one, ← List.take_add,
          Nat.add_comm] at after

theorem HasRead.sliceFrom? {cursor : Cursor} {front span : List Char}
    (whole : cursor.HasRead (front ++ span)) :
    cursor.sliceFrom? (byteLength front) = some span := by
  have reached : byteLength front ≤ cursor.offset := by
    rw [whole.offset, byteLength_append]
    exact Nat.le_add_right _ _
  rw [Cursor.sliceFrom?, if_pos reached, whole.buffer, List.append_assoc, dropBytes?_byteLength]
  simp

end Cursor
end ScriptLexer
