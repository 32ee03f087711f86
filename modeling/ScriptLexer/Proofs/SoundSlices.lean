import ScriptLexer.Proofs.ByteLexer
import ScriptLexer.Proofs.CursorPlace

/-! Places and slices. What a cursor tells is known from the number of characters it has passed, and
a lexer, wherever its requests have taken it, asks for no slice that does not begin and end where a
character does. -/

namespace ScriptLexer

theorem slice_iff {text : List Char} {start stop : Nat} :
    (∃ piece, slice text start stop = pure piece) ↔
      Boundary text start ∧ Boundary text stop ∧ start ≤ stop := by
  rw [← slice?_isSome_iff, slice]
  cases slice? text start stop with
  | some piece => exact iff_of_true ⟨piece, rfl⟩ rfl
  | none =>
      refine iff_of_false ?_ (by simp)
      rintro ⟨piece, given⟩
      cases given

structure SlicesSoundly (lexer : Lexer) : Prop where
  next : lexer.cursor.bytes.next = pure (lexer.next.found, lexer.next.lexer.cursor.bytes)
  drain : lexer.cursor.bytes.drain =
    pure (lexer.drain.1.map Pull.found, lexer.drain.2.cursor.bytes)

/-- After any operations, a cursor is over the text last given to it and stands behind a number of
its characters, from which all else follows. A slice is there exactly between boundaries, and those
of a lexer are all there. -/
theorem cursor_known_slices_sound :
    (∀ (text : List Char) (operations : List Cursor.Operation),
      let cursor := (Cursor.ofText text).after operations
      cursor.buffer = operations.foldl Cursor.Operation.textOver text ∧
        ∃ count, cursor.Reached count) ∧
    (∀ (text : List Char) (start stop : Nat),
      (∃ piece, slice text start stop = pure piece) ↔
        Boundary text start ∧ Boundary text stop ∧ start ≤ stop) ∧
    ∀ (text : List Char) (requests : List Session.Request),
      SlicesSoundly ((Session.start text).after requests).lexer := by
  refine ⟨fun text operations => ?_, fun text start stop => slice_iff, fun text requests => ?_⟩
  · obtain ⟨count, within, placed⟩ := Cursor.place_after (Nat.zero_le text.length) operations
    rw [← Cursor.ofText_eq_place] at placed
    rw [placed]
    exact ⟨rfl, count, Cursor.place_reached within⟩
  · have sound := Session.after_sound text requests
    exact ⟨Lexer.bytes_next sound, Lexer.bytes_drain sound⟩

end ScriptLexer
