import ScriptLexer.Proofs.ByteLiteral
import ScriptLexer.Proofs.ByteNumbers
import ScriptLexer.Proofs.Requests

/-! The lexer over bytes. From every place that a lexer reaches, its calls end, none of their cuts
is refused, and they give what the pulls of the lexer give; so does a whole drain. -/

namespace ScriptLexer

namespace Cursor

section Leading

variable {cursor : Cursor} (sound : cursor.Sound) {c : Char} {text : List Char}
  (present : cursor.rest = c :: text)
include sound present

theorem bytes_atNumber :
    cursor.bytes.atNumber = pure ((isSign c || c == '.') && text.head?.any isDecimalDigit) := by
  rw [ByteCursor.atNumber, bytes_current_of_cons sound present, pure_bind,
    Option.any_some, bytes_peekAt sound, peekAt?_one present, pure_bind]
  cases isSign c || c == '.' <;> rfl

/-- Behind an operator's first character, only a digit makes it a number. -/
theorem bytes_punctuator (start : isOperatorStart c = true) :
    cursor.bytes.punctuator = pure (cursor.along
      (if Scan.startsNumber (c :: text) then Scan.number (c :: text)
        else Scan.punctuator c text)) := by
  have table : operatorStarts.any isDecimalDigit = false := by decide
  have member : c ∈ operatorStarts := by simpa [isOperatorStart] using start
  have undigital : isDecimalDigit c = false :=
    Bool.eq_false_iff.mpr (List.any_eq_false.mp table c member)
  have starts : Scan.startsNumber (c :: text) =
      ((isSign c || c == '.') && text.head?.any isDecimalDigit) := by
    rw [Scan.startsNumber, undigital, Bool.false_or]
  rw [ByteCursor.punctuator, bytes_atNumber sound present, pure_bind, starts]
  split
  · rw [bytes_number sound, present]
  · exact bytes_operator sound present start

theorem bytes_comment (slash : c = '/') :
    cursor.bytes.comment = pure (cursor.along (Scan.slash c text)) := by
  rw [ByteCursor.comment, bytes_peekAt sound, peekAt?_one present, pure_bind]
  split
  · rename_i first
    obtain ⟨body, rfl⟩ := List.head?_eq_some_iff.mp first
    exact bytes_lineComment sound present rfl slash
  · rename_i first
    obtain ⟨body, rfl⟩ := List.head?_eq_some_iff.mp first
    exact bytes_blockComment sound present rfl slash
  · rename_i line block
    have unnumbered : Scan.startsNumber (c :: text) = false := by
      rw [slash]
      rfl
    have operator := bytes_punctuator sound present (by rw [slash]; decide)
    have single : Scan.slash c text = Scan.punctuator c text := by
      unfold Scan.slash
      split
      · exact absurd rfl line
      · exact absurd rfl block
      · rfl
    rw [unnumbered] at operator
    rw [single]
    exact operator

theorem bytes_leading :
    cursor.bytes.leading c = pure (cursor.along (Scan.leading c text)) := by
  rw [ByteCursor.leading, Scan.leading]
  by_cases slash : isCommentStart c = true
  · rw [if_pos slash, if_pos slash]
    exact bytes_comment sound present (by simpa [isCommentStart] using slash)
  rw [if_neg slash, if_neg slash]
  by_cases start : isOperatorStart c = true
  · rw [if_pos start, if_pos start]
    exact bytes_punctuator sound present start
  rw [if_neg start, if_neg start]
  have starts : Scan.startsNumber (c :: text) = isDecimalDigit c := by
    have unsigned : (isSign c || c == '.') = false := by
      apply Bool.eq_false_iff.mpr
      intro signed
      simp only [isSign, Bool.or_eq_true, beq_iff_eq] at signed
      rcases signed with (rfl | rfl) | rfl <;> exact start (by decide)
    rw [Scan.startsNumber, unsigned, Bool.false_and, Bool.or_false]
  rw [starts]
  by_cases digit : isDecimalDigit c = true
  · rw [if_pos digit, if_pos digit, bytes_number sound, present]
  rw [if_neg digit, if_neg digit]
  by_cases quoting : isQuote c = true
  · rw [if_pos quoting, if_pos quoting]
    exact bytes_literal sound present quoting
  rw [if_neg quoting, if_neg quoting]
  by_cases identifier : isIdentifierStart c = true
  · rw [if_pos identifier, if_pos identifier]
    exact bytes_word sound present identifier
  rw [if_neg identifier, if_neg identifier]
  exact bytes_structural sound c text

end Leading

section Next

variable {cursor : Cursor} (sound : cursor.Sound)
include sound

theorem bytes_next :
    cursor.bytes.next = pure (match Scan.leading? (cursor.rest.dropWhile isWhitespace) with
      | none => (.ok .eof, (cursor.advanceWhile isWhitespace).bytes)
      | some scan => (cursor.advanceWhile isWhitespace).along scan) := by
  induction left : cursor.rest generalizing cursor with
  | nil =>
      rw [ByteCursor.next, bytes_current sound, pure_bind, current?, advanceWhile, left]
      rfl
  | cons c rest ih =>
      rw [ByteCursor.next, bytes_current_of_cons sound left, pure_bind]
      by_cases blank : isWhitespace c = true
      · have behind : cursor.advance.rest = rest := advance_rest_of_cons left
        simp only [blank, if_true, bytes_advance sound, pure_bind, ih sound.advance behind,
          List.dropWhile_cons_of_pos blank, advanceWhile_of_member left blank]
      · simp only [blank, List.dropWhile_cons_of_neg blank, advanceWhile_of_stops left blank,
          Scan.leading?]
        exact bytes_leading sound left

end Next

end Cursor

/-- What a pull finds: its token, or the fault that it reports in place of one. -/
def Pull.found (pull : Pull) : Except ScanFault Token :=
  match pull.report? with
  | some report => .error ⟨report.code, report.line⟩
  | none => .ok pull.token

namespace Lexer

theorem consume_along (lexer : Lexer) (scan : Scan) :
    lexer.cursor.along scan =
      ((lexer.consume scan).found, (lexer.consume scan).lexer.cursor.bytes) := by
  rw [consume_cursor, Cursor.along, Cursor.scanned, ← List.length_append]
  unfold consume
  cases scan.verdict <;> rfl

theorem bytes_next {lexer : Lexer} (sound : lexer.cursor.Sound) :
    lexer.cursor.bytes.next = pure (lexer.next.found, lexer.next.lexer.cursor.bytes) := by
  rw [Cursor.bytes_next sound]
  cases visible : lexer.cursor.rest.dropWhile isWhitespace with
  | nil =>
      rw [next_of_blank visible]
      rfl
  | cons c text =>
      rw [next_of_visible visible]
      exact congrArg pure (consume_along lexer.skipWhitespace (Scan.leading c text))

theorem next_sound {lexer : Lexer} (sound : lexer.cursor.Sound) :
    lexer.next.lexer.cursor.Sound := by
  have skipped : lexer.skipWhitespace.cursor.Sound := sound.advanceBy _
  cases visible : lexer.cursor.rest.dropWhile isWhitespace with
  | nil =>
      rw [next_of_blank visible]
      exact skipped
  | cons c text =>
      rw [next_of_visible visible, consume_cursor]
      exact skipped.advanceBy _

theorem found_of_token {lexer : Lexer} (found : lexer.next.token?.isSome = true) :
    lexer.next.found.toOption.any Token.isEof = false := by
  unfold Pull.found
  cases lexer.next.report? with
  | some report => rfl
  | none => exact next_token_not_eof found

theorem bytes_drain {lexer : Lexer} (sound : lexer.cursor.Sound) :
    lexer.cursor.bytes.drain =
      pure (lexer.drain.1.map Pull.found, lexer.drain.2.cursor.bytes) := by
  fun_induction drain lexer with
  | case1 lexer pull found left ih =>
      have later : lexer.next.lexer.cursor.bytes.drain =
          pure (left.1.map Pull.found, left.2.cursor.bytes) := ih (next_sound sound)
      rw [ByteCursor.drain, bytes_next sound, pure_bind]
      simp only [found_of_token found, Bool.false_eq_true, if_false, later, pure_bind,
        List.map_cons]
      rfl
  | case2 lexer pull finished =>
      rw [ByteCursor.drain, bytes_next sound, pure_bind, next_of_end finished]
      rfl

theorem pull_sound (count : Nat) {lexer : Lexer} (sound : lexer.cursor.Sound) :
    (lexer.pull count).2.cursor.Sound := by
  induction count generalizing lexer with
  | zero => exact sound
  | succ count ih =>
      by_cases found : lexer.next.token?.isSome = true
      · rw [pull_of_found found]
        exact ih (next_sound sound)
      · rw [pull_of_end found]
        exact next_sound sound

end Lexer

namespace Session

theorem after_sound (text : List Char) (requests : List Request) :
    ((start text).after requests).lexer.cursor.Sound := by
  have begun : (start text).lexer.cursor.Sound := Cursor.sound_ofText text
  generalize start text = session at begun
  induction requests generalizing session with
  | nil => exact begun
  | cons request requests ih =>
      rw [after_cons, handle_session]
      apply ih
      have moved := Lexer.pull_sound (request.reach session.lexer) begun
      cases request with
      | reset => exact Cursor.sound_ofText _
      | resetTo text => exact Cursor.sound_ofText text
      | _ => exact moved

end Session
end ScriptLexer
