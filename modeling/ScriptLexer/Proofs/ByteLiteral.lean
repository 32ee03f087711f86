import ScriptLexer.Proofs.ByteWords
import ScriptLexer.Proofs.LiteralGrammar

/-! String literals over bytes. The body ends at its quote, at a character that no body holds or at
a malformed escape, behind which recovery ends as well. -/

namespace ScriptLexer

namespace Scan

def outcome : Option ErrorCode → Except ErrorCode Unit
  | none => .ok ()
  | some code => .error code

theorem plain_of_left {c : Char}
    (left : ¬(isNonFormattingEscape c || isNonEscapeCharacter c) = true) :
    c ≠ '\\' ∧ isQuote c = false := by
  have unescaped : isNonFormattingEscape c = false := by
    apply Bool.eq_false_iff.mpr
    intro escaped
    exact left (by rw [escaped, Bool.true_or])
  rw [isNonFormattingEscape, Bool.or_eq_false_iff] at unescaped
  exact ⟨by simpa using unescaped.2, unescaped.1⟩

theorem left_of_outside {c : Char} (outside : ¬isStringCharacter c = true) :
    ¬(isNonFormattingEscape c || isNonEscapeCharacter c) = true := by
  rw [isStringCharacter_iff] at outside
  by_cases separator : c = '\u2028'
  · subst separator
    decide
  · by_cases paragraph : c = '\u2029'
    · subst paragraph
      decide
    · exact absurd ⟨separator, paragraph⟩ outside

end Scan

namespace Cursor

section Escape

variable {cursor : Cursor} (sound : cursor.Sound)
include sound

theorem advanceBy_offset {front rest : List Char} (parts : cursor.rest = front ++ rest) :
    (cursor.advanceBy front.length).offset = cursor.offset + byteLength front := by
  obtain ⟨read, passed⟩ := sound
  rw [(passed.advanceBy front.length).offset, parts, List.take_left, byteLength_append,
    ← passed.offset]

/-- Behind the brace that opens it, an escape is read as its scan reads it from the brace on. -/
theorem bytes_codePoint {body : List Char} (present : cursor.rest = '\x7b' :: body) :
    cursor.advance.bytes.codePoint = pure (cursor.scanned
      (Scan.outcome (Scan.escape ('\x7b' :: body)).fault)
      (Scan.escape ('\x7b' :: body)).taken.length 0) := by
  have behind : cursor.advance.rest = body := advance_rest_of_cons present
  have parts : cursor.advance.rest = body.takeWhile isHexDigit ++ body.dropWhile isHexDigit := by
    rw [behind, List.takeWhile_append_dropWhile]
  have cut := bytes_sliceFrom sound.advance parts
  have reached := advanceBy_offset sound.advance parts
  have after := sound.advance.advanceBy (body.takeWhile isHexDigit).length
  have left : (cursor.advance.advanceBy (body.takeWhile isHexDigit).length).rest =
      body.dropWhile isHexDigit := by
    rw [advanceBy_rest, parts, List.drop_left]
  have fails (code : ErrorCode) :
      (cursor.advance.advanceBy (body.takeWhile isHexDigit).length).bytes.fail code =
        (cursor.scanned (.error code) ('\x7b' :: body.takeWhile isHexDigit).length 0 :
          Scanned Unit) := by
    rw [bytes_fail, scanned_advanceBy, scanned_advance]
    rfl
  simp only [ByteCursor.codePoint, bytes_advanceWhile sound.advance, advanceWhile, behind,
    pure_bind]
  change (cursor.advance.advanceBy _).bytes.sliceFrom cursor.advance.offset >>= _ = _
  rw [cut, pure_bind, bytes_current after, pure_bind, current?, left]
  cases ended : body.dropWhile isHexDigit with
  | nil =>
      rw [Scan.escape_unended (by simp [ended]) (by simp [ended])]
      exact congrArg pure (fails _)
  | cons d rest =>
      by_cases closed : d = '\x7d'
      · subst closed
        rw [Scan.escape_ended ended]
        change (if (cursor.advance.advanceBy _).offset ≤ cursor.advance.offset then _ else _) = _
        rw [reached]
        cases digits : body.takeWhile isHexDigit with
        | nil =>
            rw [digits] at fails
            rw [byteLength, Nat.add_zero, if_pos (Nat.le_refl _), fails]
            rfl
        | cons first more =>
            have positive := byteLength_pos (List.cons_ne_nil first more)
            rw [digits] at fails after
            rw [if_neg (by omega), List.isEmpty_cons, if_neg Bool.false_ne_true]
            by_cases valid : (Scan.hexadecimal? (first :: more)).any (· ≤ Scan.escapeLimit) = true
            · rw [if_pos valid, if_pos valid, bytes_advance after, pure_bind, bytes_done,
                scanned_advance, scanned_advanceBy, scanned_advance]
              simp [Scan.outcome]
            · rw [if_neg valid, if_neg valid]
              exact congrArg pure (fails _)
      · by_cases again : d = '\x7b'
        · subst again
          rw [Scan.escape_reopened ended]
          exact congrArg pure (fails _)
        · have unended : ∀ rest, body.dropWhile isHexDigit ≠ '\x7d' :: rest := by
            intro rest same
            exact closed (List.cons.inj (ended.symm.trans same)).1
          have single : ∀ rest, body.dropWhile isHexDigit ≠ '\x7b' :: rest := by
            intro rest same
            exact again (List.cons.inj (ended.symm.trans same)).1
          rw [Scan.escape_unended unended single, List.head?_cons]
          split
          · exact absurd (Option.some.inj ‹_›) closed
          · exact absurd (Option.some.inj ‹_›) again
          · exact congrArg pure (fails _)

theorem bytes_codePointEscape {text : List Char} (present : cursor.rest = 'u' :: text) :
    cursor.bytes.codePointEscape = pure (cursor.scanned (Scan.outcome (Scan.escape text).fault)
      ((Scan.escape text).taken.length + 1) 0) := by
  have behind : cursor.advance.rest = text := advance_rest_of_cons present
  rw [← scanned_advance, ByteCursor.codePointEscape, bytes_advance sound, pure_bind,
    bytes_expect sound.advance, pure_bind]
  by_cases opened : cursor.advance.current? = some '\x7b'
  · obtain ⟨body, left⟩ := List.head?_eq_some_iff.mp opened
    rw [expect_of_current opened, ← behind, left]
    exact bytes_codePoint sound.advance left
  · have unopened : ∀ tail, text ≠ '\x7b' :: tail := by
      intro tail same
      exact opened (by rw [current?, behind, same, List.head?_cons])
    rw [expect_of_other opened, Scan.escape_unopened unopened]
    rfl

end Escape

section Literal

variable {quote : Char}

theorem bytes_passTail_cons {cursor : Cursor} (sound : cursor.Sound) {c : Char} {text : List Char}
    (present : cursor.rest = c :: text) :
    cursor.bytes.passTail quote =
      if c = quote then pure cursor.advance.bytes
      else if isStringCharacter c then
        if c = '\\' then cursor.advance.advance.bytes.passTail quote
        else cursor.advance.bytes.passTail quote
      else pure cursor.bytes := by
  rw [ByteCursor.passTail, bytes_current_of_cons sound present, pure_bind]
  simp only [bytes_advance sound, bytes_advance sound.advance, pure_bind]

variable (plain : '\\' ≠ quote)
include plain

theorem bytes_passTail {cursor : Cursor} (sound : cursor.Sound) :
    cursor.bytes.passTail quote =
      pure (cursor.advanceBy (Scan.literalTail quote cursor.rest).length).bytes := by
  generalize present : cursor.rest = text
  fun_induction Scan.literalTail quote text generalizing cursor with
  | case1 =>
      rw [ByteCursor.passTail, bytes_current sound, pure_bind, current?, present]
      rfl
  | case2 c text ih =>
      have behind : cursor.advance.advance.rest = text := by
        rw [advance_rest, advance_rest, present, List.tail_cons, List.tail_cons]
      rw [bytes_passTail_cons sound present, if_neg plain, if_pos (by decide), if_pos rfl,
        ih sound.advance.advance behind, advance_advanceBy, advance_advanceBy]
      rfl
  | case3 text =>
      rw [bytes_passTail_cons sound present, if_pos rfl, ← advanceBy_one]
      rfl
  | case4 c text last other member ih =>
      have behind : cursor.advance.rest = text := advance_rest_of_cons present
      have step := ih sound.advance behind
      rw [advance_advanceBy] at step
      rw [bytes_passTail_cons sound present, if_neg other, if_pos member]
      by_cases slash : c = '\\'
      · have nothing : text = [] := by
          cases text with
          | nil => rfl
          | cons d text => exact absurd rfl (last d text slash)
        rw [if_pos slash, advance_nil _ (behind.trans nothing)]
        exact step
      · rw [if_neg slash]
        exact step
  | case5 c text last other outside =>
      rw [bytes_passTail_cons sound present, if_neg other, if_neg outside]
      rfl

end Literal

section Body

variable {quote : Char}

theorem bytes_literalBody_cons {cursor : Cursor} (sound : cursor.Sound) {c : Char}
    {text : List Char} (present : cursor.rest = c :: text) :
    cursor.bytes.literalBody quote =
      if c = quote then pure cursor.advance.bytes.done
      else if c = '\\' then do
        match ← cursor.bytes.escapeSequence with
        | (.ok (), cursor) => cursor.literalBody quote
        | (.error fault, cursor) => return (.error fault, ← cursor.passTail quote)
      else if isStringCharacter c then cursor.advance.bytes.literalBody quote
      else pure (cursor.bytes.fail .unterminatedStringLiteral) := by
  rw [ByteCursor.literalBody, bytes_current_of_cons sound present, pure_bind, bytes_advance sound]
  rfl

section Escape

variable {cursor : Cursor} (sound : cursor.Sound) {c : Char} {text : List Char}
include sound

theorem bytes_escapeSequence_letter (present : cursor.rest = '\\' :: 'u' :: text) :
    cursor.bytes.escapeSequence = pure (cursor.scanned (Scan.outcome (Scan.escape text).fault)
      ((Scan.escape text).taken.length + 2) 0) := by
  have behind : cursor.advance.rest = 'u' :: text := advance_rest_of_cons present
  rw [ByteCursor.escapeSequence, bytes_advance sound, pure_bind,
    bytes_current_of_cons sound.advance behind, pure_bind]
  simp only [if_true]
  rw [bytes_codePointEscape sound.advance behind, scanned_advance]

theorem bytes_escapeSequence_taken (present : cursor.rest = '\\' :: c :: text) (other : c ≠ 'u')
    (taken : (isNonFormattingEscape c || isNonEscapeCharacter c) = true) :
    cursor.bytes.escapeSequence = pure cursor.advance.advance.bytes.done := by
  have behind : cursor.advance.rest = c :: text := advance_rest_of_cons present
  rw [ByteCursor.escapeSequence, bytes_advance sound, pure_bind,
    bytes_current_of_cons sound.advance behind, pure_bind]
  simp only [if_neg other, if_pos taken]
  rw [bytes_advance sound.advance, pure_bind]

theorem bytes_escapeSequence_left (present : cursor.rest = '\\' :: text)
    (left : ∀ c, text.head? = some c →
      c ≠ 'u' ∧ ¬(isNonFormattingEscape c || isNonEscapeCharacter c) = true) :
    cursor.bytes.escapeSequence = pure cursor.advance.bytes.done := by
  have behind : cursor.advance.rest = text := advance_rest_of_cons present
  rw [ByteCursor.escapeSequence, bytes_advance sound, pure_bind, bytes_current sound.advance,
    pure_bind, current?, behind]
  cases first : text.head? with
  | none => rfl
  | some c =>
      obtain ⟨other, outside⟩ := left c first
      simp only [if_neg other, if_neg outside]

end Escape

def alongBody (cursor : Cursor) (body : Scan.Body) : Scanned Unit :=
  cursor.scanned (Scan.outcome body.fault) body.seen.length body.skipped.length

theorem alongBody_prepend (cursor : Cursor) (taken : List Char) (body : Scan.Body) :
    (cursor.advanceBy taken.length).alongBody body = cursor.alongBody (body.prepend taken) := by
  rw [alongBody, scanned_advanceBy, ← List.length_append]
  rfl

section Turn

variable {cursor : Cursor} (sound : cursor.Sound) {c : Char} {text : List Char}
include sound

theorem bytes_literalBody_escaped (plain : '\\' ≠ quote) (present : cursor.rest = '\\' :: text)
    {moved : ByteCursor} (passed : cursor.bytes.escapeSequence = pure moved.done) :
    cursor.bytes.literalBody quote = moved.literalBody quote := by
  rw [bytes_literalBody_cons sound present, if_neg plain, if_pos rfl, passed, pure_bind]
  rfl

theorem bytes_literalBody_left (quoting : isQuote quote = true) (present : cursor.rest = c :: text)
    (left : ¬(isNonFormattingEscape c || isNonEscapeCharacter c) = true) :
    cursor.bytes.literalBody quote =
      if isStringCharacter c then cursor.advance.bytes.literalBody quote
      else pure (cursor.bytes.fail .unterminatedStringLiteral) := by
  obtain ⟨unescaped, unquoted⟩ := Scan.plain_of_left left
  have other : c ≠ quote := by
    rintro rfl
    exact Bool.false_ne_true (unquoted.symm.trans quoting)
  rw [bytes_literalBody_cons sound present, if_neg other, if_neg unescaped]

end Turn

theorem bytes_literalBody (quoting : isQuote quote = true) {cursor : Cursor}
    (sound : cursor.Sound) :
    cursor.bytes.literalBody quote = pure (cursor.alongBody (Scan.body quote cursor.rest)) := by
  have plain : '\\' ≠ quote := (Scan.quote_ne_backslash quoting).symm
  generalize present : cursor.rest = text
  fun_induction Scan.body quote text generalizing cursor with
  | case1 =>
      rw [ByteCursor.literalBody, bytes_current sound, pure_bind, current?, present]
      rfl
  | case2 text escaped code =>
      rename_i faulty
      have behind : (cursor.advanceBy (escaped.taken.length + 2)).rest = escaped.rest := by
        rw [advanceBy_rest, present, ← Scan.escape_covers text]
        exact List.drop_left
      rw [bytes_literalBody_cons sound present, if_neg plain, if_pos rfl,
        bytes_escapeSequence_letter sound present, pure_bind, faulty]
      change (cursor.advanceBy _).bytes.passTail quote >>= _ = _
      rw [Nat.add_zero, bytes_passTail plain (sound.advanceBy _), behind, pure_bind,
        ← advanceBy_add]
      rfl
  | case3 text escaped valid =>
      rename_i ih
      have behind : (cursor.advanceBy (escaped.taken.length + 2)).rest = escaped.rest := by
        rw [advanceBy_rest, present, ← Scan.escape_covers text]
        exact List.drop_left
      have passed := bytes_escapeSequence_letter sound present
      rw [valid] at passed
      rw [bytes_literalBody_escaped sound plain present passed]
      exact (ih (sound.advanceBy _) behind).trans
        (congrArg pure (alongBody_prepend cursor ('\\' :: 'u' :: escaped.taken) _))
  | case4 c text other member ih =>
      have behind : cursor.advance.rest = c :: text := advance_rest_of_cons present
      have later := ih sound.advance.advance (advance_rest_of_cons behind)
      have moved : cursor.advance.advance = cursor.advanceBy ['\\', c].length := by
        rw [← advanceBy_one cursor.advance, advance_advanceBy]
        rfl
      rw [← alongBody_prepend, ← moved, ← later]
      by_cases taken : (isNonFormattingEscape c || isNonEscapeCharacter c) = true
      · exact bytes_literalBody_escaped sound plain present
          (bytes_escapeSequence_taken sound present other taken)
      · have passed := bytes_escapeSequence_left sound present fun d first => by
          obtain rfl := Option.some.inj first
          exact ⟨other, taken⟩
        rw [bytes_literalBody_escaped sound plain present passed,
          bytes_literalBody_left sound.advance quoting behind taken, if_pos member]
  | case5 c text other outside =>
      have behind : cursor.advance.rest = c :: text := advance_rest_of_cons present
      have left := Scan.left_of_outside outside
      have passed := bytes_escapeSequence_left sound present fun d first => by
        obtain rfl := Option.some.inj first
        exact ⟨other, left⟩
      rw [bytes_literalBody_escaped sound plain present passed,
        bytes_literalBody_left sound.advance quoting behind left, if_neg outside, bytes_fail,
        scanned_advance]
      rfl
  | case6 text =>
      rw [bytes_literalBody_cons sound present, if_pos rfl, ← advanceBy_one]
      rfl
  | case7 c text _ lone other member ih =>
      have behind : cursor.advance.rest = text := advance_rest_of_cons present
      have later := ih sound.advance behind
      have moved : cursor.advance = cursor.advanceBy [c].length := (advanceBy_one cursor).symm
      rw [← alongBody_prepend, ← moved, ← later]
      by_cases slash : c = '\\'
      · subst slash
        have passed := bytes_escapeSequence_left sound present fun d first => by
          obtain ⟨tail, parts⟩ := List.head?_eq_some_iff.mp first
          exact (lone d tail rfl parts).elim
        exact bytes_literalBody_escaped sound plain present passed
      · rw [bytes_literalBody_cons sound present, if_neg other, if_neg slash, if_pos member]
  | case8 c text _ lone other outside =>
      have slash : c ≠ '\\' := by
        rintro rfl
        exact outside (by decide)
      rw [bytes_literalBody_cons sound present, if_neg other, if_neg slash, if_neg outside]
      rfl

theorem bytes_literal {cursor : Cursor} (sound : cursor.Sound) {text : List Char}
    (present : cursor.rest = quote :: text) (quoting : isQuote quote = true) :
    cursor.bytes.literal quote = pure (cursor.along (Scan.quoted quote text)) := by
  have behind : cursor.advance.rest = text := advance_rest_of_cons present
  have covers := Scan.quoted_covers quote text
  unfold Scan.quoted at covers ⊢
  simp only [ByteCursor.literal, bytes_advance sound, bytes_literalBody quoting sound.advance,
    pure_bind, behind, alongBody, scanned_advance]
  cases ended : (Scan.body quote text).fault with
  | some code => rfl
  | none =>
      simp only [ended] at covers
      have skipped := Scan.body_skipped_of_sound quote text ended
      have parts : cursor.rest = (quote :: (Scan.body quote text).seen) ++
          (Scan.body quote text).rest := by
        rw [present, ← covers]
        simp [Scan.accept]
      rw [skipped]
      change (cursor.advanceBy (quote :: (Scan.body quote text).seen).length).bytes.sliceFrom
        cursor.offset >>= _ = _
      rw [bytes_sliceFrom sound parts, pure_bind]
      rfl

end Body

end Cursor
end ScriptLexer
