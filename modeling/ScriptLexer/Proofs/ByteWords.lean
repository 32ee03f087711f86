import ScriptLexer.Proofs.ByteScan
import ScriptLexer.Proofs.Dispatch
import ScriptLexer.Proofs.LongestMatch
import ScriptLexer.Proofs.Run

/-! Words, structural characters, comments and operators over bytes. Each scanner ends, cuts only
where characters begin, and gives what the scan of what is left gives. -/

namespace ScriptLexer

def Verdict.found : Verdict → Except ErrorCode Token
  | .token accepted => .ok accepted
  | .fault code => .error code

namespace ByteCursor

theorem length_characterEnds (count offset : Nat) (text : List Char) :
    (characterEnds count offset text).length = min count text.length := by
  fun_induction characterEnds count offset text with
  | case1 => simp
  | case2 => simp
  | case3 count offset c text ih =>
      rw [List.length_cons, ih, List.length_cons]
      omega

theorem characterEnds_getD {count index : Nat} (offset : Nat) (text : List Char)
    (noted : index < (characterEnds count offset text).length) :
    (characterEnds count offset text).getD index 0 =
      offset + byteLength (text.take (index + 1)) := by
  fun_induction characterEnds count offset text generalizing index with
  | case1 => exact absurd noted (Nat.not_lt_zero _)
  | case2 => exact absurd noted (Nat.not_lt_zero _)
  | case3 count offset c text ih =>
      cases index with
      | zero => simp [byteLength]
      | succ index =>
          rw [List.getD_cons_succ, ih (Nat.lt_of_succ_lt_succ noted), List.take_succ_cons,
            byteLength, Nat.add_assoc]

section Longest

variable {seen rest : List Char} {kind : TokenKind} (best : Scan.LongestPunctuator seen rest kind)
include best

theorem longest_from {ends : List Nat} {length : Nat} (reaches : seen.length ≤ length)
    (within : length ≤ (seen ++ rest).length)
    (cut : ∀ index < length, slice (seen ++ rest) 0 (ends.getD index 0) =
      pure ((seen ++ rest).take (index + 1))) :
    longest (seen ++ rest) ends length = pure (some (seen.length, Token.ofText kind seen)) := by
  induction length with
  | zero =>
      have visible := (Vocabulary.operatorStart_of_punctuatorKind? best.known).1
      exact absurd (List.length_eq_zero_iff.mp (Nat.le_zero.mp reaches)) visible
  | succ length ih =>
      rw [longest, cut length (Nat.lt_succ_self length), pure_bind]
      rcases Nat.lt_or_eq_of_le reaches with longer | exactly
      · have behind : (seen ++ rest).take (length + 1) =
            seen ++ rest.take (length + 1 - seen.length) := by
          rw [List.take_append, List.take_of_length_le reaches]
        have more : rest.take (length + 1 - seen.length) ≠ [] := by
          rw [List.length_append] at within
          intro nothing
          have counted := congrArg List.length nothing
          rw [List.length_take, List.length_nil] at counted
          omega
        rw [behind, best.longest _ more (List.take_prefix _ rest)]
        exact ih (Nat.le_of_lt_succ longer) (Nat.le_of_succ_le within)
          fun index below => cut index (Nat.lt_succ_of_lt below)
      · rw [← exactly, List.take_left, best.known]

theorem longest_ends (bound : Nat) (short : seen.length ≤ bound) :
    longest (seen ++ rest) (characterEnds bound 0 (seen ++ rest))
      (characterEnds bound 0 (seen ++ rest)).length =
        pure (some (seen.length, Token.ofText kind seen)) := by
  have count := length_characterEnds bound 0 (seen ++ rest)
  apply longest_from best
  · rw [count, List.length_append]
    omega
  · rw [count]
    exact Nat.min_le_right _ _
  · intro index noted
    rw [characterEnds_getD 0 _ noted, Nat.zero_add]
    have cut := slice_of_parts [] ((seen ++ rest).take (index + 1))
      ((seen ++ rest).drop (index + 1))
    rwa [List.take_append_drop] at cut

end Longest

end ByteCursor

namespace Cursor

/-- What is found behind `seen` characters, with the cursor behind `skipped` more. -/
def scanned {α : Type} (cursor : Cursor) (found : Except ErrorCode α) (seen skipped : Nat) :
    Scanned α :=
  (found.mapError fun code => ⟨code, (cursor.advanceBy seen).line⟩,
    (cursor.advanceBy (seen + skipped)).bytes)

def along (cursor : Cursor) (scan : Scan) : Scanned Token :=
  cursor.scanned scan.verdict.found scan.seen.length scan.skipped.length

theorem advance_advanceBy (cursor : Cursor) (steps : Nat) :
    cursor.advance.advanceBy steps = cursor.advanceBy (steps + 1) := by
  rw [← advanceBy_one, ← advanceBy_add, Nat.add_comm]

theorem scanned_advanceBy {α : Type} (cursor : Cursor) (found : Except ErrorCode α)
    (steps seen skipped : Nat) :
    (cursor.advanceBy steps).scanned found seen skipped =
      cursor.scanned found (steps + seen) skipped := by
  rw [scanned, scanned, ← advanceBy_add, ← advanceBy_add, Nat.add_assoc]

theorem scanned_advance {α : Type} (cursor : Cursor) (found : Except ErrorCode α)
    (seen skipped : Nat) :
    cursor.advance.scanned found seen skipped = cursor.scanned found (seen + 1) skipped := by
  rw [← advanceBy_one, scanned_advanceBy, Nat.add_comm]

theorem along_accept (cursor : Cursor) (token : Token) (seen rest : List Char) :
    cursor.along (.accept token seen rest) = (.ok token, (cursor.advanceBy seen.length).bytes) := rfl

theorem along_reject (cursor : Cursor) (code : ErrorCode) (seen skipped rest : List Char) :
    cursor.along (.reject code seen skipped rest) =
      cursor.scanned (.error code) seen.length skipped.length := rfl

theorem bytes_done (cursor : Cursor) : cursor.bytes.done = cursor.scanned (.ok ()) 0 0 := rfl

theorem bytes_fail {α : Type} (cursor : Cursor) (code : ErrorCode) :
    cursor.bytes.fail code = (cursor.scanned (.error code) 0 0 : Scanned α) := rfl

section Scanner

variable {cursor : Cursor} (sound : cursor.Sound)
include sound

theorem bytes_atClose {c : Char} {rest : List Char} (present : cursor.rest = c :: rest) :
    cursor.bytes.atClose c = pure (c == '*' && rest.head? == some '/') := by
  rw [ByteCursor.atClose, bytes_peekAt sound, peekAt?_one present, map_pure]
  cases c == '*' <;> rfl

theorem bytes_passComment :
    cursor.bytes.passComment = pure ((Scan.upToClose? cursor.rest).elim
      (cursor.scanned (.error .unterminatedComment) cursor.rest.length 0)
      fun inside => cursor.scanned (.ok ()) inside.length 0) := by
  induction left : cursor.rest generalizing cursor with
  | nil =>
      rw [ByteCursor.passComment, bytes_current sound, pure_bind, current?, left]
      rfl
  | cons c rest ih =>
      have behind : cursor.advance.rest = rest := advance_rest_of_cons left
      rw [ByteCursor.passComment, bytes_current_of_cons sound left, pure_bind]
      simp only [bytes_atClose sound left, pure_bind, bytes_advanceBy sound, bytes_advance sound,
        ih sound.advance behind]
      by_cases closes : c = '*' ∧ rest.head? = some '/'
      · obtain ⟨rfl, first⟩ := closes
        obtain ⟨tail, rfl⟩ := List.head?_eq_some_iff.mp first
        rfl
      · have plain : ∀ tail, c = '*' → rest = '/' :: tail → False := fun tail star slash =>
          closes ⟨star, by rw [slash, List.head?_cons]⟩
        have opened : ¬(c == '*' && rest.head? == some '/') = true := by simpa using closes
        rw [if_neg opened, Scan.upToClose?.eq_3 c rest plain]
        cases Scan.upToClose? rest with
        | none => exact congrArg pure (scanned_advance _ _ _ _)
        | some inside => exact congrArg pure (scanned_advance _ _ _ _)

section Present

variable {c : Char} {text : List Char} (present : cursor.rest = c :: text)
include present

theorem bytes_word (start : isIdentifierStart c = true) :
    cursor.bytes.word = pure (cursor.along (Scan.word (c :: text))) := by
  have member : isIdentifierPart c = true := by simp [isIdentifierPart, start]
  have moved : cursor.advance.advanceWhile isIdentifierPart =
      cursor.advanceBy ((c :: text).takeWhile isIdentifierPart).length := by
    rw [← advanceWhile_of_member present member, advanceWhile, present]
  have cut := bytes_sliceFrom sound
    (present.trans (List.takeWhile_append_dropWhile (p := isIdentifierPart)).symm)
  simp only [ByteCursor.word, bytes_advance sound, bytes_advanceWhile sound.advance, pure_bind,
    moved]
  change (cursor.advanceBy _).bytes.sliceFrom cursor.offset >>= _ = _
  rw [cut, pure_bind]
  rfl

theorem bytes_lineComment {body : List Char} (opens : text = '/' :: body) (slash : c = '/') :
    cursor.bytes.lineComment = pure (cursor.along (Scan.lineComment body)) := by
  subst opens slash
  have moved : (cursor.advanceBy 2).advanceWhile (fun c => !isLineTerminator c) =
      cursor.advanceBy ('/' :: '/' :: body.takeWhile fun c => !isLineTerminator c).length := by
    rw [advanceWhile, advanceBy_rest, present, ← advanceBy_add, Nat.add_comm]
    rfl
  have parts : cursor.rest = ('/' :: '/' :: body.takeWhile fun c => !isLineTerminator c) ++
      body.dropWhile fun c => !isLineTerminator c := by
    rw [present, List.cons_append, List.cons_append, List.takeWhile_append_dropWhile]
  simp only [ByteCursor.lineComment, bytes_advanceBy sound, bytes_advanceWhile (sound.advanceBy 2),
    pure_bind, moved]
  change (cursor.advanceBy _).bytes.sliceFrom cursor.offset >>= _ = _
  rw [bytes_sliceFrom sound parts, pure_bind]
  rfl

theorem bytes_blockComment {body : List Char} (opens : text = '*' :: body) (slash : c = '/') :
    cursor.bytes.blockComment = pure (cursor.along (Scan.blockComment body)) := by
  subst opens slash
  have behind : (cursor.advanceBy 2).rest = body := by rw [advanceBy_rest, present]; rfl
  simp only [ByteCursor.blockComment, bytes_advanceBy sound, bytes_passComment (sound.advanceBy 2),
    pure_bind, behind, scanned_advanceBy]
  cases found : Scan.upToClose? body with
  | none =>
      rw [Scan.blockComment, found, along_reject, List.length_cons, List.length_cons, Nat.add_comm]
      rfl
  | some inside =>
      have parts : cursor.rest = ('/' :: '*' :: inside) ++ body.drop inside.length := by
        rw [present, List.cons_append, List.cons_append, Scan.upToClose?_append body inside found]
      change (cursor.advanceBy (2 + inside.length)).bytes.sliceFrom cursor.offset >>= _ = _
      rw [Nat.add_comm]
      change (cursor.advanceBy ('/' :: '*' :: inside).length).bytes.sliceFrom cursor.offset >>= _ =
        _
      rw [bytes_sliceFrom sound parts, pure_bind, Scan.blockComment, found]
      rfl

end Present

theorem bytes_structural (c : Char) (text : List Char) :
    cursor.bytes.structural c = pure (cursor.along (Scan.structural c text)) := by
  rw [ByteCursor.structural, bytes_advance sound, pure_bind, Scan.structural, ← advanceBy_one]
  cases Vocabulary.structuralKind? c with
  | some kind => rfl
  | none => rfl

theorem bytes_operator {c : Char} {text : List Char} (present : cursor.rest = c :: text)
    (start : isOperatorStart c = true) :
    cursor.bytes.operator = pure (cursor.along (Scan.punctuator c text)) := by
  obtain ⟨seen, rest, kind, parts, best, scanned⟩ := Scan.punctuator_accepts start text
  rw [← present] at parts
  have short := Vocabulary.length_le_of_punctuatorKind? best.known
  have found := ByteCursor.longest_ends best Vocabulary.longestPunctuatorLength short
  rw [parts] at found
  rw [ByteCursor.operator, bytes_remaining sound, pure_bind]
  simp only [found, pure_bind, bytes_advanceBy sound, scanned]
  rfl

end Scanner

end Cursor
end ScriptLexer
