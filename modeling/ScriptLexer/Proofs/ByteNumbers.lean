import ScriptLexer.Proofs.ByteWords
import ScriptLexer.Proofs.FaultLines
import ScriptLexer.Proofs.Numeral

/-! Numbers over bytes. A loop over digits reads its run in whole or stops within it at a fault, and
a malformed number takes its run along from wherever it stopped. -/

namespace ScriptLexer

namespace Scan

/-- What a number of the body `text` goes past if nothing is wrong with it. -/
def numeralSpan (text : List Char) : List Char :=
  text.takeWhile isDigitOrSeparator ++
    match text.dropWhile isDigitOrSeparator with
    | '.' :: after => '.' :: after.takeWhile isDigitOrSeparator
    | _ => []

section Numeral

variable {text : List Char} (valid : wholeFault? (text.takeWhile isDigitOrSeparator) = none)
include valid

theorem numeral_pointed {after : List Char}
    (pointed : text.dropWhile isDigitOrSeparator = '.' :: after) :
    numeralSpan text =
        text.takeWhile isDigitOrSeparator ++ '.' :: after.takeWhile isDigitOrSeparator ∧
      numeralFault? text = fractionFault? (after.takeWhile isDigitOrSeparator) := by
  simp only [numeralSpan, numeralFault?, valid, pointed, and_self]

theorem numeral_pointless (pointless : (text.dropWhile isDigitOrSeparator).head? ≠ some '.') :
    numeralSpan text = text.takeWhile isDigitOrSeparator ∧ numeralFault? text = none := by
  have other : ∀ after, text.dropWhile isDigitOrSeparator ≠ '.' :: after := by
    intro after pointed
    exact pointless (by rw [pointed, List.head?_cons])
  constructor
  · rw [numeralSpan]
    split
    · exact absurd ‹_› (other _)
    · exact List.append_nil _
  · simp only [numeralFault?, valid]

end Numeral

theorem separatorFault?_cons {p c : Char}
    (apart : ¬(isNumericSeparator c && isNumericSeparator p) = true) (digits : List Char) :
    separatorFault? (p :: c :: digits) = separatorFault? (c :: digits) := by
  have single : hasDoubleSeparator (p :: c :: digits) = hasDoubleSeparator (c :: digits) := by
    rw [hasDoubleSeparator, List.head?_cons, Option.any_some, Bool.and_comm,
      Bool.eq_false_iff.mpr apart]
    rfl
  rw [separatorFault?, separatorFault?, single, List.getLast?_cons_cons]

theorem wholeFault?_of_head {digits : List Char} (other : digits.head? ≠ some '0') :
    wholeFault? digits = separatorFault? digits := by
  unfold wholeFault?
  split
  · exact absurd rfl other
  · rfl

theorem separatorFault?_double {p c : Char}
    (double : (isNumericSeparator c && isNumericSeparator p) = true) (digits : List Char) :
    separatorFault? (p :: c :: digits) = some .multipleNumericSeparatorsNotAllowed := by
  have found : hasDoubleSeparator (p :: c :: digits) = true := by
    rw [hasDoubleSeparator, List.head?_cons, Option.any_some, Bool.and_comm, double]
    rfl
  rw [separatorFault?, if_pos found]

theorem numeralSpan_leads (text : List Char) : numeralSpan text <+: text := by
  have tail : (match text.dropWhile isDigitOrSeparator with
      | '.' :: after => '.' :: after.takeWhile isDigitOrSeparator
      | _ => []) <+: text.dropWhile isDigitOrSeparator := by
    split
    · rename_i after pointed
      rw [pointed]
      exact (List.prefix_cons_inj '.').mpr (List.takeWhile_prefix _)
    · exact List.nil_prefix
  have whole := (List.prefix_append_right_inj (text.takeWhile isDigitOrSeparator)).mpr tail
  rwa [List.takeWhile_append_dropWhile] at whole

theorem numeralSpan_inside (text : List Char) : ∀ c ∈ numeralSpan text, isNumericRun c = true := by
  have inside (run : List Char) : ∀ c ∈ run.takeWhile isDigitOrSeparator, isNumericRun c = true :=
    fun c member => isNumericRun_of_digitOrSeparator c (List.mem_takeWhile_imp member)
  unfold numeralSpan
  intro c member
  rcases List.mem_append.mp member with whole | behind
  · exact inside text c whole
  · split at behind
    · rename_i after pointed
      rcases List.mem_cons.mp behind with rfl | digits
      · decide
      · exact inside after c digits
    · exact absurd behind List.not_mem_nil

theorem sign_run_parts (text : List Char) :
    (sign text ++ (unsigned text).takeWhile isNumericRun) ++
      (unsigned text).dropWhile isNumericRun = text := by
  rw [List.append_assoc, List.takeWhile_append_dropWhile, sign_append_unsigned]

theorem sign_run_inline (text : List Char) :
    ∀ c ∈ sign text ++ (unsigned text).takeWhile isNumericRun, isLineTerminator c = false := by
  refine List.forall_mem_append.mpr ⟨fun c signs => ?_, fun c run => ?_⟩
  · exact inline_of_outside (by decide) c (List.mem_filter.mp signs).2
  · exact inline_of_outside (by decide) c (List.mem_takeWhile_imp run)

theorem number_eq (text : List Char) :
    number text = match numeralFault? (unsigned text) with
      | some code => malformedNumber code text
      | none =>
          accept (numberToken (sign text ++ numeralSpan (unsigned text)))
            (sign text ++ numeralSpan (unsigned text))
            ((unsigned text).drop (numeralSpan (unsigned text)).length) := by
  have whole := drop_length_takeWhile isDigitOrSeparator (unsigned text)
  cases judged : wholeFault? ((unsigned text).takeWhile isDigitOrSeparator) with
  | some code => simp only [number, numeralFault?, judged]
  | none =>
      by_cases point : ((unsigned text).dropWhile isDigitOrSeparator).head? = some '.'
      · obtain ⟨after, left⟩ := List.head?_eq_some_iff.mp point
        obtain ⟨span, fault⟩ := numeral_pointed judged left
        simp only [number, judged, left, span, fault]
        cases fractionFault? (after.takeWhile isDigitOrSeparator) with
        | some code => rfl
        | none =>
            simp only [List.length_append, ← List.drop_drop, whole, left, List.length_cons,
              List.drop_succ_cons, drop_length_takeWhile isDigitOrSeparator after,
              List.append_assoc]
      · obtain ⟨span, fault⟩ := numeral_pointless judged point
        rw [fault, span, whole, number]
        simp only [judged]
        split
        · rename_i after pointed
          exact absurd (by rw [pointed, List.head?_cons]) point
        · rfl

end Scan

namespace Cursor

/-- The scanner reads `span` in whole, or meets a fault within it. -/
def Reads (cursor : Cursor) (scanner : Run (Scanned Unit)) (span : List Char) :
    Option ErrorCode → Prop
  | none => scanner = pure (cursor.scanned (.ok ()) span.length 0)
  | some code => ∃ count ≤ span.length, scanner = pure (cursor.scanned (.error code) count 0)

section Reads

variable {cursor : Cursor} {scanner : Run (Scanned Unit)} {span : List Char}
  {fault? : Option ErrorCode}

theorem reads_done : cursor.Reads (pure cursor.bytes.done) [] none := rfl

theorem reads_fail (code : ErrorCode) (span : List Char) :
    cursor.Reads (pure (cursor.bytes.fail code)) span (some code) :=
  ⟨0, Nat.zero_le _, rfl⟩

theorem Reads.behind {front : List Char}
    (reads : (cursor.advanceBy front.length).Reads scanner span fault?) :
    cursor.Reads scanner (front ++ span) fault? := by
  cases fault? with
  | none =>
      rw [Reads, scanned_advanceBy] at reads
      rw [Reads, List.length_append]
      exact reads
  | some code =>
      obtain ⟨count, within, same⟩ := reads
      rw [scanned_advanceBy] at same
      refine ⟨front.length + count, ?_, same⟩
      rw [List.length_append]
      exact Nat.add_le_add_left within _

theorem Reads.behind_one {c : Char} (reads : cursor.advance.Reads scanner span fault?) :
    cursor.Reads scanner (c :: span) fault? := by
  have moved : cursor.advanceBy [c].length = cursor.advance := advanceBy_one cursor
  rw [← moved] at reads
  exact reads.behind

end Reads

theorem advanceBy_advanceWhile (cursor : Cursor) (holds : Char → Bool) {count : Nat}
    (within : count ≤ (cursor.rest.takeWhile holds).length) :
    (cursor.advanceBy count).advanceWhile holds = cursor.advanceWhile holds := by
  have parts := List.takeWhile_append_dropWhile (p := holds) (l := cursor.rest)
  have inside : ∀ c ∈ cursor.rest.takeWhile holds, holds c = true :=
    fun _ => List.mem_takeWhile_imp
  have stops := stops_dropWhile holds cursor.rest
  rw [advanceWhile, advanceWhile, advanceBy_rest]
  generalize cursor.rest.takeWhile holds = run at *
  generalize cursor.rest.dropWhile holds = left at *
  have behind : (cursor.rest.drop count).takeWhile holds = run.drop count := by
    rw [← parts, List.drop_append_of_le_length within]
    exact (takeWhile_run (fun c member => inside c (List.mem_of_mem_drop member)) stops).1
  rw [behind, List.length_drop, ← advanceBy_add, Nat.add_sub_of_le within]

theorem advanceBy_line_of_inline {cursor : Cursor} {front rest : List Char}
    (parts : cursor.rest = front ++ rest) (inline : ∀ c ∈ front, isLineTerminator c = false)
    {count : Nat} (within : count ≤ front.length) :
    (cursor.advanceBy count).line = cursor.line := by
  have taken : cursor.rest.take count = front.take count := by
    rw [parts, List.take_append_of_le_length within]
  rw [advanceBy_line, taken,
    lineEnds_of_inline fun c member => inline c (List.mem_of_mem_take member)]
  rfl

section Scanner

variable {cursor : Cursor} (sound : cursor.Sound)
include sound

theorem bytes_digits_ended {previous : Option Char}
    (ended : cursor.current?.filter isDigitOrSeparator = none) :
    cursor.Reads (cursor.bytes.digits previous) [] (Scan.separatorFault? previous.toList) := by
  rw [ByteCursor.digits, bytes_current sound, pure_bind, ended]
  cases previous with
  | none => exact reads_done
  | some p =>
      by_cases separator : isNumericSeparator p = true
      · have faulty : Scan.separatorFault? [p] = some .numericSeparatorNotAllowed := by
          simp [Scan.separatorFault?, Scan.hasDoubleSeparator, separator]
        simp only [Option.any_some, separator, if_true, Option.toList_some, faulty]
        exact reads_fail _ _
      · have valid : Scan.separatorFault? [p] = none := by
          simp [Scan.separatorFault?, Scan.hasDoubleSeparator, separator]
        simp only [Option.any_some, separator, Option.toList_some, valid]
        exact reads_done

theorem bytes_digits (previous : Option Char) :
    cursor.Reads (cursor.bytes.digits previous) (cursor.rest.takeWhile isDigitOrSeparator)
      (Scan.separatorFault? (previous.toList ++ cursor.rest.takeWhile isDigitOrSeparator)) := by
  induction left : cursor.rest generalizing cursor previous with
  | nil =>
      rw [List.takeWhile_nil, List.append_nil]
      exact bytes_digits_ended sound (by rw [current?, left]; rfl)
  | cons c rest ih =>
      by_cases member : isDigitOrSeparator c = true
      · have behind : cursor.advance.rest = rest := advance_rest_of_cons left
        have later := ih sound.advance (some c) behind
        rw [List.takeWhile_cons_of_pos member, ByteCursor.digits, bytes_current_of_cons sound left,
          pure_bind, Option.filter_some_pos member]
        simp only [bytes_advance sound, pure_bind]
        cases previous with
        | none =>
            simp only [Option.any_none, Bool.and_false, Bool.false_eq_true, if_false]
            exact later.behind_one
        | some p =>
            by_cases double : (isNumericSeparator c && isNumericSeparator p) = true
            · have faulty := Scan.separatorFault?_double double
                (rest.takeWhile isDigitOrSeparator)
              simp only [Option.any_some, double, if_true, Option.toList_some,
                List.singleton_append, faulty]
              exact reads_fail _ _
            · have same := Scan.separatorFault?_cons double (rest.takeWhile isDigitOrSeparator)
              simp only [Option.any_some, double, Option.toList_some, List.singleton_append, same]
              exact later.behind_one
      · rw [List.takeWhile_cons_of_neg member, List.append_nil]
        exact bytes_digits_ended sound (by simp [current?, left, member])

theorem bytes_fraction :
    cursor.Reads cursor.bytes.fraction (cursor.rest.takeWhile isDigitOrSeparator)
      (Scan.fractionFault? (cursor.rest.takeWhile isDigitOrSeparator)) := by
  have digits := bytes_digits sound none
  rw [ByteCursor.fraction, bytes_current sound, pure_bind, current?]
  cases left : cursor.rest with
  | nil => exact reads_done
  | cons c rest =>
      rw [left] at digits
      by_cases separator : isNumericSeparator c = true
      · have member : isDigitOrSeparator c = true := by simp [isDigitOrSeparator, separator]
        have faulty : Scan.fractionFault? (c :: rest.takeWhile isDigitOrSeparator) =
            some .numericSeparatorNotAllowed := if_pos separator
        simp only [List.head?_cons, separator, if_true, List.takeWhile_cons_of_pos member, faulty]
        exact reads_fail _ _
      · by_cases digit : isDecimalDigit c = true
        · have member : isDigitOrSeparator c = true := by simp [isDigitOrSeparator, digit]
          have same : Scan.fractionFault? (c :: rest.takeWhile isDigitOrSeparator) =
              Scan.separatorFault? (c :: rest.takeWhile isDigitOrSeparator) := if_neg separator
          rw [List.takeWhile_cons_of_pos member] at digits
          simp only [List.head?_cons, separator, digit, if_true,
            List.takeWhile_cons_of_pos member, same]
          exact digits
        · have outside : ¬isDigitOrSeparator c = true := by
            simp [isDigitOrSeparator, separator, digit]
          simp only [List.head?_cons, separator, digit, List.takeWhile_cons_of_neg outside]
          exact reads_done

theorem bytes_wholeDigits :
    cursor.Reads cursor.bytes.wholeDigits (cursor.rest.takeWhile isDigitOrSeparator)
      (Scan.wholeFault? (cursor.rest.takeWhile isDigitOrSeparator)) := by
  rw [ByteCursor.wholeDigits, bytes_expect sound, pure_bind]
  by_cases zero : cursor.current? = some '0'
  · obtain ⟨rest, left⟩ := List.head?_eq_some_iff.mp zero
    have behind : cursor.advance.rest = rest := advance_rest_of_cons left
    have member : isDigitOrSeparator '0' = true := by decide
    rw [expect_of_current zero, left, List.takeWhile_cons_of_pos member]
    simp only [if_true, bytes_current sound.advance, pure_bind, current?, behind]
    cases rest with
    | nil => exact reads_done.behind_one
    | cons c rest =>
        by_cases more : isDigitOrSeparator c = true
        · simp only [List.head?_cons, Option.any_some, more, if_true,
            List.takeWhile_cons_of_pos more]
          exact (reads_fail _ _).behind_one
        · simp only [List.head?_cons, Option.any_some, more, List.takeWhile_cons_of_neg more]
          exact reads_done.behind_one
  · have same : Scan.wholeFault? (cursor.rest.takeWhile isDigitOrSeparator) =
        Scan.separatorFault? (cursor.rest.takeWhile isDigitOrSeparator) := by
      apply Scan.wholeFault?_of_head
      rw [List.head?_takeWhile]
      exact fun first => zero (Option.filter_eq_some_iff.mp first).1
    rw [expect_of_other zero, same]
    exact bytes_digits sound none

theorem bytes_numeral :
    cursor.Reads cursor.bytes.numeral (Scan.numeralSpan cursor.rest)
      (Scan.numeralFault? cursor.rest) := by
  rw [ByteCursor.numeral, bytes_expect sound, pure_bind]
  by_cases pointed : cursor.current? = some '.'
  · obtain ⟨after, left⟩ := List.head?_eq_some_iff.mp pointed
    have behind : cursor.advance.rest = after := advance_rest_of_cons left
    have fraction := bytes_fraction sound.advance
    have stops : Stops isDigitOrSeparator ('.' :: after) :=
      stops_cons Scan.point_not_digitOrSeparator
    obtain ⟨nothing, all⟩ := takeWhile_stopped stops
    obtain ⟨span, fault⟩ := Scan.numeral_pointed (by rw [nothing]; rfl) all
    rw [nothing] at span
    rw [expect_of_current pointed, left, span, fault]
    rw [behind] at fraction
    exact fraction.behind_one
  · have whole := bytes_wholeDigits sound
    rw [expect_of_other pointed]
    simp only [Bool.false_eq_true, if_false]
    cases judged : Scan.wholeFault? (cursor.rest.takeWhile isDigitOrSeparator) with
    | some code =>
        rw [judged] at whole
        obtain ⟨count, within, same⟩ := whole
        have faulty : Scan.numeralFault? cursor.rest = some code := by
          simp only [Scan.numeralFault?, judged]
        rw [same, pure_bind, faulty]
        refine ⟨count, Nat.le_trans within ?_, rfl⟩
        rw [Scan.numeralSpan, List.length_append]
        exact Nat.le_add_right _ _
    | none =>
        rw [judged, Reads] at whole
        have moved := sound.advanceBy (cursor.rest.takeWhile isDigitOrSeparator).length
        have behind : (cursor.advanceBy (cursor.rest.takeWhile isDigitOrSeparator).length).rest =
            cursor.rest.dropWhile isDigitOrSeparator := by
          rw [advanceBy_rest, drop_length_takeWhile]
        rw [whole, pure_bind]
        simp only [scanned, Except.mapError, Nat.add_zero, bytes_expect moved, pure_bind]
        by_cases point : (cursor.rest.dropWhile isDigitOrSeparator).head? = some '.'
        · obtain ⟨after, left⟩ := List.head?_eq_some_iff.mp point
          obtain ⟨span, fault⟩ := Scan.numeral_pointed judged left
          have fraction := bytes_fraction moved.advance
          rw [advance_rest, behind, left, List.tail_cons] at fraction
          rw [expect_of_current (by rw [current?, behind, point]), span, fault]
          exact fraction.behind_one.behind
        · obtain ⟨span, fault⟩ := Scan.numeral_pointless judged point
          rw [expect_of_other (by rw [current?, behind]; exact point), span, fault]
          rfl

theorem bytes_passSign :
    cursor.bytes.passSign = pure (cursor.advanceBy (Scan.sign cursor.rest).length).bytes := by
  rw [ByteCursor.passSign, bytes_current sound, pure_bind, current?]
  cases left : cursor.rest with
  | nil => rfl
  | cons c rest =>
      by_cases signed : isSign c = true
      · have single : Scan.sign (c :: rest) = [c] := by simp [Scan.sign, signed]
        rw [List.head?_cons, Option.any_some, if_pos signed, bytes_advance sound, single,
          ← advanceBy_one]
        rfl
      · have none : Scan.sign (c :: rest) = [] := by simp [Scan.sign, signed]
        rw [List.head?_cons, Option.any_some, if_neg signed, none]
        rfl

theorem bytes_number : cursor.bytes.number = pure (cursor.along (Scan.number cursor.rest)) := by
  have moved := sound.advanceBy (Scan.sign cursor.rest).length
  have behind : (cursor.advanceBy (Scan.sign cursor.rest).length).rest =
      Scan.unsigned cursor.rest := advanceBy_rest _ _
  have reads := bytes_numeral moved
  rw [behind] at reads
  rw [Scan.number_eq]
  simp only [ByteCursor.number, bytes_passSign sound, pure_bind]
  cases judged : Scan.numeralFault? (Scan.unsigned cursor.rest) with
  | some code =>
      rw [judged] at reads
      obtain ⟨count, within, same⟩ := reads
      rw [same, pure_bind]
      have inRun : count ≤ ((Scan.unsigned cursor.rest).takeWhile isNumericRun).length :=
        Nat.le_trans within ((longestRun_takeWhile isNumericRun _).longest _
          (Scan.numeralSpan_leads _) (Scan.numeralSpan_inside _))
      have whole := (Scan.sign_run_parts cursor.rest).symm
      have inline := Scan.sign_run_inline cursor.rest
      have line : (cursor.advanceBy ((Scan.sign cursor.rest).length + count)).line =
          cursor.line := by
        apply advanceBy_line_of_inline whole inline
        rw [List.length_append]
        exact Nat.add_le_add_left inRun _
      have last := advanceBy_line_of_inline whole inline (Nat.le_refl _)
      simp only [scanned, Except.mapError, Nat.add_zero]
      rw [bytes_advanceWhile (moved.advanceBy count), pure_bind,
        advanceBy_advanceWhile _ _ (by rwa [behind]), advanceWhile, behind, ← advanceBy_add,
        ← advanceBy_add, ← List.length_append, line, ← last]
      rfl
  | none =>
      rw [judged, Reads] at reads
      have leads := Scan.numeralSpan_leads (Scan.unsigned cursor.rest)
      have parts : cursor.rest =
          (Scan.sign cursor.rest ++ Scan.numeralSpan (Scan.unsigned cursor.rest)) ++
            (Scan.unsigned cursor.rest).drop
              (Scan.numeralSpan (Scan.unsigned cursor.rest)).length := by
        rw [List.append_assoc, List.prefix_iff_eq_append.mp leads, Scan.sign_append_unsigned]
      have cut := bytes_sliceFrom sound parts
      rw [List.length_append] at cut
      rw [reads, pure_bind, scanned_advanceBy]
      simp only [scanned, Except.mapError, Nat.add_zero]
      change (cursor.advanceBy _).bytes.sliceFrom cursor.offset >>= _ = _
      rw [cut, pure_bind, along_accept, List.length_append]

end Scanner

end Cursor
end ScriptLexer
