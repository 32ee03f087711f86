import ScriptLexer.Proofs.Malformed
import ScriptLexer.Proofs.Recovery
import ScriptLexer.Proofs.Tiling

/-! The lines of reports. The line of a cursor is that of its place in the text. A report names the
line on which its fault is found, between where its token begins and where it ends. -/

namespace ScriptLexer

/-- The line of the place `offset` bytes into `text`: one more than the line ends in front of it. -/
def lineAt : List Char → Nat → Nat
  | [], _ => 1
  | c :: text, offset =>
      if c.utf8Size ≤ offset then
        (if Cursor.endsLine c text.head? then 1 else 0) + lineAt text (offset - c.utf8Size)
      else 1

theorem lineAt_append (front back : List Char) :
    lineAt (front ++ back) (byteLength front) = 1 + lineEnds front back := by
  induction front with
  | nil =>
      cases back with
      | nil => rfl
      | cons c back =>
          have positive : 0 < c.utf8Size := c.utf8Size_pos
          exact if_neg (Nat.not_le_of_lt positive)
  | cons c front ih =>
      have fits : c.utf8Size ≤ byteLength (c :: front) := Nat.le_add_right _ _
      have left : byteLength (c :: front) - c.utf8Size = byteLength front :=
        Nat.add_sub_cancel_left _ _
      rw [List.cons_append, lineAt, if_pos fits, left, ih, lineEnds]
      omega

theorem lineEnds_of_inline {read : List Char} (inline : ∀ c ∈ read, isLineTerminator c = false)
    (following : List Char) : lineEnds read following = 0 := by
  induction read with
  | nil => rfl
  | cons c read ih =>
      have here := inline c List.mem_cons_self
      have behind := ih fun d member => inline d (List.mem_cons_of_mem c member)
      rw [lineEnds, behind, Cursor.endsLine, here]
      rfl

namespace Cursor

structure Standing (cursor : Cursor) (read : List Char) : Prop extends cursor.HasRead read where
  line : cursor.line = 1 + lineEnds read cursor.rest

theorem standing_ofText (text : List Char) : (ofText text).Standing [] :=
  ⟨hasRead_ofText text, rfl⟩

theorem Standing.advanceBy {cursor : Cursor} {read : List Char} (before : cursor.Standing read)
    (count : Nat) : (cursor.advanceBy count).Standing (read ++ cursor.rest.take count) := by
  refine ⟨before.toHasRead.advanceBy count, ?_⟩
  rw [advanceBy_line, before.line, advanceBy_rest, lineEnds_append, List.take_append_drop]
  exact Nat.add_assoc _ _ _

theorem Standing.lineAt_behind {cursor : Cursor} {read front back : List Char}
    (standing : cursor.Standing read) (parts : cursor.rest = front ++ back) :
    lineAt cursor.buffer (cursor.offset + byteLength front) =
      cursor.line + lineEnds front back := by
  rw [standing.buffer, standing.offset, standing.line, ← byteLength_append, parts,
    ← List.append_assoc, lineAt_append, lineEnds_append]
  exact (Nat.add_assoc _ _ _).symm

theorem Standing.lineAt_eq {cursor : Cursor} {read : List Char} (standing : cursor.Standing read) :
    lineAt cursor.buffer cursor.offset = cursor.line :=
  standing.lineAt_behind (List.nil_append cursor.rest).symm

end Cursor

namespace Scan

section Literal

variable {quote : Char} {text : List Char} {code : ErrorCode}

theorem EscapeFault.code_mem {opening left : List Char}
    (fault : EscapeFault opening left code) : code ∈ escapeCodes := by
  cases fault <;> decide

/-- Only a malformed escape makes a literal skip what is behind its fault. -/
theorem quoted_skipped (opens : isQuote quote = true)
    (faulty : (quoted quote text).verdict = .fault code) (other : code ∉ escapeCodes) :
    (quoted quote text).skipped = [] := by
  cases course quote text with
  | closed front after parts items =>
      rw [parts, quoted_closed opens items]
      rfl
  | faulty front rest known parts items fault =>
      subst parts
      cases fault with
      | unterminated barred =>
          unfold quoted
          rw [body_items items, (body_barred opens barred).1]
          rfl
      | unterminatedEscape barred =>
          unfold quoted
          rw [body_items items, (body_barred opens barred).2]
          rfl
      | escape fault =>
          rw [quoted_broken items fault] at faulty
          obtain rfl := Verdict.fault.inj faulty
          exact absurd fault.code_mem other

end Literal

section Leading

variable {c : Char} {text : List Char} {code : ErrorCode}
  (faulty : (leading c text).verdict = .fault code)
include faulty

theorem leading_skipped (other : code ∉ escapeCodes) : (leading c text).skipped = [] := by
  cases leading_malformed faulty with
  | number _ scanned => rw [scanned]; rfl
  | comment _ scanned => rw [scanned]; rfl
  | literal _ opens =>
      rw [leading_of_isQuote opens] at faulty ⊢
      exact quoted_skipped opens faulty other
  | unexpected _ scanned => rw [scanned]; rfl

theorem leading_rest_of_unended (unended : code = .unterminatedComment) :
    (leading c text).rest = [] := by
  subst unended
  cases leading_malformed faulty with
  | number settled => exact absurd settled (by decide)
  | comment _ scanned => rw [scanned]; rfl
  | literal listed => exact absurd listed (by decide)
  | unexpected unknown => cases unknown

theorem isQuote_of_escape (malformed : code ∈ escapeCodes) : isQuote c = true := by
  cases leading_malformed faulty with
  | number settled =>
      have apart : ∀ code ∈ escapeCodes, code ∉ settledCodes := by decide
      exact absurd settled (apart code malformed)
  | comment unended =>
      rw [unended] at malformed
      exact absurd malformed (by decide)
  | literal _ opens => exact opens
  | unexpected unknown =>
      rw [unknown] at malformed
      exact absurd malformed (by decide)

end Leading

end Scan

namespace Lexer

section Call

variable {call : Lexer} {c : Char} {text : List Char} {report : Diagnostic}
  (visible : call.cursor.rest.dropWhile isWhitespace = c :: text)
  (reported : call.next.report? = some report)
include visible reported

theorem report_found :
    (Scan.leading c text).verdict = .fault report.code ∧
      report.line = call.skipWhitespace.line + lineEnds (Scan.leading c text).seen
        ((Scan.leading c text).skipped ++ (Scan.leading c text).rest) := by
  have made := consume_report? (skipWhitespace_covers visible)
  rw [← next_of_visible visible, reported] at made
  obtain ⟨code, faulty, rfl⟩ := Option.map_eq_some_iff.mp made.symm
  exact ⟨Verdict.fault?_eq_some_iff.mp faulty, rfl⟩

theorem next_line_of_report :
    call.next.lexer.line =
      report.line + lineEnds (Scan.leading c text).skipped (Scan.leading c text).rest := by
  rw [next_of_visible visible, consume_line (skipWhitespace_covers visible), Scan.taken,
    lineEnds_append, (report_found visible reported).2]
  exact (Nat.add_assoc _ _ _).symm

end Call

theorem visible_of_report {call : Lexer} {report : Diagnostic}
    (reported : call.next.report? = some report) :
    ∃ c text, call.cursor.rest.dropWhile isWhitespace = c :: text := by
  apply List.exists_cons_of_ne_nil
  intro blank
  rw [next_of_blank blank] at reported
  cases reported

def Within (text : List Char) (lexer : Lexer) : Prop :=
  lexer.cursor.buffer = text ∧ ∃ read, lexer.cursor.Standing read

section Within

variable {whole : List Char} {lexer : Lexer} (within : Within whole lexer)
include within

theorem Within.line_eq : lexer.line = lineAt whole lexer.cursor.offset := by
  obtain ⟨rfl, read, standing⟩ := within
  exact standing.lineAt_eq.symm

theorem Within.offset_of_end (finished : lexer.cursor.rest = []) :
    lexer.cursor.offset = byteLength whole := by
  obtain ⟨rfl, read, standing⟩ := within
  rw [standing.offset, standing.buffer, finished, List.append_nil]

theorem Within.moved {other : Lexer} {count : Nat}
    (moved : other.cursor = lexer.cursor.advanceBy count) : Within whole other := by
  obtain ⟨buffer, read, standing⟩ := within
  refine ⟨?_, _, moved ▸ standing.advanceBy count⟩
  rw [moved, Cursor.advanceBy_buffer, buffer]

theorem Within.skipWhitespace : Within whole lexer.skipWhitespace :=
  within.moved (skipWhitespace_cursor lexer)

theorem Within.next : Within whole lexer.next.lexer := by
  cases visible : lexer.cursor.rest.dropWhile isWhitespace with
  | nil =>
      rw [next_of_blank visible]
      exact within.skipWhitespace
  | cons c text =>
      apply within.skipWhitespace.moved
      rw [next_of_visible visible, consume_cursor]

theorem Within.of_mem_calls {call : Lexer} (member : call ∈ lexer.calls) : Within whole call := by
  fun_induction drain lexer with
  | case1 lexer pull found left ih =>
      obtain ⟨c, text, visible⟩ := exists_visible found
      rw [calls_of_visible visible] at member
      rcases List.mem_cons.mp member with rfl | later
      · exact within
      · exact ih within.next later
  | case2 lexer pull finished =>
      rw [calls, drain_of_end finished] at member
      obtain rfl := List.mem_singleton.mp member
      exact within

end Within

def tokenStart (call : Lexer) : Nat := call.skipWhitespace.cursor.offset

/-- The line of a report that a call makes over `text`: it lies within the token, and is the line
where the token begins, where the text or the token ends, or of the letter of a malformed escape. -/
structure PlacesReport (text : List Char) (call : Lexer) (report : Diagnostic) : Prop where
  from_start : lineAt text call.tokenStart ≤ report.line
  to_end : report.line ≤ call.next.lexer.line
  settled : report.code ∈ Scan.settledCodes →
    report.line = lineAt text call.tokenStart ∧ call.next.lexer.line = lineAt text call.tokenStart
  comment : report.code = .unterminatedComment → report.line = lineAt text (byteLength text)
  literal : report.code = .unterminatedStringLiteral → report.line = call.next.lexer.line
  escape : report.code ∈ Scan.escapeCodes → ∃ quote front opening left,
    dropBytes? call.tokenStart text = some (quote :: (front ++ '\\' :: 'u' :: (opening ++ left))) ∧
      isQuote quote = true ∧ Scan.Items quote front ∧
      Scan.EscapeFault opening left report.code ∧
      report.line = lineAt text (call.tokenStart + byteLength (quote :: (front ++ ['\\'])))

section Places

variable {whole : List Char} {call : Lexer} (within : Within whole call) {c : Char}
  {text : List Char} {report : Diagnostic}
  (visible : call.cursor.rest.dropWhile isWhitespace = c :: text)
  (reported : call.next.report? = some report)
include within visible reported

/-- The text up to the letter of a malformed escape ends as many lines as the text up to where the
fault is known: what is read in between lies on one line. -/
theorem escape_line (malformed : report.code ∈ Scan.escapeCodes) :
    ∃ quote front opening left,
      dropBytes? call.tokenStart whole =
          some (quote :: (front ++ '\\' :: 'u' :: (opening ++ left))) ∧
        isQuote quote = true ∧ Scan.Items quote front ∧
        Scan.EscapeFault opening left report.code ∧
        report.line = lineAt whole (call.tokenStart + byteLength (quote :: (front ++ ['\\']))) := by
  obtain ⟨faulty, line⟩ := report_found visible reported
  have opens := Scan.isQuote_of_escape faulty malformed
  obtain ⟨front, opening, left, parts, items, fault⟩ :=
    exists_malformed opens visible reported malformed
  obtain ⟨rfl, read, standing⟩ := within.skipWhitespace
  have cut : call.skipWhitespace.cursor.rest =
      c :: (front ++ ['\\']) ++ 'u' :: (opening ++ left) := by
    rw [skipWhitespace_rest, visible, parts]
    simp
  refine ⟨c, front, opening, left, ?_, opens, items, fault, ?_⟩
  · rw [tokenStart, standing.offset, standing.buffer, dropBytes?_byteLength, cut]
    simp
  · have scanned : Scan.leading c text = _ :=
      (Scan.leading_of_isQuote opens text).trans (parts ▸ Scan.quoted_broken items fault)
    have behind : (Scan.leading c text).skipped ++ (Scan.leading c text).rest = left := by
      rw [scanned]
      exact Scan.literalTail_covers c left
    have seen : (Scan.leading c text).seen = c :: (front ++ ['\\']) ++ 'u' :: opening := by
      rw [scanned]
      simp [Scan.reject]
    have letter : ∀ d ∈ 'u' :: opening, isLineTerminator d = false :=
      List.forall_mem_cons.mpr ⟨by decide, fault.inline⟩
    calc report.line
      _ = call.skipWhitespace.line +
          lineEnds (c :: (front ++ ['\\']) ++ 'u' :: opening) left := by
        rw [line, seen, behind]
      _ = call.skipWhitespace.line +
          lineEnds (c :: (front ++ ['\\'])) ('u' :: (opening ++ left)) := by
        rw [lineEnds_append, lineEnds_of_inline letter]
        rfl
      _ = lineAt call.skipWhitespace.cursor.buffer
          (call.tokenStart + byteLength (c :: (front ++ ['\\']))) :=
        (standing.lineAt_behind cut).symm

theorem places_report : PlacesReport whole call report := by
  obtain ⟨faulty, line⟩ := report_found visible reported
  have start : call.skipWhitespace.line = lineAt whole call.tokenStart := within.skipWhitespace.line_eq
  have after := next_line_of_report visible reported
  -- Only behind a malformed escape is anything passed after the report.
  have last : report.code ∉ Scan.escapeCodes → call.next.lexer.line = report.line := by
    intro other
    rw [after, Scan.leading_skipped faulty other]
    rfl
  constructor
  · rw [line, ← start]
    exact Nat.le_add_right _ _
  · rw [after]
    exact Nat.le_add_right _ _
  · intro settled
    have apart : ∀ code ∈ Scan.settledCodes, code ∉ Scan.escapeCodes := by decide
    have inline := Scan.leading_fault_inline (visible_of_head visible) faulty settled
    have same : report.line = lineAt whole call.tokenStart := by
      rw [line, lineEnds_of_inline inline, start]
      rfl
    exact ⟨same, (last (apart _ settled)).trans same⟩
  · intro unended
    have finished := Scan.leading_rest_of_unended faulty unended
    have line := last (by rw [unended]; decide)
    rw [← within.next.offset_of_end (by rw [next_rest visible, finished]), ← line]
    exact within.next.line_eq
  · intro unended
    exact (last (by rw [unended]; decide)).symm
  · exact escape_line within visible reported

end Places

theorem reports_of_calls (lexer : Lexer) :
    lexer.reports = lexer.calls.filterMap fun call => call.next.report? := by
  fun_induction drain lexer with
  | case1 lexer pull found left ih =>
      obtain ⟨c, text, visible⟩ := exists_visible found
      rw [reports_of_visible visible, calls_of_visible visible, List.filterMap_cons]
      cases lexer.next.report? with
      | none => exact ih
      | some report => exact congrArg (report :: ·) ih
  | case2 lexer pull finished =>
      have blank := blank_of_end finished
      rw [reports_of_blank blank, calls, drain_of_blank blank, List.map_nil,
        List.filterMap_cons_none (by rw [next_of_blank blank]), List.filterMap_nil]

theorem line_le_next (lexer : Lexer) : lexer.line ≤ lexer.next.lexer.line := by
  cases visible : lexer.cursor.rest.dropWhile isWhitespace with
  | nil =>
      rw [next_of_blank visible, skipWhitespace_line]
      exact Nat.le_add_right _ _
  | cons c text =>
      rw [next_line visible]
      exact Nat.le_add_right _ _

theorem line_of_report {call : Lexer} {report : Diagnostic}
    (reported : call.next.report? = some report) :
    call.line ≤ report.line ∧ report.line ≤ call.next.lexer.line := by
  obtain ⟨c, text, visible⟩ := visible_of_report reported
  constructor
  · rw [(report_found visible reported).2, skipWhitespace_line, Nat.add_assoc]
    exact Nat.le_add_right _ _
  · rw [next_line_of_report visible reported]
    exact Nat.le_add_right _ _

theorem reports_ascending (lexer : Lexer) :
    (∀ report ∈ lexer.reports, lexer.line ≤ report.line) ∧
      lexer.reports.Pairwise fun first second => first.line ≤ second.line := by
  -- The bound from below is what relates a report to those of the calls behind it.
  fun_induction drain lexer with
  | case1 lexer pull found left ih =>
      obtain ⟨c, text, visible⟩ := exists_visible found
      obtain ⟨below, ascending⟩ := ih
      rw [reports_of_visible visible]
      cases reported : lexer.next.report? with
      | none =>
          exact ⟨fun report member => Nat.le_trans (line_le_next lexer) (below report member),
            ascending⟩
      | some report =>
          obtain ⟨from_call, to_next⟩ := line_of_report reported
          refine ⟨List.forall_mem_cons.mpr ⟨from_call, fun other member => ?_⟩,
            List.pairwise_cons.mpr ⟨fun other member => ?_, ascending⟩⟩
          · exact Nat.le_trans (line_le_next lexer) (below other member)
          · exact Nat.le_trans to_next (below other member)
  | case2 lexer pull finished =>
      rw [reports_of_blank (blank_of_end finished)]
      exact ⟨fun report member => absurd member List.not_mem_nil, List.Pairwise.nil⟩

theorem drain_report_lines (text : List Char) (source : String) :
    let lexer := Lexer.ofText text source
    (lexer.reports = lexer.calls.filterMap fun call => call.next.report?) ∧
      (∀ call ∈ lexer.calls, ∀ report, call.next.report? = some report →
        call.next.token? = some .invalid ∧ PlacesReport text call report) ∧
      lexer.reports.Pairwise fun first second => first.line ≤ second.line := by
  intro lexer
  refine ⟨reports_of_calls lexer, fun call member report reported => ?_,
    (reports_ascending lexer).2⟩
  have start : Within text lexer := ⟨rfl, [], Cursor.standing_ofText text⟩
  obtain ⟨c, rest, visible⟩ := visible_of_report reported
  have faulty := (report_found visible reported).1
  exact ⟨(next_of_fault visible faulty).1,
    places_report (start.of_mem_calls member) visible reported⟩

end Lexer

end ScriptLexer
