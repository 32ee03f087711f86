import Mathlib.Data.List.Basic
import Mathlib.Data.List.Forall2
import ScriptLexer.Lexer
import ScriptLexer.Proofs.Dispatch
import ScriptLexer.Proofs.Position
import ScriptLexer.Proofs.Run

/-! What one pull takes from the text, and what a drain gathers. A pull is a gap of whitespace and
the scan behind it; two lexers that stay related from pull to pull drain to related streams. -/

namespace ScriptLexer

namespace LineErrors

def note (errors : LineErrors) (reports : List Diagnostic) : LineErrors :=
  reports.foldl (fun errors report => errors.insert report.line report.code) errors

theorem note_append (errors : LineErrors) (first second : List Diagnostic) :
    errors.note (first ++ second) = (errors.note first).note second :=
  List.foldl_append

end LineErrors

theorem Pull.gathered_cons {α : Type} (given : Pull → Option α) (pull : Pull) (pulls : List Pull) :
    (pull :: pulls).filterMap given = (given pull).toList ++ pulls.filterMap given := by
  simp only [List.filterMap_eq_flatMap_toList, List.flatMap_cons]

/-- The pull gives `token` for `front`, with which `text` begins, and has nothing to report. -/
structure Pull.Takes (pull : Pull) (token : Token) (front text : List Char) : Prop where
  token : pull.token? = some token
  silent : pull.report? = none
  parts : front ++ pull.lexer.cursor.rest = text

namespace Lexer

def tokens (lexer : Lexer) : List Token := lexer.drain.1.filterMap Pull.token?

def reports (lexer : Lexer) : List Diagnostic := lexer.drain.1.filterMap Pull.report?

def line (lexer : Lexer) : Nat := lexer.cursor.line

theorem skipWhitespace_cursor (lexer : Lexer) :
    lexer.skipWhitespace.cursor =
      lexer.cursor.advanceBy (lexer.cursor.rest.takeWhile isWhitespace).length := rfl

theorem skipWhitespace_line (lexer : Lexer) :
    lexer.skipWhitespace.line =
      lexer.line + lineEnds (lexer.cursor.rest.takeWhile isWhitespace)
        (lexer.cursor.rest.dropWhile isWhitespace) := by
  rw [line, skipWhitespace_cursor, Cursor.advanceBy_line, take_length_takeWhile,
    drop_length_takeWhile]
  rfl

theorem consume_token? (lexer : Lexer) (scan : Scan) :
    (lexer.consume scan).token? = some scan.verdict.asToken := by
  unfold consume
  cases scan.verdict <;> rfl

theorem consume_cursor (lexer : Lexer) (scan : Scan) :
    (lexer.consume scan).lexer.cursor =
      lexer.cursor.advanceBy scan.taken.length := by
  rw [Scan.taken, List.length_append, Cursor.advanceBy_add]
  unfold consume
  cases scan.verdict <;> rfl

theorem consume_source (lexer : Lexer) (scan : Scan) :
    (lexer.consume scan).lexer.source = lexer.source := by
  unfold consume
  cases scan.verdict <;> rfl

theorem consume_errors (lexer : Lexer) (scan : Scan) :
    (lexer.consume scan).lexer.errors =
      lexer.errors.note (lexer.consume scan).report?.toList := by
  unfold consume
  cases scan.verdict <;> rfl

section Consume

variable {lexer : Lexer} {scan : Scan}

/-- A report names the line that the text up to the verdict reaches. -/
theorem consume_report? (covers : scan.Covers lexer.cursor.rest) :
    (lexer.consume scan).report? = scan.verdict.fault?.map fun code =>
      ⟨lexer.source, code, lexer.line + lineEnds scan.seen (scan.skipped ++ scan.rest)⟩ := by
  have reached : (lexer.cursor.advanceBy scan.seen.length).line =
      lexer.line + lineEnds scan.seen (scan.skipped ++ scan.rest) := by
    rw [Cursor.advanceBy_line, ← covers, List.append_assoc, List.take_left, List.drop_left]
    rfl
  unfold consume
  cases scan.verdict with
  | token => rfl
  | fault code => simp only [reached, Verdict.fault?, Option.map_some]

theorem consume_line (covers : scan.Covers lexer.cursor.rest) :
    (lexer.consume scan).lexer.line = lexer.line + lineEnds scan.taken scan.rest := by
  obtain ⟨taken, left⟩ := Scan.take_taken covers
  rw [line, consume_cursor, Cursor.advanceBy_line, taken, left]
  rfl

end Consume

theorem next_of_blank {lexer : Lexer} (blank : lexer.cursor.rest.dropWhile isWhitespace = []) :
    lexer.next = ⟨none, none, lexer.skipWhitespace⟩ := by
  unfold next
  simp only [skipWhitespace_rest, blank, Scan.leading?]

theorem next_of_visible {lexer : Lexer} {c : Char} {text : List Char}
    (visible : lexer.cursor.rest.dropWhile isWhitespace = c :: text) :
    lexer.next = lexer.skipWhitespace.consume (Scan.leading c text) := by
  unfold next
  simp only [skipWhitespace_rest, visible, Scan.leading?]

theorem skipWhitespace_covers {lexer : Lexer} {c : Char} {text : List Char}
    (visible : lexer.cursor.rest.dropWhile isWhitespace = c :: text) :
    (Scan.leading c text).Covers lexer.skipWhitespace.cursor.rest := by
  rw [skipWhitespace_rest, visible]
  exact Scan.leading_covers c text

theorem next_rest {lexer : Lexer} {c : Char} {text : List Char}
    (visible : lexer.cursor.rest.dropWhile isWhitespace = c :: text) :
    lexer.next.lexer.cursor.rest = (Scan.leading c text).rest := by
  rw [next_of_visible visible]
  exact consume_rest _ _ (skipWhitespace_covers visible)

section Line

variable {lexer : Lexer} {c : Char} {text : List Char}
  (visible : lexer.cursor.rest.dropWhile isWhitespace = c :: text)
include visible

theorem next_line :
    lexer.next.lexer.line = lexer.line +
      lineEnds (lexer.cursor.rest.takeWhile isWhitespace ++ (Scan.leading c text).taken)
        (Scan.leading c text).rest := by
  rw [next_of_visible visible, consume_line (skipWhitespace_covers visible), skipWhitespace_line,
    visible, lineEnds_append, Scan.leading_parts, Nat.add_assoc]

theorem next_report? :
    lexer.next.report? = (Scan.leading c text).verdict.fault?.map fun code =>
      ⟨lexer.source, code, lexer.line +
        lineEnds (lexer.cursor.rest.takeWhile isWhitespace ++ (Scan.leading c text).seen)
          ((Scan.leading c text).skipped ++ (Scan.leading c text).rest)⟩ := by
  have parts : (Scan.leading c text).seen ++
      ((Scan.leading c text).skipped ++ (Scan.leading c text).rest) = c :: text := by
    rw [← List.append_assoc]
    exact Scan.leading_covers c text
  rw [next_of_visible visible, consume_report? (skipWhitespace_covers visible), skipWhitespace_line,
    visible, lineEnds_append, parts, Nat.add_assoc]
  rfl

theorem next_of_token {token : Token} (accepted : (Scan.leading c text).verdict = .token token) :
    lexer.next.token? = some token ∧ lexer.next.report? = none := by
  constructor
  · rw [next_of_visible visible, consume_token?, accepted]
    rfl
  · rw [next_report? visible, accepted]
    rfl

theorem next_takes {token : Token} {front rest : List Char}
    (scanned : Scan.leading c text = .accept token front rest) :
    lexer.next.Takes token front (c :: text) := by
  have covers := Scan.leading_covers c text
  obtain ⟨given, silent⟩ := next_of_token visible (by rw [scanned]; rfl)
  refine ⟨given, silent, ?_⟩
  rw [next_rest visible, scanned]
  rw [scanned] at covers
  simpa [Scan.Covers, Scan.accept] using covers

theorem next_of_fault {code : ErrorCode} (faulty : (Scan.leading c text).verdict = .fault code) :
    lexer.next.token? = some .invalid ∧
      ∃ report, lexer.next.report? = some report ∧ report.code = code := by
  constructor
  · rw [next_of_visible visible, consume_token?, faulty]
    rfl
  · rw [next_report? visible, faulty]
    exact ⟨_, rfl, rfl⟩

end Line

theorem next_source (lexer : Lexer) : lexer.next.lexer.source = lexer.source := by
  cases visible : lexer.cursor.rest.dropWhile isWhitespace with
  | nil => rw [next_of_blank visible]; rfl
  | cons c text => rw [next_of_visible visible, consume_source]; rfl

theorem next_endOffset (lexer : Lexer) :
    lexer.next.lexer.cursor.endOffset = lexer.cursor.endOffset := by
  have skipped : lexer.skipWhitespace.cursor.endOffset = lexer.cursor.endOffset := by
    rw [skipWhitespace_cursor, Cursor.advanceBy_endOffset]
  cases visible : lexer.cursor.rest.dropWhile isWhitespace with
  | nil => rw [next_of_blank visible, skipped]
  | cons c text =>
      rw [next_of_visible visible, consume_cursor, Cursor.advanceBy_endOffset, skipped]

theorem next_errors (lexer : Lexer) :
    lexer.next.lexer.errors = lexer.errors.note lexer.next.report?.toList := by
  cases visible : lexer.cursor.rest.dropWhile isWhitespace with
  | nil => rw [next_of_blank visible]; rfl
  | cons c text => rw [next_of_visible visible, consume_errors]; rfl

theorem next_token?_isSome {lexer : Lexer} :
    lexer.next.token?.isSome = true ↔ lexer.cursor.rest.dropWhile isWhitespace ≠ [] := by
  cases visible : lexer.cursor.rest.dropWhile isWhitespace with
  | nil => simp [next_of_blank visible]
  | cons c text => simp [next_of_visible visible, consume_token?]

theorem drain_of_blank {lexer : Lexer} (blank : lexer.cursor.rest.dropWhile isWhitespace = []) :
    lexer.drain = ([], lexer.skipWhitespace) := by
  rw [drain]
  simp [next_of_blank blank]

theorem drain_of_end {lexer : Lexer} (finished : ¬lexer.next.token?.isSome = true) :
    lexer.drain = ([], lexer.next.lexer) := by
  rw [drain]
  simp only [finished, Bool.false_eq_true, dite_false]

theorem drain_of_visible {lexer : Lexer} {c : Char} {text : List Char}
    (visible : lexer.cursor.rest.dropWhile isWhitespace = c :: text) :
    lexer.drain = (lexer.next :: lexer.next.lexer.drain.1, lexer.next.lexer.drain.2) := by
  have found : lexer.next.token?.isSome = true := by
    rw [next_of_visible visible, consume_token?]
    rfl
  rw [drain]
  simp [found]

theorem pull_of_found {lexer : Lexer} (found : lexer.next.token?.isSome = true) (count : Nat) :
    lexer.pull (count + 1) =
      (lexer.next :: (lexer.next.lexer.pull count).1, (lexer.next.lexer.pull count).2) := by
  simp only [pull, found, if_true]

theorem pull_of_end {lexer : Lexer} (finished : ¬lexer.next.token?.isSome = true) (count : Nat) :
    lexer.pull (count + 1) = ([], lexer.next.lexer) := by
  simp only [pull, finished, Bool.false_eq_true, if_false]

theorem tokens_of_blank {lexer : Lexer} (blank : lexer.cursor.rest.dropWhile isWhitespace = []) :
    lexer.tokens = [] := by
  rw [tokens, drain_of_blank blank]
  rfl

theorem reports_of_blank {lexer : Lexer} (blank : lexer.cursor.rest.dropWhile isWhitespace = []) :
    lexer.reports = [] := by
  rw [reports, drain_of_blank blank]
  rfl

theorem tokens_of_visible {lexer : Lexer} {c : Char} {text : List Char}
    (visible : lexer.cursor.rest.dropWhile isWhitespace = c :: text) :
    lexer.tokens = (Scan.leading c text).verdict.asToken :: lexer.next.lexer.tokens := by
  have first : lexer.next.token? = some (Scan.leading c text).verdict.asToken := by
    rw [next_of_visible visible, consume_token?]
  rw [tokens, drain_of_visible visible, List.filterMap_cons_some first]
  rfl

theorem reports_of_visible {lexer : Lexer} {c : Char} {text : List Char}
    (visible : lexer.cursor.rest.dropWhile isWhitespace = c :: text) :
    lexer.reports = lexer.next.report?.toList ++ lexer.next.lexer.reports := by
  rw [reports, drain_of_visible visible, Pull.gathered_cons]
  rfl

theorem exists_visible {lexer : Lexer} (found : lexer.next.token?.isSome = true) :
    ∃ c text, lexer.cursor.rest.dropWhile isWhitespace = c :: text :=
  List.exists_cons_of_ne_nil (next_token?_isSome.mp found)

theorem blank_of_end {lexer : Lexer} (finished : ¬lexer.next.token?.isSome = true) :
    lexer.cursor.rest.dropWhile isWhitespace = [] := by
  by_contra visible
  exact finished (next_token?_isSome.mpr visible)

theorem visible_of_head {lexer : Lexer} {c : Char} {text : List Char}
    (visible : lexer.cursor.rest.dropWhile isWhitespace = c :: text) : isWhitespace c = false := by
  have stops := stops_dropWhile isWhitespace lexer.cursor.rest
  rw [visible] at stops
  exact stops c rfl

theorem rest_parts {lexer : Lexer} {c : Char} {text : List Char}
    (visible : lexer.cursor.rest.dropWhile isWhitespace = c :: text) :
    lexer.cursor.rest = lexer.cursor.rest.takeWhile isWhitespace ++
      ((Scan.leading c text).taken ++ (Scan.leading c text).rest) := by
  rw [Scan.leading_parts c text, ← visible]
  exact List.takeWhile_append_dropWhile.symm

theorem drain_line (lexer : Lexer) :
    lexer.drain.2.line = lexer.line + lineEnds lexer.cursor.rest [] := by
  fun_induction drain lexer with
  | case1 lexer pull found left ih =>
      obtain ⟨c, text, visible⟩ := exists_visible found
      change lexer.next.lexer.drain.2.line = _
      rw [ih, next_line visible, next_rest visible]
      conv => rhs; rw [rest_parts visible, ← List.append_assoc, lineEnds_append, List.append_nil]
      exact Nat.add_assoc _ _ _
  | case2 lexer pull finished =>
      have blank := blank_of_end finished
      have parts := takeWhile_of_nothing_left blank
      change lexer.next.lexer.line = _
      rw [next_of_blank blank, skipWhitespace_line, blank, parts]

def past (lexer : Lexer) (count : Nat) : Lexer :=
  { lexer with cursor := lexer.cursor.advanceBy count }

theorem next_past {lexer : Lexer} {gap text : List Char}
    (blank : ∀ c ∈ gap, isWhitespace c = true) (parts : lexer.cursor.rest = gap ++ text) :
    (lexer.past gap.length).next = lexer.next := by
  have run : (gap ++ text).takeWhile isWhitespace = gap ++ text.takeWhile isWhitespace :=
    List.takeWhile_append_of_pos blank
  have same : (lexer.past gap.length).skipWhitespace = lexer.skipWhitespace := by
    simp only [skipWhitespace, past, Cursor.advanceWhile, Cursor.advanceBy_rest, parts,
      List.drop_left, run, List.length_append, Cursor.advanceBy_add]
  unfold next
  rw [same]

theorem drain_past {lexer : Lexer} {gap text : List Char}
    (blank : ∀ c ∈ gap, isWhitespace c = true) (parts : lexer.cursor.rest = gap ++ text) :
    (lexer.past gap.length).drain = lexer.drain := by
  rw [drain.eq_1 (lexer.past gap.length), drain.eq_1 lexer, next_past blank parts]

theorem drain_errors (lexer : Lexer) :
    lexer.drain.2.errors = lexer.errors.note lexer.reports := by
  fun_induction drain lexer with
  | case1 lexer pull found left ih =>
      obtain ⟨c, text, visible⟩ := exists_visible found
      rw [reports_of_visible visible, LineErrors.note_append, ← next_errors]
      exact ih
  | case2 lexer pull finished =>
      have blank := blank_of_end finished
      rw [reports_of_blank blank, next_errors, next_of_blank blank]
      rfl

/-- Lexers that are related before a pull and after it are related when both have drained. -/
theorem drain_related {related : Lexer → Lexer → Prop} {observed : Pull → Pull → Prop}
    (step : ∀ first second, related first second →
      first.next.token?.isSome = second.next.token?.isSome ∧
        related first.next.lexer second.next.lexer ∧
        (first.next.token?.isSome = true → observed first.next second.next))
    (first second : Lexer) (start : related first second) :
    List.Forall₂ observed first.drain.1 second.drain.1 ∧
      related first.drain.2 second.drain.2 := by
  fun_induction drain first generalizing second with
  | case1 first pull found left ih =>
      obtain ⟨same, after, seen⟩ := step first second start
      obtain ⟨c, text, also⟩ := exists_visible (same ▸ found)
      obtain ⟨streams, ends⟩ := ih second.next.lexer after
      rw [drain_of_visible also]
      exact ⟨.cons (seen found) streams, ends⟩
  | case2 first pull finished =>
      obtain ⟨same, after, _⟩ := step first second start
      rw [drain_of_end (same ▸ finished)]
      exact ⟨.nil, after⟩

end Lexer
end ScriptLexer
