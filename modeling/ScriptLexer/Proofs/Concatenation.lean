import Mathlib
import ScriptLexer.Proofs.Context
import ScriptLexer.Proofs.Pull

/-! Lexing one text behind another. Behind a line feed a text is read as it is read alone, with its
lines counted on, if no token of the text in front ran out at its end. -/

namespace ScriptLexer

def Diagnostic.below (lines : Nat) (diagnostic : Diagnostic) : Diagnostic :=
  { diagnostic with line := diagnostic.line + lines }

theorem filterMap_of_forall₂ {α β γ : Type} {first : α → Option β} {second : α → Option γ}
    {change : β → γ} {before after : List α}
    (related : List.Forall₂ (fun a b => second b = (first a).map change) before after) :
    after.filterMap second = (before.filterMap first).map change := by
  induction related with
  | nil => rfl
  | @cons a b before after same _ ih =>
      cases found : first a with
      | none =>
          rw [found] at same
          rw [List.filterMap_cons_none found, List.filterMap_cons_none same, ih]
      | some value =>
          rw [found] at same
          rw [List.filterMap_cons_some found, List.filterMap_cons_some same, ih, List.map_cons]

namespace Lexer

structure Below (lines : Nat) (first second : Lexer) : Prop where
  rest : second.cursor.rest = first.cursor.rest
  source : second.source = first.source
  line : second.line = first.line + lines

/-- No state but the text, the name and the line goes from one pull to the next. -/
theorem Below.next {lines : Nat} {first second : Lexer} (below : Below lines first second) :
    second.next.token? = first.next.token? ∧
      second.next.report? = first.next.report?.map (Diagnostic.below lines) ∧
      Below lines first.next.lexer second.next.lexer := by
  obtain ⟨rest, source, line⟩ := below
  cases visible : first.cursor.rest.dropWhile isWhitespace with
  | nil =>
      have also := visible
      rw [← rest] at also
      rw [next_of_blank visible, next_of_blank also]
      refine ⟨rfl, rfl, ?_, source, ?_⟩
      · rw [skipWhitespace_rest, skipWhitespace_rest, rest]
      · rw [skipWhitespace_line, skipWhitespace_line, rest, line]
        omega
  | cons c text =>
      have also := visible
      rw [← rest] at also
      refine ⟨?_, ?_, ?_, ?_, ?_⟩
      · rw [next_of_visible visible, next_of_visible also, consume_token?, consume_token?]
      · rw [next_report? visible, next_report? also, rest, source, line]
        cases (Scan.leading c text).verdict.fault? with
        | none => rfl
        | some code =>
            simp only [Option.map_some, Diagnostic.below]
            congr 2
            omega
      · rw [next_rest visible, next_rest also]
      · rw [next_source, next_source, source]
      · rw [next_line visible, next_line also, rest, line]
        omega

theorem Below.streams {lines : Nat} {first second : Lexer} (below : Below lines first second) :
    second.tokens = first.tokens ∧
      second.reports = first.reports.map (Diagnostic.below lines) := by
  let observed : Pull → Pull → Prop := fun before after =>
    after.token? = before.token?.map id ∧
      after.report? = before.report?.map (Diagnostic.below lines)
  have step : ∀ first second, Below lines first second →
      first.next.token?.isSome = second.next.token?.isSome ∧
        Below lines first.next.lexer second.next.lexer ∧
        (first.next.token?.isSome = true → observed first.next second.next) := by
    intro first second below
    obtain ⟨tokens, reports, after⟩ := below.next
    exact ⟨by rw [tokens], after, fun _ => ⟨by rw [tokens, Option.map_id, id], reports⟩⟩
  have streams := (drain_related step first second below).1
  constructor
  · have same := filterMap_of_forall₂ (streams.imp fun _ _ same => same.1)
    rwa [List.map_id] at same
  · exact filterMap_of_forall₂ (streams.imp fun _ _ same => same.2)

structure Ahead (more : List Char) (first second : Lexer) : Prop where
  rest : second.cursor.rest = first.cursor.rest ++ '\n' :: more
  source : second.source = first.source
  line : first.cursor.rest = [] ∨ second.line = first.line

theorem leading_append_feed {c : Char} {text : List Char}
    (settled : (Scan.leading c text).Settled) (more : List Char) :
    Scan.leading c (text ++ '\n' :: more) =
      (Scan.leading c text).onto ((Scan.leading c text).rest ++ '\n' :: more) := by
  obtain ⟨tail, taken, parts⟩ := Scan.leading_taken c text
  have feed : isLineTerminator '\n' = true := by decide
  have again := Scan.leading_onto settled
    (showsOnly_append (Scan.leading c text).rest more feed) taken
  rwa [← List.append_assoc, parts] at again

/-- A settled report keeps its line when more text follows, also a line feed: its own text does not
end in a carriage return. -/
theorem report_line_append {c : Char} {text : List Char} {code : ErrorCode}
    (visible : isWhitespace c = false) (faulty : (Scan.leading c text).verdict = .fault code)
    (settled : code ∈ Scan.settledCodes) (gap more : List Char) :
    lineEnds (gap ++ (Scan.leading c text).seen)
        ((Scan.leading c text).skipped ++ ((Scan.leading c text).rest ++ more)) =
      lineEnds (gap ++ (Scan.leading c text).seen)
        ((Scan.leading c text).skipped ++ (Scan.leading c text).rest) := by
  have inline := Scan.leading_fault_inline visible faulty settled
  obtain ⟨tail, taken, _⟩ := Scan.leading_taken c text
  apply lineEnds_congr
  rw [← List.append_assoc]
  by_cases nothing : (Scan.leading c text).skipped ++ (Scan.leading c text).rest = []
  · right
    intro last
    have seen : (Scan.leading c text).seen = c :: tail := by
      rw [← taken, Scan.taken, (List.append_eq_nil_iff.mp nothing).1, List.append_nil]
    rw [seen, List.getLast?_append_cons] at last
    have member := List.mem_of_getLast? last
    rw [← seen] at member
    have ends : isLineTerminator '\r' = true := by decide
    exact Bool.false_ne_true ((inline '\r' member).symm.trans ends)
  · left
    exact List.head?_append_of_ne_nil _ nothing

section Ahead

variable {more : List Char} {first second : Lexer} {c : Char} {text : List Char}
  (ahead : Ahead more first second)
  (visible : first.cursor.rest.dropWhile isWhitespace = c :: text)
include ahead visible

theorem Ahead.parts :
    second.cursor.rest.takeWhile isWhitespace = first.cursor.rest.takeWhile isWhitespace ∧
      second.cursor.rest.dropWhile isWhitespace = c :: (text ++ '\n' :: more) := by
  have parts := List.takeWhile_append_dropWhile (p := isWhitespace) (l := first.cursor.rest)
  have whole := ahead.rest
  rw [← parts, visible, List.append_assoc, List.cons_append] at whole
  rw [whole]
  exact takeWhile_run (fun _ => List.mem_takeWhile_imp) (stops_cons (visible_of_head visible))

theorem Ahead.next (settled : (Scan.leading c text).Settled) :
    second.next.report? = first.next.report? ∧ Ahead more first.next.lexer second.next.lexer := by
  obtain ⟨gap, also⟩ := ahead.parts visible
  have scanned := leading_append_feed settled more
  have line : second.line = first.line := by
    rcases ahead.line with nothing | same
    · rw [nothing] at visible
      cases visible
    · exact same
  constructor
  · rw [next_report? visible, next_report? also, scanned, gap, ahead.source, line]
    cases faulty : (Scan.leading c text).verdict with
    | token token => simp only [Scan.onto, faulty, Verdict.fault?, Option.map_none]
    | fault code =>
        have listed := settled code (by rw [faulty]; rfl)
        have same := report_line_append (visible_of_head visible) faulty listed
          (first.cursor.rest.takeWhile isWhitespace) ('\n' :: more)
        simp only [Scan.onto, faulty, Verdict.fault?, Option.map_some, same]
  · refine ⟨?_, ?_, ?_⟩
    · rw [next_rest visible, next_rest also, scanned]
      rfl
    · rw [next_source, next_source, ahead.source]
    · rw [next_rest visible, next_line visible, next_line also, scanned, gap, line]
      by_cases finished : (Scan.leading c text).rest = []
      · exact .inl finished
      · right
        congr 1
        apply lineEnds_congr
        left
        obtain ⟨d, rest, present⟩ := List.exists_cons_of_ne_nil finished
        rw [Scan.onto, present]
        rfl

theorem Ahead.next_lineEnds (settled : (Scan.leading c text).Settled) :
    second.next.lexer.line + lineEnds (first.next.lexer.cursor.rest ++ ['\n']) more =
      second.line + lineEnds (first.cursor.rest ++ ['\n']) more := by
  obtain ⟨gap, also⟩ := ahead.parts visible
  have step : second.next.lexer.line = second.line +
      lineEnds (first.cursor.rest.takeWhile isWhitespace ++ (Scan.leading c text).taken)
        (first.next.lexer.cursor.rest ++ ['\n'] ++ more) := by
    rw [next_line also, leading_append_feed settled, gap, next_rest visible, List.append_assoc]
    rfl
  have whole := rest_parts visible
  rw [← next_rest visible, ← List.append_assoc] at whole
  calc second.next.lexer.line + lineEnds (first.next.lexer.cursor.rest ++ ['\n']) more
      _ = second.line + lineEnds (first.cursor.rest.takeWhile isWhitespace ++
            (Scan.leading c text).taken ++ (first.next.lexer.cursor.rest ++ ['\n'])) more := by
        rw [step, lineEnds_append (_ ++ _) (_ ++ ['\n']), Nat.add_assoc]
      _ = second.line + lineEnds (first.cursor.rest ++ ['\n']) more := by
        rw [← List.append_assoc, ← whole]

end Ahead

/-- `behind` is the lexer that `second` has become once it has read what `first` reads and the line
feed behind it. -/
structure Behind (more : List Char) (first second behind : Lexer) : Prop where
  rest : behind.cursor.rest = more
  source : behind.source = first.source
  line : behind.line = second.line + lineEnds (first.cursor.rest ++ ['\n']) more
  tokens : second.tokens = first.tokens ++ behind.tokens
  reports : second.reports = first.reports ++ behind.reports

section Behind

variable {more : List Char} {first second : Lexer} (ahead : Ahead more first second)
include ahead

theorem Ahead.behind_of_next {behind : Lexer} {c : Char} {text : List Char}
    (visible : first.cursor.rest.dropWhile isWhitespace = c :: text)
    (settled : (Scan.leading c text).Settled)
    (after : Behind more first.next.lexer second.next.lexer behind) :
    Behind more first second behind := by
  obtain ⟨rest, source, line, tokens, reports⟩ := after
  obtain ⟨report, _⟩ := ahead.next visible settled
  obtain ⟨_, also⟩ := ahead.parts visible
  refine ⟨rest, source.trans (next_source first), ?_, ?_, ?_⟩
  · rw [line, ahead.next_lineEnds visible settled]
  · rw [tokens_of_visible visible, tokens_of_visible also, leading_append_feed settled, tokens]
    rfl
  · rw [reports_of_visible visible, reports_of_visible also, report, reports, List.append_assoc]

theorem Ahead.behind_of_blank (blank : first.cursor.rest.dropWhile isWhitespace = []) :
    Behind more first second (second.past (first.cursor.rest ++ ['\n']).length) := by
  have parts := takeWhile_of_nothing_left blank
  have whole : second.cursor.rest = (first.cursor.rest ++ ['\n']) ++ more := by
    rw [ahead.rest, List.append_assoc]
    rfl
  have skipped : ∀ c ∈ first.cursor.rest ++ ['\n'], isWhitespace c = true := by
    intro c member
    rcases List.mem_append.mp member with inside | feed
    · rw [← parts] at inside
      exact List.mem_takeWhile_imp inside
    · obtain rfl := List.mem_singleton.mp feed
      decide
  have same := drain_past skipped whole
  refine ⟨?_, ahead.source, ?_, ?_, ?_⟩
  · rw [past, Cursor.advanceBy_rest, whole, List.drop_left]
  · rw [Lexer.line, past, Cursor.advanceBy_line, whole, List.take_left, List.drop_left]
    rfl
  · rw [tokens_of_blank blank, tokens, tokens, same, List.nil_append]
  · rw [reports_of_blank blank, reports, reports, same, List.nil_append]

end Behind

theorem settled_of_reports {lexer : Lexer} {c : Char} {text : List Char}
    (visible : lexer.cursor.rest.dropWhile isWhitespace = c :: text)
    (settled : ∀ report ∈ lexer.reports, report.code ∈ Scan.settledCodes) :
    (Scan.leading c text).Settled ∧
      ∀ report ∈ lexer.next.lexer.reports, report.code ∈ Scan.settledCodes := by
  rw [reports_of_visible visible] at settled
  constructor
  · intro code faulty
    have made := next_report? visible
    rw [faulty] at made
    rw [made] at settled
    exact settled _ (List.mem_append_left _ List.mem_cons_self)
  · intro report member
    exact settled report (List.mem_append_right _ member)

theorem exists_behind (more : List Char) (first : Lexer) :
    ∀ second, Ahead more first second →
    (∀ report ∈ first.reports, report.code ∈ Scan.settledCodes) →
    ∃ behind, Behind more first second behind := by
  fun_induction drain first with
  | case1 first pull found left ih =>
      intro second ahead settled
      obtain ⟨c, text, visible⟩ := exists_visible found
      obtain ⟨sturdy, settledNext⟩ := settled_of_reports visible settled
      obtain ⟨_, aheadNext⟩ := ahead.next visible sturdy
      obtain ⟨behind, after⟩ := ih second.next.lexer aheadNext settledNext
      exact ⟨behind, ahead.behind_of_next visible sturdy after⟩
  | case2 first pull finished =>
      intro second ahead _
      exact ⟨_, ahead.behind_of_blank (blank_of_end finished)⟩

/-- A text behind a line feed is read as it is alone, if no error of the text in front of it may
come of running out: its tokens follow, and its reports with their lines counted on. -/
theorem drain_join (first second : List Char) (source : String)
    (settled : ∀ report ∈ (Lexer.ofText first source).reports, report.code ∈ Scan.settledCodes) :
    let joined := Lexer.ofText (first ++ '\n' :: second) source
    let line := (Lexer.ofText (first ++ ['\n']) source).drain.2.line
    joined.tokens = (Lexer.ofText first source).tokens ++ (Lexer.ofText second source).tokens ∧
      joined.reports = (Lexer.ofText first source).reports ++
        (Lexer.ofText second source).reports.map fun report =>
          { report with line := line + report.line - 1 } := by
  intro joined line
  have ahead : Ahead second (Lexer.ofText first source) joined := ⟨rfl, rfl, .inr rfl⟩
  obtain ⟨behind, rest, name, reached, tokens, reports⟩ := exists_behind second _ joined ahead settled
  have counted : line = 1 + lineEnds (first ++ ['\n']) [] := drain_line _
  have start : behind.line = 1 + lineEnds (first ++ ['\n']) [] := by
    rw [reached]
    change 1 + lineEnds (first ++ ['\n']) second = _
    rw [lineEnds_feed]
  have below : Below (line - 1) (Lexer.ofText second source) behind :=
    ⟨rest, name, by rw [start, counted]; change _ = 1 + _; omega⟩
  obtain ⟨sameTokens, sameReports⟩ := below.streams
  refine ⟨by rw [tokens, sameTokens], ?_⟩
  rw [reports, sameReports]
  congr 2
  funext report
  rw [Diagnostic.below]
  congr 1
  omega

theorem drain_join_across_pair :
    let first := ['@', '\r']
    let second := ['\n', '\'']
    (∀ report ∈ (Lexer.ofText first "s").reports, report.code ∈ Scan.settledCodes) ∧
      (Lexer.ofText (first ++ '\n' :: second) "s").reports =
        [⟨"s", .unexpectedToken, 1⟩, ⟨"s", .unterminatedStringLiteral, 3⟩] := by
  intro first second
  have reports : (Lexer.ofText first "s").reports = [⟨"s", .unexpectedToken, 1⟩] := by
    unfold first
    cbv
  have settled : ∀ report ∈ (Lexer.ofText first "s").reports, report.code ∈ Scan.settledCodes := by
    rw [reports]
    decide
  refine ⟨settled, ?_⟩
  rw [(drain_join first second "s" settled).2, reports]
  unfold first second
  cbv

end Lexer
end ScriptLexer
