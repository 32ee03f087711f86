import ScriptLexer.Proofs.Bookkeeping
import ScriptLexer.Proofs.Context
import ScriptLexer.Proofs.FaultLines

/-! Operators and words are read as far as they go. An operator is the longest entry of the table
that its text begins with, and there always is one; a word is a whole run of identifier characters,
and the tables of words are asked about that run alone. -/

namespace ScriptLexer

namespace Vocabulary

theorem punctuators_nodup : (punctuators.map Prod.fst).Nodup := by decide

theorem lookup_of_mem {entries : List (String × TokenKind)}
    (distinct : (entries.map Prod.fst).Nodup) {entry : String × TokenKind} (member : entry ∈ entries) :
    entries.lookup entry.1 = some entry.2 := by
  obtain ⟨before, after, rfl⟩ := List.append_of_mem member
  refine List.lookup_eq_some_iff.mpr ⟨before, after, rfl, fun other early => ?_⟩
  rw [List.map_append, List.nodup_append] at distinct
  have apart := distinct.2.2 other.1 (List.mem_map_of_mem early) entry.1 (by simp)
  simpa using apart.symm

theorem lookup_eq_none_of_not_mem {entries : List (String × TokenKind)} {key : String}
    (absent : key ∉ entries.map Prod.fst) : entries.lookup key = none := by
  rw [List.lookup_eq_none_iff]
  intro entry member
  have apart : key ≠ entry.1 := fun same => absent (same ▸ List.mem_map_of_mem member)
  simpa using apart

structure LongestEntry (entries : List (String × TokenKind)) (text : List Char)
    (entry : String × TokenKind) : Prop where
  listed : entry ∈ entries
  leads : entry.1.toList <+: text
  longest : ∀ other ∈ entries, other.1.toList <+: text → other.1.length ≤ entry.1.length

theorem LongestEntry.unique {entries : List (String × TokenKind)}
    (distinct : (entries.map Prod.fst).Nodup) {text : List Char} {first second : String × TokenKind}
    (one : LongestEntry entries text first) (other : LongestEntry entries text second) :
    first = second := by
  have same : first.1.toList.length = second.1.toList.length := by
    rw [String.length_toList, String.length_toList]
    exact Nat.le_antisymm (other.longest first one.listed one.leads)
      (one.longest second other.listed other.leads)
  have equal : first.1 = second.1 := by
    apply String.toList_injective
    rw [List.prefix_iff_eq_take.mp one.leads, List.prefix_iff_eq_take.mp other.leads, same]
  have known := lookup_of_mem distinct one.listed
  have also := lookup_of_mem distinct other.listed
  rw [equal, also] at known
  exact Prod.ext equal (Option.some.inj known).symm

/-- How a word is looked up: among the reserved words, else among the contextual ones. -/
inductive WordKind (word : String) : TokenKind → Prop
  | reserved {kind : TokenKind} (listed : (word, kind) ∈ reservedWords) : WordKind word kind
  | contextual {kind : TokenKind} (free : word ∉ reservedWords.map Prod.fst)
      (listed : (word, kind) ∈ contextualWords) : WordKind word kind
  | identifier (free : word ∉ reservedWords.map Prod.fst)
      (unlisted : word ∉ contextualWords.map Prod.fst) : WordKind word .identifier

theorem wordKind?_getD {word : String} {kind : TokenKind} (named : WordKind word kind) :
    (wordKind? word).getD .identifier = kind := by
  have reservedOnce : (reservedWords.map Prod.fst).Nodup := by decide
  have contextualOnce : (contextualWords.map Prod.fst).Nodup := by decide
  unfold wordKind? words
  rw [List.lookup_append]
  cases named with
  | reserved listed => rw [lookup_of_mem reservedOnce listed]; rfl
  | contextual free listed =>
      rw [lookup_eq_none_of_not_mem free, lookup_of_mem contextualOnce listed]
      rfl
  | identifier free unlisted =>
      rw [lookup_eq_none_of_not_mem free, lookup_eq_none_of_not_mem unlisted]
      rfl

theorem exists_wordKind (word : String) : ∃ kind, WordKind word kind := by
  by_cases reserved : word ∈ reservedWords.map Prod.fst
  · obtain ⟨⟨_, kind⟩, listed, rfl⟩ := List.mem_map.mp reserved
    exact ⟨kind, .reserved listed⟩
  · by_cases contextual : word ∈ contextualWords.map Prod.fst
    · obtain ⟨⟨_, kind⟩, listed, rfl⟩ := List.mem_map.mp contextual
      exact ⟨kind, .contextual reserved listed⟩
    · exact ⟨.identifier, .identifier reserved contextual⟩

theorem wordKind_iff (word : String) (kind : TokenKind) :
    WordKind word kind ↔ (wordKind? word).getD .identifier = kind := by
  constructor
  · exact wordKind?_getD
  · rintro rfl
    obtain ⟨kind, named⟩ := exists_wordKind word
    rwa [wordKind?_getD named]

end Vocabulary

namespace Token

theorem ofWord_kind (text : List Char) :
    (ofWord text).kind = (Vocabulary.wordKind? (String.ofList text)).getD .identifier := by
  unfold ofWord ofKeyword?
  cases Vocabulary.wordKind? (String.ofList text) with
  | none => rfl
  | some kind =>
      simp only [Option.map_some, Option.getD_some]
      split <;> rfl

theorem ofWord_lexeme (text : List Char) :
    (ofWord text).lexeme =
      if (ofWord text).kind = .identifier ∨ (ofWord text).kind.carriesLexeme = true then
        some (String.ofList text)
      else none := by
  unfold ofWord ofKeyword?
  cases known : Vocabulary.wordKind? (String.ofList text) with
  | none => rfl
  | some kind =>
      have table : ∀ entry ∈ Vocabulary.words, entry.2 ≠ .identifier := by decide
      have named : kind ≠ .identifier := table _ (Vocabulary.mem_of_lookup known)
      simp only [Option.map_some, Option.getD_some]
      by_cases carries : kind.carriesLexeme = true
      · simp [carries]
      · simp [carries, named, bare]

end Token

namespace Scan

structure OpensOperator (c : Char) (text : List Char) : Prop where
  start : isOperatorStart c = true
  comment : c = '/' → text.head? ≠ some '/' ∧ text.head? ≠ some '*'
  number : isSign c = true ∨ c = '.' → ∀ d, text.head? = some d → isDecimalDigit d = false

theorem leading_operator {c : Char} {text : List Char} (opens : OpensOperator c text) :
    leading c text = punctuator c text := by
  unfold leading
  by_cases slashed : isCommentStart c = true
  · obtain rfl : c = '/' := by simpa [isCommentStart] using slashed
    obtain ⟨line, block⟩ := opens.comment rfl
    rw [if_pos slashed, slash_operator line block]
  · have table : operatorStarts.any isDecimalDigit = false := by decide
    have member : c ∈ operatorStarts := by simpa [isOperatorStart] using opens.start
    have unnumbered : ¬startsNumber (c :: text) = true := by
      rw [startsNumber_cons]
      rintro (digit | ⟨front, d, first, digit⟩)
      · exact List.any_eq_false.mp table c member digit
      · exact Bool.false_ne_true ((opens.number front d first).symm.trans digit)
    rw [if_neg slashed, if_neg unnumbered, if_pos opens.start]

theorem longestEntry_of_longestPunctuator {seen rest : List Char} {kind : TokenKind}
    (found : LongestPunctuator seen rest kind) :
    Vocabulary.LongestEntry Vocabulary.punctuators (seen ++ rest) (String.ofList seen, kind) := by
  refine ⟨Vocabulary.mem_of_lookup found.known, ⟨rest, by simp⟩, fun other listed leads => ?_⟩
  by_contra longer
  have known := Vocabulary.lookup_of_mem Vocabulary.punctuators_nodup listed
  have reaches : seen <+: other.1.toList := by
    apply List.prefix_of_prefix_length_le (List.prefix_append seen rest) leads
    rw [String.length_toList]
    simp only [String.length_ofList] at longer
    omega
  obtain ⟨ahead, parts⟩ := reaches
  have follows : ahead <+: rest := by
    rw [← parts] at leads
    exact (List.prefix_append_right_inj seen).mp leads
  have more : ahead ≠ [] := by
    rintro rfl
    apply longer
    rw [← String.length_toList, ← parts]
    simp
  have absent := found.longest ahead more follows
  rw [parts, String.ofList_toList] at absent
  exact Option.some_ne_none _ (known.symm.trans absent)

theorem not_isDecimalDigit_of_isIdentifierStart {c : Char} (start : isIdentifierStart c = true) :
    isDecimalDigit c = false := by
  apply Bool.eq_false_iff.mpr
  intro digit
  simp only [isIdentifierStart, Bool.or_eq_true, beq_iff_eq] at start
  rcases start with (letter | rfl) | rfl
  · grind [isDecimalDigit, Char.isDigit, Char.isAlpha, Char.isUpper, Char.isLower]
  · cases digit
  · cases digit

theorem leading_word {c : Char} (start : isIdentifierStart c = true) (text : List Char) :
    leading c text = word (c :: text) := by
  have table : ((operatorStarts ++ ['"', '\'']).all fun c => !isIdentifierStart c) = true := by
    decide
  have apart : ∀ d ∈ operatorStarts ++ ['"', '\''], c ≠ d := by
    rintro d member rfl
    have outside := List.all_eq_true.mp table c member
    rw [start] at outside
    cases outside
  have slashed : ¬isCommentStart c = true := by
    simpa [isCommentStart] using apart '/' (by decide)
  have unnumbered : ¬startsNumber (c :: text) = true := by
    rw [startsNumber_cons]
    rintro (digit | ⟨front, _⟩)
    · exact Bool.false_ne_true ((not_isDecimalDigit_of_isIdentifierStart start).symm.trans digit)
    · simp only [isSign, Bool.or_eq_true, beq_iff_eq] at front
      rcases front with (plus | minus) | point
      · exact apart '+' (by decide) plus
      · exact apart '-' (by decide) minus
      · exact apart '.' (by decide) point
  have operator : ¬isOperatorStart c = true := by
    intro opens
    have member : c ∈ operatorStarts := by simpa [isOperatorStart] using opens
    exact apart c (List.mem_append_left _ member) rfl
  have unquoted : ¬isQuote c = true := by
    have double := apart '"' (by decide)
    have single := apart '\'' (by decide)
    simp [isQuote, double, single]
  rw [leading, if_neg slashed, if_neg unnumbered, if_neg operator, if_neg unquoted, if_pos start]

/-- The table has every operator, so that no scan ends for want of one. -/
theorem leading_fault_ne_unsupported {c : Char} {text : List Char} {code : ErrorCode}
    (faulty : (leading c text).verdict = .fault code) : code ≠ .unsupportedPunctuator := by
  rintro rfl
  cases leading_malformed faulty with
  | number settled => exact absurd settled (by decide)
  | comment unended => cases unended
  | literal listed => exact absurd listed (by decide)
  | unexpected unknown => cases unknown

end Scan

namespace Lexer

theorem report_ne_unsupported {lexer : Lexer} {report : Diagnostic}
    (reported : lexer.next.report? = some report) : report.code ≠ .unsupportedPunctuator := by
  obtain ⟨c, text, visible⟩ := visible_of_report reported
  exact Scan.leading_fault_ne_unsupported (report_found visible reported).1

theorem next_operator {lexer : Lexer} {c : Char} {text : List Char}
    (opens : Scan.OpensOperator c text)
    (visible : lexer.cursor.rest.dropWhile isWhitespace = c :: text) :
    ∃ entry, (∀ other, Vocabulary.LongestEntry Vocabulary.punctuators (c :: text) other ↔
        other = entry) ∧
      lexer.next.Takes ⟨entry.2, some entry.1⟩ entry.1.toList (c :: text) := by
  obtain ⟨seen, rest, kind, parts, found, scanned⟩ := Scan.punctuator_accepts opens.start text
  have longest := Scan.longestEntry_of_longestPunctuator found
  rw [parts] at longest
  refine ⟨(String.ofList seen, kind), fun other => ⟨fun also => ?_, ?_⟩, ?_⟩
  · exact also.unique Vocabulary.punctuators_nodup longest
  · rintro rfl
    exact longest
  · rw [String.toList_ofList]
    exact next_takes visible ((Scan.leading_operator opens).trans scanned)

theorem next_word {lexer : Lexer} {c : Char} {text : List Char}
    (start : isIdentifierStart c = true)
    (visible : lexer.cursor.rest.dropWhile isWhitespace = c :: text) :
    ∃ run token, LongestRun isIdentifierPart (c :: text) run ∧
      lexer.next.Takes token run (c :: text) ∧
      (∀ kind, Vocabulary.WordKind (String.ofList run) kind ↔ token.kind = kind) ∧
      token.lexeme = if token.kind = .identifier ∨ token.kind.carriesLexeme = true then
        some (String.ofList run) else none := by
  refine ⟨_, _, longestRun_takeWhile isIdentifierPart (c :: text),
    next_takes visible (Scan.leading_word start text), fun kind => ?_, Token.ofWord_lexeme _⟩
  rw [Vocabulary.wordKind_iff, Token.ofWord_kind]

/-- An operator is the longest entry of the table that the text begins with, and so there is always
one; a word is a whole run, and its kind that of the run. -/
theorem next_longest_match :
    (∀ (lexer : Lexer) (c : Char) (text : List Char),
      lexer.cursor.rest.dropWhile isWhitespace = c :: text → Scan.OpensOperator c text →
      ∃ entry, (∀ other, Vocabulary.LongestEntry Vocabulary.punctuators (c :: text) other ↔
          other = entry) ∧
        lexer.next.Takes ⟨entry.2, some entry.1⟩ entry.1.toList (c :: text)) ∧
    (∀ (lexer : Lexer) (report : Diagnostic), lexer.next.report? = some report →
      report.code ≠ .unsupportedPunctuator) ∧
    (∀ (text : List Char) (requests : List Session.Request),
      let session := (Session.start text).after requests
      (∀ report ∈ session.log.entries, report.code ≠ .unsupportedPunctuator) ∧
        ∀ entry ∈ session.lexer.errors.entries, entry.2 ≠ .unsupportedPunctuator) ∧
    ∀ (lexer : Lexer) (c : Char) (text : List Char),
      lexer.cursor.rest.dropWhile isWhitespace = c :: text → isIdentifierStart c = true →
      ∃ run token, LongestRun isIdentifierPart (c :: text) run ∧
        lexer.next.Takes token run (c :: text) ∧
        (∀ kind, Vocabulary.WordKind (String.ofList run) kind ↔ token.kind = kind) ∧
        token.lexeme = if token.kind = .identifier ∨ token.kind.carriesLexeme = true then
          some (String.ofList run) else none := by
  have logged : ∀ (text : List Char) (requests : List Session.Request),
      ∀ report ∈ ((Session.start text).after requests).log.entries,
        report.code ≠ .unsupportedPunctuator := by
    intro text requests report member
    obtain ⟨before, reported⟩ := Session.exists_pull_of_mem_log member
    exact report_ne_unsupported reported
  refine ⟨fun lexer c text visible opens => next_operator opens visible,
    fun lexer report reported => report_ne_unsupported reported,
    fun text requests => ⟨logged text requests, fun entry member => ?_⟩,
    fun lexer c text visible start => next_word start visible⟩
  obtain ⟨report, member, same⟩ := Session.exists_logged_of_mem_errors member
  rw [← same]
  exact logged text requests report member

/-- Of two points only one is taken, since the table has one and three, and not two; a reserved word
ends in front of a letter that belongs to no word, and that letter is what is reported. -/
theorem next_longest_match_points :
    let points := ['.', '.', 'é']
    let word := ['l', 'e', 't', 'é']
    let operator := Lexer.ofText (' ' :: points) "s"
    let keyword := Lexer.ofText word "s"
    let letter := Lexer.ofText ['é'] "<input>"
    let report : Diagnostic := ⟨"<input>", .unexpectedToken, 1⟩
    let session := (Session.start ['é']).after [.next]
    operator.cursor.rest.dropWhile isWhitespace = points ∧ Scan.OpensOperator '.' ['.', 'é'] ∧
      Vocabulary.LongestEntry Vocabulary.punctuators points (".", .dot) ∧
      operator.next.Takes ⟨.dot, some "."⟩ ['.'] points ∧
      keyword.cursor.rest.dropWhile isWhitespace = word ∧ isIdentifierStart 'l' = true ∧
      keyword.next.Takes (.bare .letKeyword) ['l', 'e', 't'] word ∧
      Vocabulary.WordKind "let" .letKeyword ∧
      letter.next.report? = some report ∧ report ∈ session.log.entries ∧
      (report.line, report.code) ∈ session.lexer.errors.entries ∧
      report.code ≠ .unsupportedPunctuator := by
  intro points word operator keyword letter report session
  have visible : operator.cursor.rest.dropWhile isWhitespace = points := by decide
  have opens : Scan.OpensOperator '.' ['.', 'é'] := by
    refine ⟨by decide, by decide, fun _ d first => ?_⟩
    obtain rfl := Option.some.inj first
    decide
  have longest : Vocabulary.LongestEntry Vocabulary.punctuators points (".", .dot) :=
    ⟨by decide, by decide, by decide⟩
  have also : keyword.cursor.rest.dropWhile isWhitespace = word := by decide
  have start : isIdentifierStart 'l' = true := by decide
  have given : keyword.next.token? = some (.bare .letKeyword) := by
    unfold keyword word
    cbv
  have left : keyword.next.lexer.cursor.rest = ['é'] := by
    unfold keyword word
    cbv
  have reported : letter.next.report? = some report := by
    unfold letter report
    cbv
  have entries : session.log.entries = [report] := by
    unfold session report
    cbv
  have errors : session.lexer.errors.entries = [(report.line, report.code)] := by
    unfold session report
    cbv
  have logged : report ∈ session.log.entries := by simp [entries]
  have listed : (report.line, report.code) ∈ session.lexer.errors.entries := by simp [errors]
  obtain ⟨operators, _, supported, words⟩ := next_longest_match
  obtain ⟨entry, only, takes⟩ := operators operator '.' ['.', 'é'] visible opens
  obtain rfl := (only _).mp longest
  obtain ⟨run, token, _, taken, kinds, _⟩ := words keyword 'l' ['e', 't', 'é'] also start
  obtain rfl := Option.some.inj (given.symm.trans taken.token)
  have parts := taken.parts
  rw [left] at parts
  obtain rfl : run = ['l', 'e', 't'] := List.append_cancel_right parts
  exact ⟨visible, opens, longest, takes, also, start, taken, (kinds _).mpr rfl, reported, logged,
    listed, (supported ['é'] [.next]).1 report logged⟩

end Lexer
end ScriptLexer
