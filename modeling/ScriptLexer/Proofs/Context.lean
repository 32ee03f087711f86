import Mathlib.Data.List.Basic
import ScriptLexer.Proofs.Malformed

/-! What stands behind a token. Of the text behind it a scanner sees no more than the next two
characters of the line. A scan that is settled comes out the same in front of any text that shows
nothing new there. -/

namespace ScriptLexer

/-- Within two characters of its line, `later` begins only as `rest` does. -/
def ShowsOnly (later rest : List Char) : Prop :=
  ∀ ahead, ahead.length ≤ 2 → (∀ c ∈ ahead, isLineTerminator c = false) →
    ahead <+: later → ahead <+: rest

theorem showsOnly_of_stops {later : List Char} (rest : List Char)
    (stops : Stops (fun c => !isLineTerminator c) later) : ShowsOnly later rest := by
  intro ahead _ inline follows
  cases ahead with
  | nil => exact List.nil_prefix
  | cons c ahead =>
      obtain ⟨tail, rfl⟩ := follows
      have terminator := stops c rfl
      simp [inline c List.mem_cons_self] at terminator

theorem showsOnly_append (rest more : List Char) {c : Char} (terminator : isLineTerminator c = true) :
    ShowsOnly (rest ++ c :: more) rest := by
  intro ahead _ inline follows
  obtain ⟨tail, parts⟩ := follows
  rcases List.append_eq_append_iff.mp parts with ⟨left, rfl, _⟩ | ⟨past, rfl, begins⟩
  · exact List.prefix_append ahead left
  · cases past with
    | nil => simp
    | cons d past =>
        obtain ⟨rfl, _⟩ := List.cons.inj begins
        have inside := inline c (List.mem_append_right rest List.mem_cons_self)
        exact absurd (inside.symm.trans terminator) Bool.false_ne_true

namespace ShowsOnly

variable {later rest : List Char}

theorem head_append (shows : ShowsOnly later rest) {c : Char} (tail : List Char)
    (first : (tail ++ later).head? = some c) (inline : isLineTerminator c = false) :
    (tail ++ rest).head? = some c := by
  cases tail with
  | cons d tail => exact first
  | nil =>
      cases later with
      | nil => cases first
      | cons d later =>
          obtain rfl := Option.some.inj first
          have begins := shows [d] (by simp) (by simpa using inline) (by simp)
          obtain ⟨more, rfl⟩ := begins
          rfl

theorem stops (shows : ShowsOnly later rest) {holds : Char → Bool}
    (inline : ∀ c, holds c = true → isLineTerminator c = false) (stopped : Stops holds rest) :
    Stops holds later := by
  intro c first
  apply Bool.eq_false_iff.mpr
  intro member
  have also := shows.head_append [] first (inline c member)
  exact Bool.false_ne_true ((stopped c also).symm.trans member)

end ShowsOnly

theorem takeWhile_shown {holds : Char → Bool} {text later : List Char}
    (inline : ∀ c, holds c = true → isLineTerminator c = false)
    (shows : ShowsOnly later (text.dropWhile holds)) :
    (text.takeWhile holds ++ later).takeWhile holds = text.takeWhile holds ∧
      (text.takeWhile holds ++ later).dropWhile holds = later :=
  takeWhile_run (fun _ => List.mem_takeWhile_imp) (shows.stops inline (stops_dropWhile holds text))

namespace Scan

def onto (scan : Scan) (later : List Char) : Scan := { scan with rest := later }

theorem word_onto {text later : List Char} (shows : ShowsOnly later (word text).rest) :
    word ((word text).taken ++ later) = (word text).onto later := by
  obtain ⟨run, left⟩ := takeWhile_shown (inline_of_outside (by decide)) shows
  have seen : (word text).taken = text.takeWhile isIdentifierPart := List.append_nil _
  rw [seen, word, run, left]
  rfl

theorem structural_onto (c : Char) (text later : List Char) :
    structural c later = (structural c text).onto later := by
  unfold structural
  split <;> rfl

theorem lineComment_onto {text later : List Char} (shows : ShowsOnly later (lineComment text).rest) :
    lineComment (text.takeWhile (fun c => !isLineTerminator c) ++ later) =
      (lineComment text).onto later := by
  have inline : ∀ c, (!isLineTerminator c) = true → isLineTerminator c = false :=
    fun c member => by simpa using member
  obtain ⟨run, left⟩ := takeWhile_shown inline shows
  rw [lineComment, run, left]
  rfl

theorem upToClose?_ne_nil {text inside : List Char} (found : upToClose? text = some inside) :
    inside ≠ [] := by
  fun_induction upToClose? text with
  | case1 => obtain rfl := Option.some.inj found; exact List.cons_ne_nil _ _
  | case2 => cases found
  | case3 c text unclosed ih =>
      obtain ⟨tail, _, rfl⟩ := Option.map_eq_some_iff.mp found
      exact List.cons_ne_nil c tail

theorem upToClose?_onto {text inside : List Char} (found : upToClose? text = some inside)
    (later : List Char) : upToClose? (inside ++ later) = some inside := by
  fun_induction upToClose? text generalizing inside with
  | case1 => obtain rfl := Option.some.inj found; rfl
  | case2 => cases found
  | case3 c text unclosed ih =>
      obtain ⟨tail, closed, rfl⟩ := Option.map_eq_some_iff.mp found
      have whole := upToClose?_append text tail closed
      obtain ⟨d, tail, rfl⟩ := List.exists_cons_of_ne_nil (upToClose?_ne_nil closed)
      have still : ∀ more, c = '*' → d :: tail ++ later = '/' :: more → False := by
        intro more star slash
        obtain ⟨rfl, _⟩ := List.cons.inj slash
        exact unclosed _ star whole.symm
      rw [List.cons_append, upToClose?.eq_3 c _ still, ih closed]
      rfl

theorem blockComment_onto {text inside : List Char} (found : upToClose? text = some inside)
    (later : List Char) : blockComment (inside ++ later) = (blockComment text).onto later := by
  rw [blockComment, blockComment, upToClose?_onto found later, found]
  simp [accept, onto]

/-- A body ends at its quote, so what it accepts it accepts in front of any text. -/
theorem body_onto {quote : Char} {text : List Char} (plain : quote ≠ '\\')
    (sound : (body quote text).fault = none) (later : List Char) :
    body quote ((body quote text).seen ++ later) = { body quote text with rest := later } := by
  fun_induction body quote text with
  | case1 => cases sound
  | case2 text escaped code faulty => cases sound
  | case3 text escaped valid ih =>
      obtain ⟨digits, rest, names, parts⟩ := exists_codePoint valid
      have known : escaped = ⟨none, '\x7b' :: (digits ++ ['\x7d']), rest⟩ := by
        change escape text = _
        rw [parts]
        exact escape_codePoint names rest
      have again := escape_codePoint names ((body quote rest).seen ++ later)
      have shown : (escape ('\x7b' :: (digits ++ '\x7d' :: ((body quote rest).seen ++ later)))).fault =
          none := by rw [again]
      have step := body_escape quote _ shown
      rw [known] at ih sound ⊢
      rw [again] at step
      simp only [ih sound] at step
      simpa [Body.prepend] using step
  | case4 c text other member ih =>
      have step := body_escaped quote other member ((body quote text).seen ++ later)
      rw [ih sound] at step
      exact step
  | case5 => cases sound
  | case6 text _ _ => exact body_close plain later
  | case7 c text _ lone outside member ih =>
      have unescaped : c ≠ '\\' := by
        intro escape
        cases text with
        | nil =>
            rw [body.eq_1] at sound
            cases sound
        | cons d text => exact lone d text escape rfl
      have step := body_raw ⟨unescaped, outside, member⟩ ((body quote text).seen ++ later)
      rw [ih sound] at step
      exact step
  | case8 => cases sound

/-- An entry that goes on from another by more than two characters is reached through one that
goes on by a single character. -/
theorem punctuatorKind?_step {seen ahead : List Char} {kind other : TokenKind}
    (known : Vocabulary.punctuatorKind? (String.ofList seen) = some kind)
    (further : Vocabulary.punctuatorKind? (String.ofList (seen ++ ahead)) = some other)
    (long : 2 < ahead.length) :
    ∃ c tail, ahead = c :: tail ∧
      Vocabulary.punctuatorKind? (String.ofList (seen ++ [c])) ≠ none := by
  have table : ∀ entry ∈ Vocabulary.punctuators,
      3 < entry.1.toList.length → entry.1.toList = ['>', '>', '>', '='] := by decide
  have entry := table _ (Vocabulary.mem_of_lookup further)
  rw [String.toList_ofList, List.length_append] at entry
  obtain ⟨more, _⟩ := Vocabulary.operatorStart_of_punctuatorKind? known
  have positive : 0 < seen.length := List.length_pos_iff.mpr more
  have whole := entry (by omega)
  have counted := congrArg List.length whole
  simp only [List.length_append, List.length_cons, List.length_nil] at counted
  have single : seen.length = 1 := by omega
  obtain ⟨d, rfl⟩ := List.length_eq_one_iff.mp single
  obtain ⟨rfl, rfl⟩ := List.cons.inj whole
  exact ⟨'>', _, rfl, by decide⟩

theorem LongestPunctuator.onto {seen rest later : List Char} {kind : TokenKind}
    (longest : LongestPunctuator seen rest kind) (shows : ShowsOnly later rest) :
    LongestPunctuator seen later kind := by
  refine ⟨longest.known, fun ahead more follows => ?_⟩
  by_contra present
  obtain ⟨other, known⟩ := Option.ne_none_iff_exists'.mp present
  obtain ⟨_, starts⟩ := Vocabulary.operatorStart_of_punctuatorKind? known
  have inline : ∀ c ∈ ahead, isLineTerminator c = false := fun c member =>
    inline_of_outside (by decide) c (starts c (List.mem_append_right seen member))
  by_cases short : ahead.length ≤ 2
  · have absent := longest.longest ahead more (shows ahead short inline follows)
    exact present absent
  · obtain ⟨c, tail, rfl, reached⟩ := punctuatorKind?_step longest.known known (by omega)
    have begins : [c] <+: later := (List.prefix_append [c] tail).trans follows
    have one : ∀ d ∈ [c], isLineTerminator d = false := by
      simpa using inline c List.mem_cons_self
    exact reached (longest.longest [c] (List.cons_ne_nil c []) (shows [c] (by simp) one begins))

theorem unsigned_of_startsNumber {text : List Char} (start : startsNumber text = true) :
    ∃ d tail, unsigned text = d :: tail ∧ isNumericRun d = true := by
  cases text with
  | nil => cases start
  | cons c text =>
      simp only [startsNumber, Bool.or_eq_true, Bool.and_eq_true, beq_iff_eq] at start
      by_cases signed : isSign c = true
      · have body : unsigned (c :: text) = text := by simp [unsigned, sign, signed]
        rw [body]
        rcases start with digit | ⟨_, digit⟩
        · simp only [isSign, Bool.or_eq_true, beq_iff_eq] at signed
          rcases signed with rfl | rfl <;> cases digit
        · cases text with
          | nil => cases digit
          | cons d text =>
              have first : isDecimalDigit d = true := digit
              exact ⟨d, text, rfl, by simp [isNumericRun, isDigitOrSeparator, first]⟩
      · have body : unsigned (c :: text) = c :: text := by simp [unsigned, sign, signed]
        refine ⟨c, text, body, ?_⟩
        rcases start with digit | ⟨signed | rfl, _⟩
        · simp [isNumericRun, isDigitOrSeparator, digit]
        · contradiction
        · decide

theorem head?_append_congr {run : List Char} (present : run ≠ []) (first second : List Char) :
    (run ++ first).head? = (run ++ second).head? := by
  rw [List.head?_append_of_ne_nil run present, List.head?_append_of_ne_nil run present]

theorem number_onto {text later : List Char} (start : startsNumber text = true)
    (shows : ShowsOnly later (number text).rest) :
    number ((number text).taken ++ later) = (number text).onto later ∧
      Stops isDigitOrSeparator (number text).rest := by
  obtain ⟨d, tail, begins, member⟩ := unsigned_of_startsNumber start
  have parts := sign_append_unsigned text
  have signed : sign (sign text ++ unsigned text) = sign text := by rw [parts]
  generalize sign text = signs at parts signed
  cases numeral text with
  | malformed run rest code body inside stops faulty =>
      have present : run ≠ [] := by
        rintro rfl
        rw [begins, List.nil_append] at body
        rw [← body] at stops
        exact Bool.false_ne_true ((stops d rfl).symm.trans member)
      rw [body] at parts signed
      have scanned := number_malformed signed inside stops faulty
      rw [parts] at scanned
      rw [scanned] at shows ⊢
      have moved := sign_append_congr signed (head?_append_congr present later rest)
      have again := number_malformed moved inside
        (shows.stops (inline_of_outside (by decide)) stops) faulty
      refine ⟨?_, stops.within isNumericRun_of_digitOrSeparator⟩
      simpa [taken, reject, onto] using again
  | whole whole rest body inside stops sound =>
      have present : whole ≠ [] := by
        rintro rfl
        rw [begins, List.nil_append] at body
        rw [← body] at stops
        exact Bool.false_ne_true ((stops d rfl).symm.trans member)
      rw [body] at parts signed
      have scanned := number_whole signed inside stops sound
      rw [parts] at scanned
      rw [scanned] at shows ⊢
      have moved := sign_append_congr signed (head?_append_congr present later rest)
      have again := number_whole moved inside
        (shows.stops (inline_of_outside (by decide)) stops) sound
      refine ⟨?_, stops.within isNumericRun_of_digitOrSeparator⟩
      simpa [taken, accept, onto] using again
  | pointed whole digits rest body inside within stops sound valid =>
      rw [body] at parts signed
      have scanned := number_pointed signed inside within stops sound valid
      rw [parts] at scanned
      rw [scanned] at shows ⊢
      have moved : sign (signs ++ (whole ++ '.' :: (digits ++ later))) = signs := by
        apply sign_append_congr signed
        cases whole <;> rfl
      have again := number_pointed moved inside within
        (shows.stops (inline_of_outside (by decide)) stops) sound valid
      refine ⟨?_, stops⟩
      simpa [taken, accept, onto] using again

def Settled (scan : Scan) : Prop := ∀ code, scan.verdict.fault? = some code → code ∈ settledCodes

theorem quoted_onto {quote : Char} {text tail later : List Char} (plain : quote ≠ '\\')
    (settled : (quoted quote text).Settled) (taken : (quoted quote text).taken = quote :: tail) :
    quoted quote (tail ++ later) = (quoted quote text).onto later := by
  cases found : (body quote text).fault with
  | some code =>
      have early := settled code (by simp [quoted, found, reject, Verdict.fault?])
      exact absurd early (unsettled_of_literal (body_fault_mem found))
  | none =>
      have same : tail = (body quote text).seen := by
        simpa [quoted, found, accept, Scan.taken] using taken.symm
      have again := body_onto plain found later
      rw [same, quoted, again, quoted]
      simp only [found]
      rfl

theorem punctuator_onto {c : Char} {text tail later : List Char} (start : isOperatorStart c = true)
    (shows : ShowsOnly later (punctuator c text).rest)
    (taken : (punctuator c text).taken = c :: tail) :
    punctuator c (tail ++ later) = (punctuator c text).onto later := by
  obtain ⟨seen, rest, kind, parts, longest, scanned⟩ := punctuator_accepts start text
  rw [scanned] at shows taken ⊢
  have same : seen = c :: tail := by simpa [accept, Scan.taken] using taken
  rw [punctuator_eq_accept (longest.onto shows) (by rw [same]; rfl)]
  rfl

theorem slash_operator {text : List Char} (line : text.head? ≠ some '/')
    (block : text.head? ≠ some '*') : slash '/' text = punctuator '/' text := by
  apply slash.eq_3
  · rintro more rfl
    exact line rfl
  · rintro more rfl
    exact block rfl

theorem slash_onto {text tail later : List Char} (settled : (slash '/' text).Settled)
    (shows : ShowsOnly later (slash '/' text).rest) (taken : (slash '/' text).taken = '/' :: tail)
    (parts : tail ++ (slash '/' text).rest = text) :
    slash '/' (tail ++ later) = (slash '/' text).onto later := by
  by_cases line : text.head? = some '/'
  · obtain ⟨body, rfl⟩ := List.head?_eq_some_iff.mp line
    change ShowsOnly later (lineComment body).rest at shows
    change (lineComment body).taken = '/' :: tail at taken
    have same : tail = '/' :: body.takeWhile fun c => !isLineTerminator c := by
      simpa [lineComment, accept, Scan.taken] using taken.symm
    rw [same]
    exact lineComment_onto shows
  by_cases block : text.head? = some '*'
  · obtain ⟨body, rfl⟩ := List.head?_eq_some_iff.mp block
    change (blockComment body).Settled at settled
    change (blockComment body).taken = '/' :: tail at taken
    cases closed : upToClose? body with
    | none =>
        have early := settled .unterminatedComment (by simp [blockComment, closed, reject,
          Verdict.fault?])
        exact absurd early (by decide)
    | some inside =>
        have same : tail = '*' :: inside := by
          simpa [blockComment, closed, accept, Scan.taken] using taken.symm
        rw [same]
        exact blockComment_onto closed later
  · have scanned := slash_operator line block
    rw [scanned] at shows taken parts ⊢
    have head := fun c (inline : isLineTerminator c = false)
        (first : (tail ++ later).head? = some c) =>
      parts ▸ shows.head_append tail first inline
    rw [slash_operator (fun first => line (head '/' (by decide) first))
      (fun first => block (head '*' (by decide) first))]
    exact punctuator_onto (by decide) shows taken

theorem startsNumber_cons {c : Char} {text : List Char} :
    startsNumber (c :: text) = true ↔ isDecimalDigit c = true ∨
      (isSign c = true ∨ c = '.') ∧ ∃ d, text.head? = some d ∧ isDecimalDigit d = true := by
  cases text <;> simp [startsNumber]

theorem startsNumber_of_shown {c : Char} {tail later rest : List Char}
    (shows : ShowsOnly later rest) (start : startsNumber (c :: (tail ++ later)) = true) :
    startsNumber (c :: (tail ++ rest)) = true := by
  rw [startsNumber_cons] at start ⊢
  rcases start with digit | ⟨front, d, first, digit⟩
  · exact .inl digit
  · have inline : isLineTerminator d = false := inline_of_outside (by decide) d digit
    exact .inr ⟨front, d, shows.head_append tail first inline, digit⟩

theorem startsNumber_of_rest {c : Char} {tail rest : List Char}
    (stops : Stops isDigitOrSeparator rest) (start : startsNumber (c :: (tail ++ rest)) = true)
    (later : List Char) : startsNumber (c :: (tail ++ later)) = true := by
  rw [startsNumber_cons] at start ⊢
  rcases start with digit | ⟨front, d, first, digit⟩
  · exact .inl digit
  · refine .inr ⟨front, d, ?_, digit⟩
    cases tail with
    | cons e tail => exact first
    | nil =>
        have outside := stops d first
        simp [isDigitOrSeparator, digit] at outside

/-- A scan that is settled comes out the same in front of any text that shows nothing new. -/
theorem leading_onto {c : Char} {text tail later : List Char} (settled : (leading c text).Settled)
    (shows : ShowsOnly later (leading c text).rest) (taken : (leading c text).taken = c :: tail) :
    leading c (tail ++ later) = (leading c text).onto later := by
  have parts : tail ++ (leading c text).rest = text := by
    have whole := leading_parts c text
    rw [taken] at whole
    exact (List.cons.inj whole).2
  by_cases slashed : isCommentStart c = true
  · obtain rfl : c = '/' := by simpa [isCommentStart] using slashed
    exact slash_onto settled shows taken parts
  by_cases starts : startsNumber (c :: text) = true
  · rw [leading_of_startsNumber starts] at shows taken parts ⊢
    obtain ⟨again, stops⟩ := number_onto starts shows
    rw [taken] at again
    rw [← parts] at starts
    rw [← again]
    exact leading_of_startsNumber (startsNumber_of_rest stops starts later)
  have still : ¬startsNumber (c :: (tail ++ later)) = true := by
    intro start
    exact starts (parts ▸ startsNumber_of_shown shows start)
  by_cases operator : isOperatorStart c = true
  · have scanned : ∀ text, ¬startsNumber (c :: text) = true → leading c text = punctuator c text := by
      intro text starts
      simp [leading, slashed, starts, operator]
    rw [scanned text starts] at shows taken ⊢
    rw [scanned _ still]
    exact punctuator_onto operator shows taken
  by_cases quoting : isQuote c = true
  · rw [leading_of_isQuote quoting] at settled taken ⊢
    rw [leading_of_isQuote quoting]
    have plain : c ≠ '\\' := by
      rintro rfl
      cases quoting
    exact quoted_onto plain settled taken
  by_cases naming : isIdentifierStart c = true
  · have scanned : ∀ text, ¬startsNumber (c :: text) = true → leading c text = word (c :: text) := by
      intro text starts
      simp [leading, slashed, starts, operator, quoting, naming]
    rw [scanned text starts] at shows taken ⊢
    rw [scanned _ still]
    have again := word_onto shows
    rwa [taken] at again
  · have scanned : ∀ text, ¬startsNumber (c :: text) = true →
        leading c text = structural c text := by
      intro text starts
      simp [leading, slashed, starts, operator, quoting, naming]
    rw [scanned text starts] at taken ⊢
    rw [scanned _ still]
    have none : tail = [] := by
      unfold structural at taken
      split at taken <;> simpa [accept, reject, Scan.taken] using taken.symm
    rw [none]
    exact structural_onto c text later

end Scan
end ScriptLexer
