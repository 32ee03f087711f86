import Mathlib
import ScriptLexer.Proofs.LiteralGrammar

/-! Where a literal with a malformed escape ends. Recovery reads on from where the fault was found,
up to and with the first quote that closes, or to the end; a separator stops it, but not one behind a
backslash. So it ends where a body would end exactly if it passes no separator. -/

namespace ScriptLexer
namespace Scan

def escapeCodes : List ErrorCode :=
  [.hexadecimalDigitExpected, .unicodeValueOutOfRange, .unterminatedUnicodeEscapeSequence]

/-- What recovery goes over at once: a raw character, or a backslash with the character behind it,
where that is `escapable`. -/
inductive Passed (quote : Char) (escapable : Char → Prop) : List Char → Prop
  | raw {c : Char} (unquoted : c ≠ quote) (unescaped : c ≠ '\\') (inside : c ∉ separators) :
      Passed quote escapable [c]
  | pair {c : Char} (member : escapable c) : Passed quote escapable ['\\', c]

/-- How recovery ends: `last` is the last that it takes, and `rest` is what it leaves. -/
inductive Ending (quote : Char) (escapable : Char → Prop) : List Char → List Char → Prop
  | closed {rest : List Char} : Ending quote escapable [quote] rest
  | barred {rest : List Char} (barred : Barred rest) : Ending quote escapable [] rest
  | barredPair {rest : List Char} (barred : Barred rest)
      (unescapable : ∀ c, rest.head? = some c → ¬escapable c) :
      Ending quote escapable ['\\'] rest

def RecoversTo (quote : Char) (escapable : Char → Prop) (skipped rest : List Char) : Prop :=
  ∃ passed last, MadeOf (Passed quote escapable) passed ∧ Ending quote escapable last rest ∧
    skipped = passed ++ last

section Recovery

variable {quote : Char} {escapable : Char → Prop}

theorem RecoversTo.behind {front skipped rest : List Char} (first : Passed quote escapable front)
    (recovers : RecoversTo quote escapable skipped rest) :
    RecoversTo quote escapable (front ++ skipped) rest := by
  obtain ⟨passed, last, made, ending, rfl⟩ := recovers
  exact ⟨front ++ passed, last, .cons first made, ending, (List.append_assoc _ _ _).symm⟩

theorem recoversTo_of_ending {last rest : List Char} (ending : Ending quote escapable last rest) :
    RecoversTo quote escapable last rest :=
  ⟨[], last, .nil, ending, rfl⟩

theorem literalTail_recovers (quote : Char) (text : List Char) :
    RecoversTo quote (fun _ => True) (literalTail quote text)
      (text.drop (literalTail quote text).length) := by
  fun_induction literalTail quote text with
  | case1 => exact recoversTo_of_ending (.barred barred_nil)
  | case2 c text ih => exact ih.behind (.pair trivial)
  | case3 c text => exact recoversTo_of_ending .closed
  | case4 c text lone unquoted member ih =>
      -- A backslash comes here only at the end of the text, where it has nothing to take along.
      by_cases escaping : c = '\\'
      · subst escaping
        cases text with
        | nil => exact recoversTo_of_ending (.barredPair barred_nil (by simp))
        | cons d text => exact absurd rfl (lone d text rfl)
      · exact ih.behind (.raw unquoted escaping (isStringCharacter_iff_not_mem.mp member))
  | case5 c text lone unquoted outside =>
      exact recoversTo_of_ending (.barred (barred_of_outside outside text))

theorem passed_prefixFree : PrefixFree (Passed quote escapable) := by
  intro first second firstRest secondRest one other same
  cases one with
  | raw _ unescaped =>
      cases other with
      | raw => simpa using same
      | pair => exact absurd (List.cons.inj same).1 unescaped
  | pair =>
      cases other with
      | raw _ unescaped => exact absurd (List.cons.inj same).1.symm unescaped
      | pair => simpa using same

variable (opens : isQuote quote = true) {skipped rest : List Char}
include opens

theorem Ending.stuck {last : List Char} (ending : Ending quote escapable last rest) :
    Stuck (Passed quote escapable) (last ++ rest) := by
  rintro first passed ⟨more, same⟩
  cases ending with
  | closed =>
      cases passed with
      | raw unquoted => exact unquoted (List.cons.inj same).1
      | pair => exact quote_ne_backslash opens (List.cons.inj same).1.symm
  | barred barred =>
      rw [List.nil_append] at same
      subst same
      cases passed with
      | raw _ _ inside => exact inside (barred _ rfl)
      | pair => exact backslash_not_mem_separators (barred _ rfl)
  | barredPair barred unescapable =>
      cases passed with
      | raw _ unescaped => exact unescaped (List.cons.inj same).1
      | pair member =>
          obtain ⟨_, rfl⟩ := List.cons.inj same
          exact unescapable _ rfl member

theorem Ending.last_eq {last : List Char} (ending : Ending quote escapable last rest) :
    last = ((last ++ rest).take 1).filter (· ∉ separators) := by
  cases ending with
  | closed => simp [quote_not_mem_separators opens]
  | barred barred =>
      cases rest with
      | nil => rfl
      | cons c rest => simp [barred c rfl]
  | barredPair => simp [separators]

theorem RecoversTo.unique {other more : List Char}
    (recovers : RecoversTo quote escapable skipped rest)
    (also : RecoversTo quote escapable other more) (same : skipped ++ rest = other ++ more) :
    skipped = other ∧ rest = more := by
  obtain ⟨passed, last, made, ending, rfl⟩ := recovers
  obtain ⟨front, final, likewise, stop, rfl⟩ := also
  rw [List.append_assoc, List.append_assoc] at same
  obtain ⟨rfl, behind⟩ :=
    made.unique passed_prefixFree (ending.stuck opens) likewise (stop.stuck opens) same
  have taken : last = final := by
    rw [ending.last_eq opens, behind, ← stop.last_eq opens]
  rw [taken] at behind ⊢
  exact ⟨rfl, List.append_cancel_left behind⟩

omit opens in
theorem Passed.inside {first : List Char} (passed : Passed quote (· ∉ separators) first) :
    ∀ c ∈ first, c ∉ separators := by
  cases passed with
  | raw _ _ inside => exact List.forall_mem_singleton.mpr inside
  | pair inside =>
      exact List.forall_mem_cons.mpr
        ⟨backslash_not_mem_separators, List.forall_mem_singleton.mpr inside⟩

theorem Ending.inside {last : List Char} (ending : Ending quote escapable last rest) :
    ∀ c ∈ last, c ∉ separators := by
  cases ending with
  | closed => exact List.forall_mem_singleton.mpr (quote_not_mem_separators opens)
  | barred => exact List.forall_mem_nil _
  | barredPair => exact List.forall_mem_singleton.mpr backslash_not_mem_separators

theorem RecoversTo.inside (recovers : RecoversTo quote (· ∉ separators) skipped rest) :
    ∀ c ∈ skipped, c ∉ separators := by
  obtain ⟨passed, last, made, ending, rfl⟩ := recovers
  exact List.forall_mem_append.mpr
    ⟨made.forall_mem fun _ piece => piece.inside, ending.inside opens⟩

omit opens in
theorem RecoversTo.of_inside (recovers : RecoversTo quote (fun _ => True) skipped rest)
    (inside : ∀ c ∈ skipped, c ∉ separators) :
    RecoversTo quote (· ∉ separators) skipped rest := by
  obtain ⟨passed, last, made, ending, rfl⟩ := recovers
  induction made with
  | nil =>
      refine ⟨[], last, .nil, ?_, rfl⟩
      cases ending with
      | closed => exact .closed
      | barred barred => exact .barred barred
      | barredPair barred _ =>
          exact .barredPair barred fun c first absent => absent (barred c first)
  | @cons front back first others ih =>
      rw [List.append_assoc] at inside ⊢
      have behind := ih fun c member => inside c (List.mem_append_right front member)
      apply behind.behind
      cases first with
      | raw unquoted unescaped outside => exact .raw unquoted unescaped outside
      | @pair c _ => exact .pair (inside c (List.mem_cons_of_mem _ List.mem_cons_self))

theorem recoversTo_iff (recovers : RecoversTo quote (fun _ => True) skipped rest) :
    RecoversTo quote (· ∉ separators) skipped rest ↔ ∀ c ∈ skipped, c ∉ separators :=
  ⟨fun barring => barring.inside opens, recovers.of_inside⟩

end Recovery

section Inside

variable {quote : Char}

theorem not_mem_separators_of_inline {c : Char} (inline : isLineTerminator c = false) :
    c ∉ separators := by
  intro member
  rcases mem_separators.mp member with rfl | rfl
  · exact absurd inline (by decide)
  · exact absurd inline (by decide)

theorem inline_of_isHexDigit {c : Char} (hexadecimal : isHexDigit c = true) :
    isLineTerminator c = false :=
  inline_of_outside (by decide) c hexadecimal

theorem Item.inside {item : List Char} (valid : Item quote item) : ∀ c ∈ item, c ∉ separators := by
  cases valid with
  | raw _ _ inside => exact List.forall_mem_singleton.mpr inside
  | escaped _ inside =>
      exact List.forall_mem_cons.mpr ⟨by decide, List.forall_mem_singleton.mpr inside⟩
  | @codePoint digits _ hexadecimal _ =>
      have run := fun c member =>
        not_mem_separators_of_inline (inline_of_isHexDigit (hexadecimal c member))
      intro c member
      simp only [List.mem_cons, List.mem_append, List.not_mem_nil, or_false] at member
      rcases member with rfl | rfl | rfl | inside | rfl
      · decide
      · decide
      · decide
      · exact run c inside
      · decide

theorem items_inside {front : List Char} (items : Items quote front) :
    ∀ c ∈ front, c ∉ separators :=
  items.forall_mem fun _ item => item.inside

theorem EscapeFault.inline {opening left : List Char} {code : ErrorCode}
    (fault : EscapeFault opening left code) : ∀ c ∈ opening, isLineTerminator c = false := by
  have brace : isLineTerminator '\x7b' = false := by decide
  have run : ∀ {digits : List Char}, (∀ c ∈ digits, isHexDigit c = true) →
      ∀ c ∈ '\x7b' :: digits, isLineTerminator c = false := fun hexadecimal =>
    List.forall_mem_cons.mpr
      ⟨brace, fun c member => inline_of_isHexDigit (hexadecimal c member)⟩
  cases fault with
  | unopened => exact List.forall_mem_nil _
  | reopened hexadecimal => exact run hexadecimal
  | empty => exact List.forall_mem_singleton.mpr brace
  | unended hexadecimal => exact run hexadecimal
  | beyond _ hexadecimal => exact run hexadecimal

end Inside

theorem quoted_broken {quote : Char} {front opening left : List Char} {code : ErrorCode}
    (items : Items quote front) (fault : EscapeFault opening left code) :
    quoted quote (front ++ '\\' :: 'u' :: (opening ++ left)) =
      reject code (quote :: (front ++ '\\' :: 'u' :: opening)) (literalTail quote left)
        (left.drop (literalTail quote left).length) := by
  have read := escape_of_fault fault
  unfold quoted
  rw [body_items items, body_broken quote (by rw [read]), read]
  rfl

end Scan

namespace Lexer

theorem exists_malformed {lexer : Lexer} {quote : Char} {text : List Char} {report : Diagnostic}
    (opens : isQuote quote = true)
    (visible : lexer.cursor.rest.dropWhile isWhitespace = quote :: text)
    (reported : lexer.next.report? = some report) (malformed : report.code ∈ Scan.escapeCodes) :
    ∃ front opening left, text = front ++ '\\' :: 'u' :: (opening ++ left) ∧
      Scan.Items quote front ∧ Scan.EscapeFault opening left report.code := by
  cases Scan.course quote text with
  | closed front after parts items =>
      have silent := (next_literal_closed opens visible items parts).2.1
      cases silent.symm.trans reported
  | faulty front rest code parts items fault =>
      obtain ⟨_, made, same, named⟩ := next_literal_faulty opens visible items parts fault
      obtain rfl := Option.some.inj (same.symm.trans reported)
      rw [named] at malformed ⊢
      cases fault with
      | unterminated => exact absurd malformed (by decide)
      | unterminatedEscape => exact absurd malformed (by decide)
      | @escape opening left _ fault => exact ⟨front, opening, left, parts, items, fault⟩

/-- A literal with a malformed escape ends at the first unescaped closing quote behind the fault, or
in front of the first separator that is not escaped, or at the end. The separators in it are those
that its recovery passes, and without one it ends where a body would. -/
theorem next_recovers {lexer : Lexer} {quote : Char} {text : List Char} {report : Diagnostic}
    (opens : isQuote quote = true)
    (visible : lexer.cursor.rest.dropWhile isWhitespace = quote :: text)
    (reported : lexer.next.report? = some report) (malformed : report.code ∈ Scan.escapeCodes) :
    let rest := lexer.next.lexer.cursor.rest
    ∃ front opening skipped,
      text = front ++ '\\' :: 'u' :: (opening ++ (skipped ++ rest)) ∧
        Scan.Items quote front ∧ Scan.EscapeFault opening (skipped ++ rest) report.code ∧
        (∀ c ∈ quote :: (front ++ '\\' :: 'u' :: opening), c ∉ separators) ∧
        Scan.RecoversTo quote (fun _ => True) skipped rest ∧
        (Scan.RecoversTo quote (· ∉ separators) skipped rest ↔ ∀ c ∈ skipped, c ∉ separators) := by
  intro rest
  obtain ⟨front, opening, left, parts, items, fault⟩ :=
    exists_malformed opens visible reported malformed
  have whole := Scan.literalTail_covers quote left
  have recovers := Scan.literalTail_recovers quote left
  have behind : rest = left.drop (Scan.literalTail quote left).length := by
    unfold rest
    rw [next_rest visible, Scan.leading_of_isQuote opens, parts, Scan.quoted_broken items fault]
    rfl
  rw [← behind] at whole recovers
  refine ⟨front, opening, Scan.literalTail quote left, ?_, items, ?_, ?_, recovers,
    Scan.recoversTo_iff opens recovers⟩
  · rw [whole, parts]
  · rwa [whole]
  · have marks : ∀ c ∈ ['\\', 'u'], c ∉ separators :=
      List.forall_mem_cons.mpr ⟨by decide, List.forall_mem_singleton.mpr (by decide)⟩
    refine List.forall_mem_cons.mpr ⟨Scan.quote_not_mem_separators opens, fun c member => ?_⟩
    rcases List.mem_append.mp member with early | late
    · exact Scan.items_inside items c early
    · change c ∈ ['\\', 'u'] ++ opening at late
      rcases List.mem_append.mp late with mark | later
      · exact marks c mark
      · exact Scan.not_mem_separators_of_inline (fault.inline c later)

theorem next_recovers_quotes :
    let text := ['\\', 'u', '"', '\\', '\'', '\\', '\u2028', '\'', 'x']
    let lexer := Lexer.ofText ('\'' :: text) "s"
    let report : Diagnostic := ⟨"s", .hexadecimalDigitExpected, 1⟩
    isQuote '\'' = true ∧ lexer.cursor.rest.dropWhile isWhitespace = '\'' :: text ∧
      lexer.next.report? = some report ∧ report.code ∈ Scan.escapeCodes ∧
      ∃ front opening skipped, text = front ++ '\\' :: 'u' :: (opening ++ (skipped ++ ['x'])) ∧
        Scan.Items '\'' front ∧
        Scan.EscapeFault opening (skipped ++ ['x']) .hexadecimalDigitExpected ∧
        Scan.RecoversTo '\'' (fun _ => True) skipped ['x'] := by
  intro text lexer report
  have opens : isQuote '\'' = true := by decide
  have visible : lexer.cursor.rest.dropWhile isWhitespace = '\'' :: text := by decide
  have reported : lexer.next.report? = some report := by
    unfold lexer text
    cbv
  have malformed : report.code ∈ Scan.escapeCodes := by decide
  have rest : lexer.next.lexer.cursor.rest = ['x'] := by
    unfold lexer text
    cbv
  obtain ⟨front, opening, skipped, parts, items, fault, _, recovers, _⟩ :=
    next_recovers opens visible reported malformed
  rw [rest] at parts fault recovers
  exact ⟨opens, visible, reported, malformed, front, opening, skipped, parts, items, fault,
    recovers⟩

/-- A backslash takes a separator along: what stands behind it is not read as the next token, as it
would be if the literal ended in front of the separator. -/
theorem recovery_passes_escaped_separator :
    let text := ['\'', '\\', 'u', '\\', '\u2028', 'x']
    let pull := (Lexer.ofText text "s").next
    pull.report? = some ⟨"s", .hexadecimalDigitExpected, 1⟩ ∧ pull.lexer.cursor.rest = [] ∧
      Scan.RecoversTo '\'' (· ∉ separators) ['\\'] ['\u2028', 'x'] ∧
      ¬Scan.RecoversTo '\'' (· ∉ separators) ['\\', '\u2028', 'x'] pull.lexer.cursor.rest := by
  intro text pull
  have opens : isQuote '\'' = true := by decide
  have report : pull.report? = some ⟨"s", .hexadecimalDigitExpected, 1⟩ := by
    unfold pull text
    cbv
  have rest : pull.lexer.cursor.rest = [] := by
    unfold pull text
    cbv
  have barred : Scan.Barred ['\u2028', 'x'] := Scan.barred_of_outside (by decide) ['x']
  have before : Scan.RecoversTo '\'' (· ∉ separators) ['\\'] ['\u2028', 'x'] :=
    Scan.recoversTo_of_ending (.barredPair barred fun c first inside => inside (barred c first))
  refine ⟨report, rest, before, fun barring => ?_⟩
  rw [rest] at barring
  cases (before.unique opens barring rfl).1

end Lexer
end ScriptLexer
