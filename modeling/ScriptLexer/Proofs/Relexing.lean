import Mathlib
import ScriptLexer.Proofs.Context
import ScriptLexer.Proofs.Pull
import ScriptLexer.Proofs.Spelling

/-! Printing tokens and reading them again. Printed with a line end behind each, the tokens of any
text that are not invalid are read back as they are, and nothing is reported. -/

namespace ScriptLexer

structure IsSeparator (separator : List Char) : Prop where
  blank : ∀ c ∈ separator, isWhitespace c = true
  breaks : ∃ c tail, separator = c :: tail ∧ isLineTerminator c = true

/-- The texts of `tokens`, each in front of its separator as long as there are any. -/
def printed : List Token → List (List Char) → List Char
  | [], _ => []
  | token :: tokens, separators =>
      token.text ++ (separators.headD [] ++ printed tokens separators.tail)

def ReadsAs (text : List Char) (tokens : List Token) : Prop :=
  ∀ source, (Lexer.ofText text source).tokens = tokens ∧
    (Lexer.ofText text source).reports = [] ∧
    (Lexer.ofText text source).drain.2.errors = .empty

/-- The token's text is scanned as the token wherever the line or the text ends behind it. -/
def Token.Readable (token : Token) : Prop :=
  ∃ c tail, token.text = c :: tail ∧ isWhitespace c = false ∧
    ∀ later, Stops (fun d => !isLineTerminator d) later →
      Scan.leading c (tail ++ later) = Scan.accept token (c :: tail) later

theorem readable_of_leading {c : Char} {text : List Char} {token : Token}
    (visible : isWhitespace c = false) (accepted : (Scan.leading c text).verdict = .token token) :
    token.Readable := by
  obtain ⟨spells, skipped, _⟩ := Scan.leading_sound c text token accepted
  obtain ⟨tail, taken, _⟩ := Scan.leading_taken c text
  have seen : (Scan.leading c text).seen = c :: tail := by
    rw [← taken, Scan.taken, skipped, List.append_nil]
  have settled : (Scan.leading c text).Settled := by
    intro code faulty
    rw [accepted] at faulty
    cases faulty
  rw [seen] at spells
  refine ⟨c, tail, Token.text_of_spells spells, visible, fun later stops => ?_⟩
  have again := Scan.leading_onto settled (showsOnly_of_stops _ stops) taken
  rw [again, Scan.onto, accepted, seen, skipped]
  rfl

namespace Lexer

theorem readable_of_mem_tokens (lexer : Lexer) :
    ∀ token ∈ lexer.tokens, token.isInvalid = false → token.Readable := by
  fun_induction drain lexer with
  | case1 lexer pull found left ih =>
      obtain ⟨c, text, visible⟩ := exists_visible found
      intro token member valid
      rw [tokens_of_visible visible] at member
      rcases List.mem_cons.mp member with rfl | member
      · cases accepted : (Scan.leading c text).verdict with
        | token token => exact readable_of_leading (visible_of_head visible) accepted
        | fault code =>
            rw [accepted] at valid
            cases valid
      · exact ih token member valid
  | case2 lexer pull finished =>
      intro token member
      rw [tokens_of_blank (blank_of_end finished)] at member
      cases member

end Lexer

theorem printed_stops {separators : List (List Char)}
    (separate : ∀ separator ∈ separators, IsSeparator separator) {tokens : List Token}
    (enough : tokens.length ≤ separators.length) :
    Stops (fun d => !isLineTerminator d)
      (separators.headD [] ++ printed tokens separators.tail) := by
  cases separators with
  | nil =>
      -- Without a separator the token in front is the last.
      have last : tokens = [] := List.length_eq_zero_iff.mp (Nat.le_zero.mp enough)
      rw [last]
      exact stops_nil
  | cons separator separators =>
      obtain ⟨c, tail, rfl, terminator⟩ := (separate _ List.mem_cons_self).breaks
      apply stops_cons
      simpa using terminator

theorem separator_blank {separators : List (List Char)}
    (separate : ∀ separator ∈ separators, IsSeparator separator) :
    ∀ c ∈ separators.headD [], isWhitespace c = true := by
  cases separators with
  | nil => intro c member; cases member
  | cons separator separators => exact (separate _ List.mem_cons_self).blank

theorem printed_read (tokens : List Token) (readable : ∀ token ∈ tokens, token.Readable)
    (separators : List (List Char)) (separate : ∀ separator ∈ separators, IsSeparator separator)
    (enough : tokens.length ≤ separators.length + 1) (lexer : Lexer) (gap : List Char)
    (blank : ∀ c ∈ gap, isWhitespace c = true)
    (whole : lexer.cursor.rest = gap ++ printed tokens separators) :
    lexer.tokens = tokens ∧ lexer.reports = [] := by
  -- The induction is on the tokens still to be read; `gap` is the separator in front of them.
  induction tokens generalizing separators lexer gap with
  | nil =>
      have nothing : lexer.cursor.rest.dropWhile isWhitespace = [] := by
        rw [whole, printed, List.append_nil]
        exact List.dropWhile_eq_nil_iff.mpr blank
      exact ⟨Lexer.tokens_of_blank nothing, Lexer.reports_of_blank nothing⟩
  | cons token tokens ih =>
      obtain ⟨c, tail, text, visible, again⟩ := readable token List.mem_cons_self
      rw [printed, text, List.cons_append] at whole
      have first : lexer.cursor.rest.dropWhile isWhitespace =
          c :: (tail ++ (separators.headD [] ++ printed tokens separators.tail)) := by
        rw [whole]
        exact (takeWhile_run blank (stops_cons visible)).2
      have within : tokens.length ≤ separators.length := by
        rw [List.length_cons] at enough
        omega
      have stops := printed_stops separate within
      have scanned := again _ stops
      have left : lexer.next.lexer.cursor.rest =
          separators.headD [] ++ printed tokens separators.tail := by
        rw [Lexer.next_rest first, scanned]
        rfl
      obtain ⟨others, silent⟩ := ih (fun other member => readable other (List.mem_cons_of_mem _ member))
        separators.tail (fun other member => separate other (List.mem_of_mem_tail member))
        (by rw [List.length_tail]; omega)
        lexer.next.lexer (separators.headD []) (separator_blank separate) left
      constructor
      · rw [Lexer.tokens_of_visible first, scanned, others]
        rfl
      · have report : lexer.next.report? = none := by
          rw [Lexer.next_of_visible first, scanned]
          rfl
        rw [Lexer.reports_of_visible first, report, silent]
        rfl

theorem readsAs_printed {tokens : List Token} (readable : ∀ token ∈ tokens, token.Readable)
    {separators : List (List Char)} (separate : ∀ separator ∈ separators, IsSeparator separator)
    (enough : tokens.length ≤ separators.length + 1) :
    ReadsAs (printed tokens separators) tokens := by
  intro source
  obtain ⟨read, silent⟩ := printed_read tokens readable separators separate enough
    (Lexer.ofText (printed tokens separators) source) [] (by simp) rfl
  refine ⟨read, silent, ?_⟩
  rw [Lexer.drain_errors, silent]
  rfl

/-- The valid tokens of a text are read back from their print, with a last separator or without,
and each is read back from its own text. -/
theorem tokens_readsAs_printed (text : List Char) (source : String) :
    let tokens := (Lexer.ofText text source).tokens.filter fun token => !token.isInvalid
    (∀ separators : List (List Char), separators.length = tokens.length →
      (∀ separator ∈ separators, IsSeparator separator) →
      ReadsAs (printed tokens separators) tokens ∧
        ReadsAs (printed tokens separators.dropLast) tokens) ∧
      ∀ token ∈ tokens, ReadsAs token.text [token] := by
  intro tokens
  have readable : ∀ token ∈ tokens, token.Readable := by
    intro token member
    obtain ⟨inside, valid⟩ := List.mem_filter.mp member
    exact Lexer.readable_of_mem_tokens _ token inside (by simpa using valid)
  refine ⟨fun separators each separate => ⟨?_, ?_⟩, fun token member => ?_⟩
  · exact readsAs_printed readable separate (by omega)
  · apply readsAs_printed readable
    · intro separator member
      exact separate separator (List.dropLast_subset separators member)
    · rw [List.length_dropLast]
      omega
  · have single : ∀ other ∈ [token], other.Readable := by
      intro other inside
      obtain rfl := List.mem_singleton.mp inside
      exact readable other member
    have none : ∀ separator ∈ ([] : List (List Char)), IsSeparator separator := by
      intro separator inside
      cases inside
    have alone := readsAs_printed single none (by simp)
    simpa [printed] using alone

theorem tokens_readsAs_printed_mixed :
    let text := ['.', '.', '/', '/', 'x', '\n', '0', '1', ' ', 'i', 'f']
    let tokens := (Lexer.ofText text "s").tokens.filter fun token => !token.isInvalid
    let separators := [['\r'], ['\u2029'], ['\n', ' '], ['\r', '\n']]
    separators.length = tokens.length ∧ (∀ separator ∈ separators, IsSeparator separator) ∧
      ReadsAs (printed tokens separators) tokens := by
  intro text tokens separators
  have each : separators.length = tokens.length := by
    unfold separators tokens text
    cbv
  have separate : ∀ separator ∈ separators, IsSeparator separator := by
    intro separator member
    simp only [separators, List.mem_cons, List.not_mem_nil, or_false] at member
    rcases member with rfl | rfl | rfl | rfl <;>
      exact ⟨List.all_eq_true.mp (by decide), _, _, rfl, by decide⟩
  exact ⟨each, separate, ((tokens_readsAs_printed text "s").1 separators each separate).1⟩

end ScriptLexer
