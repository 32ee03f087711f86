import ScriptLexer.Proofs.Dispatch
import ScriptLexer.Proofs.Literal
import ScriptLexer.Proofs.LongestMatch
import ScriptLexer.Proofs.Numeral

/-! Malformed text. A scan has a fault in one of four ways: a number, a comment that does not end, a
literal, or a character that begins no token. -/

namespace ScriptLexer.Scan

/-- The errors that are settled at their token: none of them comes of text that runs out. -/
def settledCodes : List ErrorCode :=
  [.unexpectedToken, .octalLiteralsNotSupported, .numericSeparatorNotAllowed,
    .multipleNumericSeparatorsNotAllowed]

theorem unsettled_of_literal {code : ErrorCode} (literal : code ∈ literalCodes) :
    code ∉ settledCodes := by
  have apart : ∀ code ∈ literalCodes, code ∉ settledCodes := by decide
  exact apart code literal

section Number

variable {digits : List Char} {code : ErrorCode}

theorem separatorFault?_mem (faulty : separatorFault? digits = some code) :
    code ∈ settledCodes := by
  unfold separatorFault? at faulty
  split at faulty
  · obtain rfl := Option.some.inj faulty
    decide
  · split at faulty
    · obtain rfl := Option.some.inj faulty
      decide
    · cases faulty

theorem wholeFault?_mem (faulty : wholeFault? digits = some code) : code ∈ settledCodes := by
  unfold wholeFault? at faulty
  split at faulty
  · obtain rfl := Option.some.inj faulty
    decide
  · exact separatorFault?_mem faulty

theorem fractionFault?_mem (faulty : fractionFault? digits = some code) : code ∈ settledCodes := by
  unfold fractionFault? at faulty
  split at faulty
  · obtain rfl := Option.some.inj faulty
    decide
  · exact separatorFault?_mem faulty

theorem number_of_verdict {text : List Char} (faulty : (number text).verdict = .fault code) :
    code ∈ settledCodes ∧ number text = malformedNumber code text := by
  unfold number at faulty ⊢
  simp only at faulty ⊢
  split at faulty
  · rename_i known found
    obtain rfl := Verdict.fault.inj faulty
    exact ⟨wholeFault?_mem found, rfl⟩
  · split at faulty
    · split at faulty
      · rename_i known found
        obtain rfl := Verdict.fault.inj faulty
        exact ⟨fractionFault?_mem found, rfl⟩
      · cases faulty
    · cases faulty

end Number

inductive Malformed (c : Char) (text : List Char) (code : ErrorCode) : Prop
  | number (settled : code ∈ settledCodes)
      (scanned : leading c text = malformedNumber code (c :: text))
  | comment (unended : code = .unterminatedComment)
      (scanned : leading c text = reject code (c :: text) [] [])
  | literal (listed : code ∈ literalCodes) (opens : isQuote c = true)
  | unexpected (unknown : code = .unexpectedToken)
      (scanned : leading c text = reject code [c] [] text)

theorem leading_malformed {c : Char} {text : List Char} {code : ErrorCode}
    (faulty : (leading c text).verdict = .fault code) : Malformed c text code := by
  have scanned := dispatch c text
  generalize known : leading c text = scan at faulty scanned
  cases scanned with
  | line => cases faulty
  | block body slash parts =>
      unfold blockComment at faulty known
      split at faulty
      · cases faulty
      · rename_i unclosed
        obtain rfl := Verdict.fault.inj faulty
        refine .comment rfl ?_
        rw [known, unclosed, slash, parts]
  | number =>
      obtain ⟨settled, malformed⟩ := number_of_verdict faulty
      exact .number settled (known.trans malformed)
  | operator start =>
      obtain ⟨seen, rest, kind, _, _, accepted⟩ := punctuator_accepts start text
      rw [accepted] at faulty
      cases faulty
  | literal opens =>
      unfold quoted at faulty
      simp only at faulty
      split at faulty
      · rename_i found
        obtain rfl := Verdict.fault.inj faulty
        exact .literal (body_fault_mem found) opens
      · cases faulty
  | word => cases faulty
  | structural =>
      unfold structural at faulty known
      split at faulty
      · cases faulty
      · rename_i unlisted
        obtain rfl := Verdict.fault.inj faulty
        refine .unexpected rfl ?_
        rw [known, unlisted]

theorem leading_fault_inline {c : Char} {text : List Char} {code : ErrorCode}
    (visible : isWhitespace c = false) (faulty : (leading c text).verdict = .fault code)
    (settled : code ∈ settledCodes) : ∀ d ∈ (leading c text).seen, isLineTerminator d = false := by
  intro d member
  cases leading_malformed faulty with
  | number _ scanned =>
      rw [scanned] at member
      rcases List.mem_append.mp member with signs | run
      · have signed : isSign d = true := (List.mem_filter.mp signs).2
        exact inline_of_outside (by decide) d signed
      · exact inline_of_outside (by decide) d (List.mem_takeWhile_imp run)
  | comment unended =>
      rw [unended] at settled
      exact absurd settled (by decide)
  | literal listed => exact absurd settled (unsettled_of_literal listed)
  | unexpected _ scanned =>
      rw [scanned] at member
      obtain rfl := List.mem_singleton.mp member
      exact inline_of_visible visible

end ScriptLexer.Scan
