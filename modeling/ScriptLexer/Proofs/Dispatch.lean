import ScriptLexer.Scan.Leading

/-! Which scanner reads the head of a text, by cases, and what each takes of it. -/

namespace ScriptLexer

namespace Verdict

def asToken : Verdict → Token
  | .token accepted => accepted
  | .fault _ => .invalid

def fault? : Verdict → Option ErrorCode
  | .token _ => none
  | .fault code => some code

theorem fault?_eq_some_iff {verdict : Verdict} {code : ErrorCode} :
    verdict.fault? = some code ↔ verdict = .fault code := by
  cases verdict <;> simp [fault?]

end Verdict

namespace Scan

/-- The scan of `c` and the `text` behind it, by the scanner that makes it. -/
inductive Dispatch (c : Char) (text : List Char) : Scan → Prop
  | line (body : List Char) (slash : c = '/') (parts : text = '/' :: body) :
      Dispatch c text (lineComment body)
  | block (body : List Char) (slash : c = '/') (parts : text = '*' :: body) :
      Dispatch c text (blockComment body)
  | number (start : startsNumber (c :: text) = true) : Dispatch c text (number (c :: text))
  | operator (start : isOperatorStart c = true) : Dispatch c text (punctuator c text)
  | literal (start : isQuote c = true) : Dispatch c text (quoted c text)
  | word (start : isIdentifierStart c = true) : Dispatch c text (word (c :: text))
  | structural : Dispatch c text (structural c text)

theorem dispatch (c : Char) (text : List Char) : Dispatch c text (leading c text) := by
  unfold leading
  split
  · rename_i slashed
    obtain rfl : c = '/' := by simpa [isCommentStart] using slashed
    unfold slash
    split
    · exact .line _ rfl rfl
    · exact .block _ rfl rfl
    · exact .operator (by decide)
  · split
    · exact .number ‹_›
    · split
      · exact .operator ‹_›
      · split
        · exact .literal ‹_›
        · split
          · exact .word ‹_›
          · exact .structural

theorem leading_of_isQuote {c : Char} (quoting : isQuote c = true) (text : List Char) :
    leading c text = quoted c text := by
  simp only [isQuote, Bool.or_eq_true, beq_iff_eq] at quoting
  rcases quoting with rfl | rfl <;> rfl

theorem leading_of_startsNumber {c : Char} {text : List Char}
    (starts : startsNumber (c :: text) = true) : leading c text = number (c :: text) := by
  have plain : ¬isCommentStart c = true := by
    intro slashed
    obtain rfl : c = '/' := by simpa [isCommentStart] using slashed
    simp [startsNumber, isDecimalDigit, isSign] at starts
  rw [leading, if_neg plain, if_pos starts]

def taken (scan : Scan) : List Char := scan.seen ++ scan.skipped

theorem take_taken {scan : Scan} {text : List Char} (covers : scan.Covers text) :
    text.take scan.taken.length = scan.taken ∧ text.drop scan.taken.length = scan.rest := by
  rw [← covers]
  exact ⟨List.take_left, List.drop_left⟩

theorem leading_parts (c : Char) (text : List Char) :
    (leading c text).taken ++ (leading c text).rest = c :: text :=
  leading_covers c text

theorem leading_taken (c : Char) (text : List Char) :
    ∃ tail, (leading c text).taken = c :: tail ∧ tail ++ (leading c text).rest = text := by
  have parts := leading_parts c text
  have progress := leading_progress c text
  cases present : (leading c text).taken with
  | nil => exact absurd present progress
  | cons d tail =>
      rw [present, List.cons_append] at parts
      obtain ⟨same, left⟩ := List.cons.inj parts
      exact ⟨tail, by rw [same], left⟩

end Scan
end ScriptLexer
