import ScriptLexer.Scan.Comment
import ScriptLexer.Scan.Number
import ScriptLexer.Scan.Punctuator
import ScriptLexer.Scan.Quoted
import ScriptLexer.Scan.Word

/-! The scan of the token at the head of a text. The first character chooses the scanner; a slash,
a sign and a point also look at the character behind them. -/

namespace ScriptLexer.Scan

def slash (c : Char) : List Char → Scan
  | '/' :: text => lineComment text
  | '*' :: text => blockComment text
  | text => punctuator c text

def leading (c : Char) (text : List Char) : Scan :=
  if isCommentStart c then slash c text
  else if startsNumber (c :: text) then number (c :: text)
  else if isOperatorStart c then punctuator c text
  else if isQuote c then quoted c text
  else if isIdentifierStart c then word (c :: text)
  else structural c text

def leading? : List Char → Option Scan
  | [] => none
  | c :: text => some (leading c text)

theorem slash_covers (c : Char) (text : List Char) (start : isCommentStart c = true) :
    (slash c text).Covers (c :: text) := by
  have same : c = '/' := by simpa [isCommentStart] using start
  subst same
  unfold slash
  split
  · exact lineComment_covers _
  · exact blockComment_covers _
  · exact punctuator_covers _ _

theorem leading_covers (c : Char) (text : List Char) : (leading c text).Covers (c :: text) := by
  unfold leading
  split
  · exact slash_covers c text ‹_›
  · split
    · exact number_covers _
    · split
      · exact punctuator_covers c text
      · split
        · exact quoted_covers c text
        · split
          · exact word_covers _
          · exact structural_covers c text

theorem number_progress (c : Char) (text : List Char) (start : startsNumber (c :: text) = true) :
    (number (c :: text)).seen ++ (number (c :: text)).skipped ≠ [] := by
  have taken : sign (c :: text) ++ (unsigned (c :: text)).takeWhile isNumericRun ≠ [] := by
    by_cases signed : isSign c = true
    · simp [sign, signed]
    · have same : unsigned (c :: text) = c :: text := by simp [unsigned, sign, signed]
      have member : isNumericRun c = true := by
        simp only [startsNumber, Bool.or_eq_true, Bool.and_eq_true] at start
        rcases start with digit | ⟨point, _⟩
        · simp [isNumericRun, isDigitOrSeparator, digit]
        · simp_all [isNumericRun]
      simp [same, member]
  unfold number
  simp only
  split
  · simpa [malformedNumber, reject] using taken
  · split
    · split
      · simpa [malformedNumber, reject] using taken
      · simp [accept]
    · rename_i rest pointless
      simp only [accept, List.append_nil]
      by_cases signed : isSign c = true
      · simp [sign, signed]
      · have same : unsigned (c :: text) = c :: text := by simp [unsigned, sign, signed]
        simp only [startsNumber, Bool.or_eq_true, Bool.and_eq_true] at start
        rcases start with digit | ⟨point, _⟩
        · simp [same, isDigitOrSeparator, digit]
        · have dot : c = '.' := by simpa [signed] using point
          subst dot
          exact absurd (by simp [same, isDigitOrSeparator, isDecimalDigit, isNumericSeparator])
            (pointless text)

theorem punctuator_progress (c : Char) (text : List Char) :
    (punctuator c text).seen ++ (punctuator c text).skipped ≠ [] := by
  unfold punctuator
  split
  · rename_i length kind found
    have positive := longestPunctuator?_pos _ _ _ _ found
    cases length with
    | zero => cases positive
    | succ length => simp [accept]
  · simp [reject]

theorem leading_progress (c : Char) (text : List Char) :
    (leading c text).seen ++ (leading c text).skipped ≠ [] := by
  unfold leading
  split
  · unfold slash
    split
    · simp [lineComment, accept]
    · unfold blockComment
      split <;> simp [accept, reject]
    · exact punctuator_progress c _
  · split
    · exact number_progress c text ‹_›
    · split
      · exact punctuator_progress c text
      · split
        · unfold quoted
          simp only
          split <;> simp [accept, reject]
        · split
          · rename_i start
            simp [word, accept, isIdentifierPart, start]
          · unfold structural
            split <;> simp [accept, reject]

theorem leading?_rest_length_lt (text : List Char) (scan : Scan) (found : leading? text = some scan) :
    scan.rest.length < text.length := by
  cases text with
  | nil => cases found
  | cons c text =>
      obtain rfl := Option.some.inj found
      exact rest_length_lt _ _ (leading_covers c text) (leading_progress c text)

end ScriptLexer.Scan
