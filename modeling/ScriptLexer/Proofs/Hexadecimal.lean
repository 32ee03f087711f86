import ScriptLexer.Scan.Hexadecimal

/-! Hexadecimal digits read from the left. A prefix that is past the limit stays past it, so the
reading stops early only where the whole value is too large. -/

namespace ScriptLexer.Scan

def hexadecimalFrom (value : Nat) (digits : List Char) : Nat :=
  digits.foldl (fun value c => value * 16 + (hexDigitValue? c).getD 0) value

theorem hexadecimalFrom_zero (digits : List Char) :
    hexadecimalFrom 0 digits = hexadecimalValue digits := rfl

theorem le_hexadecimalFrom (value : Nat) (digits : List Char) :
    value ≤ hexadecimalFrom value digits := by
  induction digits generalizing value with
  | nil => exact Nat.le_refl value
  | cons c digits ih =>
      have next := ih (value * 16 + (hexDigitValue? c).getD 0)
      exact Nat.le_trans (by omega) next

theorem hexDigitValue?_of_isHexDigit {c : Char} (hexadecimal : isHexDigit c = true) :
    ∃ digit, hexDigitValue? c = some digit := by
  unfold hexDigitValue?
  by_cases decimal : isDecimalDigit c = true
  · exact ⟨_, if_pos decimal⟩
  · exact ⟨_, by rw [if_neg decimal, if_pos hexadecimal]⟩

theorem foldlM_addHexDigit {digits : List Char} (hexadecimal : ∀ c ∈ digits, isHexDigit c = true)
    {value : Nat} (within : value < hexadecimalLimit) :
    digits.foldlM addHexDigit value =
      if hexadecimalFrom value digits < hexadecimalLimit then some (hexadecimalFrom value digits)
      else none := by
  -- The induction is on the digits still to come, from any value that the limit admits.
  induction digits generalizing value with
  | nil => exact (if_pos within).symm
  | cons c digits ih =>
      obtain ⟨digit, known⟩ := hexDigitValue?_of_isHexDigit (hexadecimal c List.mem_cons_self)
      have step : hexadecimalFrom value (c :: digits) =
          hexadecimalFrom (value * 16 + digit) digits := by
        simp only [hexadecimalFrom, List.foldl_cons, known, Option.getD_some]
      have rest := fun d member => hexadecimal d (List.mem_cons_of_mem c member)
      rw [step, List.foldlM_cons, addHexDigit, known]
      by_cases fits : value * 16 + digit < hexadecimalLimit
      · simp only [Option.bind_eq_bind, Option.bind_some, if_pos fits]
        exact ih rest fits
      · have past : ¬hexadecimalFrom (value * 16 + digit) digits < hexadecimalLimit := by
          have above := le_hexadecimalFrom (value * 16 + digit) digits
          omega
        simp only [Option.bind_eq_bind, Option.bind_some, if_neg fits, Option.bind_none,
          if_neg past]

theorem hexadecimal?_of_digits {digits : List Char} (present : digits ≠ [])
    (hexadecimal : ∀ c ∈ digits, isHexDigit c = true) :
    hexadecimal? digits =
      if hexadecimalValue digits < hexadecimalLimit then some (hexadecimalValue digits)
      else none := by
  rw [hexadecimal?.eq_2 digits present, foldlM_addHexDigit hexadecimal (by decide),
    hexadecimalFrom_zero]

end ScriptLexer.Scan
