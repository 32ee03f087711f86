import ScriptLexer.Scan

/-! Punctuators: the longest entry of the vocabulary that the text begins with. Structural
characters stand alone. -/

namespace ScriptLexer.Scan

def punctuatorOf? (text : List Char) (length : Nat) : Option (Nat × TokenKind) :=
  (Vocabulary.punctuatorKind? (String.ofList (text.take length))).map fun kind => (length, kind)

def longestPunctuator? (text : List Char) : Nat → Option (Nat × TokenKind)
  | 0 => none
  | length + 1 => punctuatorOf? text (length + 1) <|> longestPunctuator? text length

def punctuator (c : Char) (text : List Char) : Scan :=
  match longestPunctuator? (c :: text) Vocabulary.longestPunctuatorLength with
  | some (length, kind) =>
      let seen := (c :: text).take length
      accept (Token.ofText kind seen) seen ((c :: text).drop length)
  | none => reject .unsupportedPunctuator [] [c] text

def structural (c : Char) (text : List Char) : Scan :=
  match Vocabulary.structuralKind? c with
  | some kind => accept (Token.ofText kind [c]) [c] text
  | none => reject .unexpectedToken [c] [] text

theorem longestPunctuator?_pos (text : List Char) (length found : Nat) (kind : TokenKind)
    (present : longestPunctuator? text length = some (found, kind)) : 0 < found := by
  induction length with
  | zero => cases present
  | succ length ih =>
      simp only [longestPunctuator?, punctuatorOf?, Option.orElse_eq_orElse,
        Option.orElse_eq_or, Option.or_eq_some_iff] at present
      rcases present with here | ⟨_, below⟩
      · obtain ⟨_, _, same⟩ := Option.map_eq_some_iff.mp here
        have := congrArg Prod.fst same
        simp only at this
        omega
      · exact ih below

theorem punctuator_covers (c : Char) (text : List Char) :
    (punctuator c text).Covers (c :: text) := by
  unfold punctuator
  split <;> simp [Covers, accept, reject, List.take_append_drop]

theorem structural_covers (c : Char) (text : List Char) :
    (structural c text).Covers (c :: text) := by
  unfold structural
  split <;> simp [Covers, accept, reject]

end ScriptLexer.Scan
