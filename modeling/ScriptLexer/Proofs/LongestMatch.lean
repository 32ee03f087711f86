import ScriptLexer.Characters
import ScriptLexer.Scan.Punctuator

/-! Punctuators are matched as far as the table goes: the scan of an operator is the one split of
its text into an entry and a rest that no longer entry reaches into. -/

namespace ScriptLexer

namespace Vocabulary

theorem mem_of_lookup {α : Type} [BEq α] [LawfulBEq α] {entries : List (α × TokenKind)} {key : α}
    {kind : TokenKind} (found : entries.lookup key = some kind) : (key, kind) ∈ entries := by
  obtain ⟨before, after, parts, _⟩ := List.lookup_eq_some_iff.mp found
  rw [parts]
  exact List.mem_append_right before List.mem_cons_self

section Entry

variable {text : List Char} {kind : TokenKind}

theorem length_le_of_punctuatorKind? (known : punctuatorKind? (String.ofList text) = some kind) :
    text.length ≤ longestPunctuatorLength := by
  have bound := length_le_of_mem_punctuators _ (mem_of_lookup known)
  simpa using bound

theorem operatorStart_of_punctuatorKind?
    (known : punctuatorKind? (String.ofList text) = some kind) :
    text ≠ [] ∧ ∀ c ∈ text, isOperatorStart c = true := by
  have table : ∀ entry ∈ punctuators,
      entry.1.toList ≠ [] ∧ entry.1.toList.all isOperatorStart = true := by decide
  have entry := table _ (mem_of_lookup known)
  simpa using entry

end Entry

theorem punctuatorKind?_of_operatorStart {c : Char} (start : isOperatorStart c = true) :
    ∃ kind, punctuatorKind? (String.ofList [c]) = some kind := by
  have table : (operatorStarts.all fun c => (punctuatorKind? (String.ofList [c])).isSome) = true := by
    decide
  have member : c ∈ operatorStarts := by simpa [isOperatorStart] using start
  exact Option.isSome_iff_exists.mp (List.all_eq_true.mp table c member)

end Vocabulary

namespace Scan

/-- `seen` is a punctuator of `kind`, and none begins with `seen` and goes on into `rest`. -/
structure LongestPunctuator (seen rest : List Char) (kind : TokenKind) : Prop where
  known : Vocabulary.punctuatorKind? (String.ofList seen) = some kind
  longest : ∀ ahead, ahead ≠ [] → ahead <+: rest →
    Vocabulary.punctuatorKind? (String.ofList (seen ++ ahead)) = none

theorem longestPunctuator?_eq_none {text : List Char} {bound : Nat}
    (missing : longestPunctuator? text bound = none) (length : Nat) (positive : 0 < length)
    (within : length ≤ bound) :
    Vocabulary.punctuatorKind? (String.ofList (text.take length)) = none := by
  induction bound with
  | zero => omega
  | succ bound ih =>
      simp only [longestPunctuator?, punctuatorOf?, Option.orElse_eq_orElse, Option.orElse_eq_or,
        Option.or_eq_none_iff, Option.map_eq_none_iff] at missing
      rcases Nat.lt_or_eq_of_le within with below | rfl
      · exact ih missing.2 (by omega)
      · exact missing.1

theorem longestPunctuator?_eq_some {text : List Char} {bound length : Nat} {kind : TokenKind}
    (found : longestPunctuator? text bound = some (length, kind)) :
    length ≤ bound ∧ Vocabulary.punctuatorKind? (String.ofList (text.take length)) = some kind ∧
      ∀ longer, length < longer → longer ≤ bound →
        Vocabulary.punctuatorKind? (String.ofList (text.take longer)) = none := by
  induction bound with
  | zero => cases found
  | succ bound ih =>
      simp only [longestPunctuator?, punctuatorOf?, Option.orElse_eq_orElse, Option.orElse_eq_or,
        Option.or_eq_some_iff, Option.map_eq_none_iff] at found
      rcases found with here | ⟨absent, below⟩
      · obtain ⟨_, known, same⟩ := Option.map_eq_some_iff.mp here
        obtain ⟨rfl, rfl⟩ := Prod.mk.inj same
        exact ⟨Nat.le_refl _, known, by omega⟩
      · obtain ⟨within, known, longest⟩ := ih below
        refine ⟨by omega, known, fun longer above bounded => ?_⟩
        rcases Nat.lt_or_eq_of_le bounded with less | rfl
        · exact longest longer above (by omega)
        · exact absent

theorem longest_take {text : List Char} {length : Nat} {kind : TokenKind}
    (found : longestPunctuator? text Vocabulary.longestPunctuatorLength = some (length, kind)) :
    LongestPunctuator (text.take length) (text.drop length) kind := by
  obtain ⟨_, known, longest⟩ := longestPunctuator?_eq_some found
  refine ⟨known, fun ahead more follows => ?_⟩
  obtain ⟨after, parts⟩ := follows
  have positive : 0 < ahead.length := List.length_pos_iff.mpr more
  have inside : length < text.length := by
    have counted := congrArg List.length parts
    simp only [List.length_append, List.length_drop] at counted
    omega
  have whole : text.take length ++ ahead = text.take (length + ahead.length) := by
    rw [List.take_add, ← parts, List.take_left]
  by_cases within : length + ahead.length ≤ Vocabulary.longestPunctuatorLength
  · rw [whole]
    exact longest _ (by omega) within
  · -- No entry is that long.
    cases entry : Vocabulary.punctuatorKind? (String.ofList (text.take length ++ ahead)) with
    | none => rfl
    | some other =>
        have short := Vocabulary.length_le_of_punctuatorKind? entry
        rw [whole, List.length_take] at short
        have counted := congrArg List.length parts
        simp only [List.length_append, List.length_drop] at counted
        omega

theorem LongestPunctuator.unique {first second firstRest secondRest : List Char}
    {firstKind secondKind : TokenKind} (one : LongestPunctuator first firstRest firstKind)
    (other : LongestPunctuator second secondRest secondKind)
    (same : first ++ firstRest = second ++ secondRest) :
    first = second ∧ firstRest = secondRest ∧ firstKind = secondKind := by
  have equal : first = second := by
    rcases List.append_eq_append_iff.mp same with ⟨ahead, rfl, rfl⟩ | ⟨ahead, rfl, rfl⟩
    · by_cases nothing : ahead = []
      · simp [nothing]
      · have absent := one.longest ahead nothing (List.prefix_append ahead secondRest)
        exact absurd (absent.symm.trans other.known) (by simp)
    · by_cases nothing : ahead = []
      · simp [nothing]
      · have absent := other.longest ahead nothing (List.prefix_append ahead firstRest)
        exact absurd (absent.symm.trans one.known) (by simp)
  subst equal
  exact ⟨rfl, List.append_cancel_left same, Option.some.inj (one.known.symm.trans other.known)⟩

theorem punctuator_accepts {c : Char} (start : isOperatorStart c = true) (text : List Char) :
    ∃ seen rest kind, seen ++ rest = c :: text ∧ LongestPunctuator seen rest kind ∧
      punctuator c text = accept (Token.ofText kind seen) seen rest := by
  unfold punctuator
  cases found : longestPunctuator? (c :: text) Vocabulary.longestPunctuatorLength with
  | none =>
      obtain ⟨kind, known⟩ := Vocabulary.punctuatorKind?_of_operatorStart start
      have absent := longestPunctuator?_eq_none found 1 (by decide) (by decide)
      rw [List.take_succ_cons, List.take_zero, known] at absent
      cases absent
  | some entry =>
      obtain ⟨length, kind⟩ := entry
      exact ⟨_, _, kind, List.take_append_drop length (c :: text), longest_take found, rfl⟩

theorem punctuator_eq_accept {c : Char} {text seen rest : List Char} {kind : TokenKind}
    (longest : LongestPunctuator seen rest kind) (parts : seen ++ rest = c :: text) :
    punctuator c text = accept (Token.ofText kind seen) seen rest := by
  obtain ⟨more, starts⟩ := Vocabulary.operatorStart_of_punctuatorKind? longest.known
  have start : isOperatorStart c = true := by
    cases seen with
    | nil => exact absurd rfl more
    | cons d tail =>
        obtain ⟨rfl, _⟩ := List.cons.inj parts
        exact starts d List.mem_cons_self
  obtain ⟨other, left, otherKind, cut, best, scanned⟩ := punctuator_accepts start text
  obtain ⟨rfl, rfl, rfl⟩ := best.unique longest (cut.trans parts.symm)
  exact scanned

end Scan
end ScriptLexer
