import ScriptLexer.Proofs.Pull
import ScriptLexer.Proofs.Tiling

/-! Pulls in portions. However a text is cut into portions, they give the same pulls in turn and
leave the same lexer, and a portion that asks for more than is left is a drain. -/

namespace ScriptLexer

namespace Lexer

theorem tokens_of_found {lexer : Lexer} (found : lexer.next.token?.isSome = true) :
    lexer.tokens = lexer.next.token :: lexer.next.lexer.tokens := by
  obtain ⟨c, text, visible⟩ := exists_visible found
  have first : lexer.next.token = (Scan.leading c text).verdict.asToken := by
    rw [Pull.token, next_of_visible visible, consume_token?]
    rfl
  rw [first, tokens_of_visible visible]

theorem tokens_of_end {lexer : Lexer} (finished : ¬lexer.next.token?.isSome = true) :
    lexer.tokens = [] :=
  tokens_of_blank (blank_of_end finished)

section Found

variable {lexer : Lexer} (found : lexer.next.token?.isSome = true)
include found

theorem next_token?_of_found : lexer.next.token? = some lexer.next.token := by
  obtain ⟨token, given⟩ := Option.isSome_iff_exists.mp found
  rw [Pull.token, given]
  rfl

theorem next_token_not_eof : lexer.next.token.isEof = false := by
  obtain ⟨c, text, visible⟩ := exists_visible found
  rw [Pull.token, next_of_visible visible, consume_token?]
  exact (leading_spelled c text).1

/-- A pull reports, under the name in force, exactly where its token is invalid. -/
theorem next_report?_of_found :
    (lexer.next.token.isInvalid = true ↔ lexer.next.report?.isSome = true) ∧
      ∀ report ∈ lexer.next.report?, report.source = lexer.source := by
  obtain ⟨c, text, visible⟩ := exists_visible found
  rw [next_report? visible, Pull.token, next_of_visible visible, consume_token?]
  cases judged : (Scan.leading c text).verdict with
  | token token =>
      have genuine := (Scan.leading_sound c text token judged).genuine
      simp [Verdict.asToken, Verdict.fault?, Token.isInvalid, genuine]
  | fault code => simp [Verdict.asToken, Verdict.fault?, Token.isInvalid, Token.invalid, Token.bare]

end Found

section End

variable {lexer : Lexer} (finished : ¬lexer.next.token?.isSome = true)
include finished

theorem next_of_end : lexer.next = ⟨none, none, lexer.next.lexer⟩ := by
  rw [next_of_blank (blank_of_end finished)]

theorem next_rest_of_end : lexer.next.lexer.cursor.rest = [] := by
  rw [next_of_blank (blank_of_end finished), skipWhitespace_rest, blank_of_end finished]

end End

theorem next_of_nothing {lexer : Lexer} (nothing : lexer.cursor.rest = []) :
    lexer.next = ⟨none, none, lexer⟩ := by
  have stays : lexer.skipWhitespace = lexer := by
    unfold skipWhitespace Cursor.advanceWhile
    rw [nothing, List.takeWhile_nil]
    rfl
  rw [next_of_blank (by rw [nothing, List.dropWhile_nil]), stays]

theorem pull_of_nothing {lexer : Lexer} (nothing : lexer.cursor.rest = []) (count : Nat) :
    lexer.pull count = ([], lexer) := by
  cases count with
  | zero => rfl
  | succ count =>
      have ended := next_of_nothing nothing
      rw [pull_of_end (by rw [ended]; exact Bool.false_ne_true), ended]

theorem pull_add (first second : Nat) (lexer : Lexer) :
    lexer.pull (first + second) =
      ((lexer.pull first).1 ++ ((lexer.pull first).2.pull second).1,
        ((lexer.pull first).2.pull second).2) := by
  induction first generalizing lexer with
  | zero => rw [Nat.zero_add]; rfl
  | succ first ih =>
      rw [Nat.succ_add]
      by_cases found : lexer.next.token?.isSome = true
      · rw [pull_of_found found, pull_of_found found, ih, List.cons_append]
      · rw [pull_of_end found, pull_of_end found, pull_of_nothing (next_rest_of_end found)]
        rfl

theorem pull_tokens (count : Nat) (lexer : Lexer) :
    (lexer.pull count).1.filterMap Pull.token? = lexer.tokens.take count ∧
      (lexer.pull count).2.tokens = lexer.tokens.drop count := by
  induction count generalizing lexer with
  | zero => exact ⟨rfl, rfl⟩
  | succ count ih =>
      by_cases found : lexer.next.token?.isSome = true
      · obtain ⟨given, left⟩ := ih lexer.next.lexer
        rw [pull_of_found found, tokens_of_found found,
          List.filterMap_cons_some (next_token?_of_found found), given, left]
        exact ⟨rfl, rfl⟩
      · rw [pull_of_end found, tokens_of_end found]
        have nothing := next_of_nothing (next_rest_of_end found)
        exact ⟨rfl, tokens_of_end (by rw [nothing]; exact Bool.false_ne_true)⟩

theorem pull_of_length_lt {lexer : Lexer} {count : Nat} (beyond : lexer.tokens.length < count) :
    lexer.pull count = lexer.drain := by
  induction count generalizing lexer with
  | zero => cases beyond
  | succ count ih =>
      by_cases found : lexer.next.token?.isSome = true
      · obtain ⟨c, text, visible⟩ := exists_visible found
        rw [tokens_of_found found, List.length_cons] at beyond
        rw [pull_of_found found, drain_of_visible visible, ih (by omega)]
      · rw [pull_of_end found, drain_of_end found]

theorem pull_one (lexer : Lexer) :
    (lexer.pull 1).1.filterMap Pull.token? = lexer.next.token?.toList ∧
      (lexer.pull 1).1.filterMap Pull.report? = lexer.next.report?.toList ∧
      (lexer.pull 1).2 = lexer.next.lexer := by
  by_cases found : lexer.next.token?.isSome = true
  · rw [pull_of_found found, Pull.gathered_cons, Pull.gathered_cons]
    exact ⟨List.append_nil _, List.append_nil _, rfl⟩
  · rw [pull_of_end found, next_of_end found]
    exact ⟨rfl, rfl, rfl⟩

theorem pull_source (count : Nat) (lexer : Lexer) : (lexer.pull count).2.source = lexer.source := by
  induction count generalizing lexer with
  | zero => rfl
  | succ count ih =>
      by_cases found : lexer.next.token?.isSome = true
      · rw [pull_of_found found]
        exact (ih lexer.next.lexer).trans (next_source lexer)
      · rw [pull_of_end found]
        exact next_source lexer

theorem pull_errors (count : Nat) (lexer : Lexer) :
    (lexer.pull count).2.errors =
      lexer.errors.note ((lexer.pull count).1.filterMap Pull.report?) := by
  induction count generalizing lexer with
  | zero => rfl
  | succ count ih =>
      by_cases found : lexer.next.token?.isSome = true
      · rw [pull_of_found found, Pull.gathered_cons, LineErrors.note_append, ← next_errors]
        exact ih lexer.next.lexer
      · rw [pull_of_end found, next_errors, next_of_end found]
        rfl

theorem mem_pull {count : Nat} {lexer : Lexer} {pull : Pull}
    (member : pull ∈ (lexer.pull count).1) :
    ∃ before : Lexer, before.source = lexer.source ∧ before.next.token?.isSome = true ∧
      before.next = pull := by
  induction count generalizing lexer with
  | zero => cases member
  | succ count ih =>
      by_cases found : lexer.next.token?.isSome = true
      · rw [pull_of_found found] at member
        rcases List.mem_cons.mp member with rfl | later
        · exact ⟨lexer, rfl, found, rfl⟩
        · obtain ⟨before, name, given⟩ := ih later
          exact ⟨before, name.trans (next_source lexer), given⟩
      · rw [pull_of_end found] at member
        cases member

theorem pull_token? (count : Nat) (lexer : Lexer) :
    (lexer.pull count).1.filterMap Pull.token? = (lexer.pull count).1.map Pull.token := by
  rw [← List.filterMap_eq_map]
  apply List.filterMap_congr
  intro pull member
  obtain ⟨before, _, found, rfl⟩ := mem_pull member
  exact next_token?_of_found found

theorem drain_end (lexer : Lexer) :
    lexer.drain.2.cursor.rest = [] ∧
      lexer.drain.2.cursor.offset = lexer.cursor.endOffset := by
  fun_induction drain lexer with
  | case1 lexer pull found left ih =>
      rw [← next_endOffset lexer]
      exact ih
  | case2 lexer pull finished =>
      have nothing := next_rest_of_end finished
      have reached := next_endOffset lexer
      rw [Cursor.endOffset, nothing] at reached
      exact ⟨nothing, reached⟩

end Lexer
end ScriptLexer
