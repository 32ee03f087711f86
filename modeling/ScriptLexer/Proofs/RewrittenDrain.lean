import ScriptLexer.Proofs.Pull
import ScriptLexer.Proofs.RewrittenLiteral

/-! Draining rewritten texts. Pull for pull, the lexer of a rewritten text gives the same tokens with
their lexemes rewritten, and if no line end moves, the same reports and lines. -/

namespace ScriptLexer

namespace Scan

theorem taken_rewrite (image : Char → List Char) (scan : Scan) :
    (scan.rewrite image).taken = scan.taken.flatMap image := by
  rw [taken, taken, List.flatMap_append]
  rfl

section Rewriting

variable {image : Char → List Char} (rewriting : Rewriting image)
include rewriting

theorem slash_rewrite (text : List Char) :
    slash '/' (text.flatMap image) = (slash '/' text).rewrite image := by
  have slashed : isPlain '/' = true := by decide
  have star : isPlain '*' = true := by decide
  by_cases line : ∃ body, text = '/' :: body
  · obtain ⟨body, rfl⟩ := line
    rw [rewriting.cons_plain slashed]
    exact lineComment_rewrite rewriting body
  · by_cases block : ∃ body, text = '*' :: body
    · obtain ⟨body, rfl⟩ := block
      rw [rewriting.cons_plain star]
      exact blockComment_rewrite rewriting body
    · have noLine := not_exists.mp line
      have noBlock := not_exists.mp block
      rw [slash.eq_3 '/' text noLine noBlock, slash.eq_3 '/' _
        (rewrite_ne_cons rewriting slashed noLine) (rewrite_ne_cons rewriting star noBlock)]
      exact punctuator_rewrite rewriting (by decide) text

theorem startsNumber_rewrite {c d : Char} (becomes : image c = [d]) (text : List Char) :
    startsNumber (d :: text.flatMap image) = startsNumber (c :: text) := by
  have points : ∀ e, (e == '.') = true → isPlain e = true := by
    intro e point
    obtain rfl := beq_iff_eq.mp point
    decide
  have digits := rewriting.stable_of_plain isPlain_of_decimalDigit
  have signed := (rewriting.stable_of_plain isPlain_of_sign).head becomes
  have pointed := (rewriting.stable_of_plain points).head becomes
  rw [startsNumber, startsNumber, rewriting.head?_any_flatMap digits, digits.head becomes, signed,
    pointed]

theorem leading_rewrite {c d : Char} (becomes : image c = [d]) (visible : isWhitespace c = false)
    (text : List Char) : leading d (text.flatMap image) = (leading c text).rewrite image := by
  have whole : (c :: text).flatMap image = d :: text.flatMap image := by
    rw [List.flatMap_cons, becomes]
    rfl
  have unchanged : isPlain c = true → d = c := by
    intro plain
    have same := rewriting.plain c plain
    rw [becomes] at same
    exact (List.cons.inj same).1
  have slashes : ∀ e, isCommentStart e = true → isPlain e = true := by
    intro e slashed
    obtain rfl : e = '/' := by simpa [isCommentStart] using slashed
    decide
  have names : ∀ e, isIdentifierStart e = true → isPlain e = true := by
    intro e naming
    exact isPlain_of_identifierPart e (by simp [isIdentifierPart, naming])
  unfold leading
  rw [(rewriting.stable_of_plain slashes).head becomes, startsNumber_rewrite rewriting becomes,
    (rewriting.stable_of_plain isPlain_of_operatorStart).head becomes,
    rewriting.stable_isQuote.head becomes, (rewriting.stable_of_plain names).head becomes]
  split
  · rename_i slashed
    obtain rfl := unchanged (slashes c slashed)
    obtain rfl : d = '/' := by simpa [isCommentStart] using slashed
    exact slash_rewrite rewriting text
  · split
    · rw [← whole]
      exact number_rewrite rewriting (c :: text)
    · split
      · rename_i operator
        obtain rfl := unchanged (isPlain_of_operatorStart c operator)
        exact punctuator_rewrite rewriting operator text
      · split
        · rename_i quoting
          exact quoted_rewrite rewriting quoting becomes text
        · split
          · rw [← whole]
            exact word_rewrite rewriting (c :: text)
          · rename_i unquoted _
            have plain : isPlain c = true := by
              simp only [isPlain, visible, Bool.eq_false_iff.mpr unquoted, Bool.not_false,
                Bool.and_self]
            obtain rfl := unchanged plain
            exact structural_rewrite rewriting plain text

end Rewriting
end Scan

def KeepsLines (image : Char → List Char) (admitted : Char → Prop) : Prop :=
  ∀ c following, admitted c → (∀ d ∈ following, admitted d) →
    lineEnds (image c) (following.flatMap image) = lineEnds [c] following

theorem KeepsLines.lineEnds_flatMap {image : Char → List Char} {admitted : Char → Prop}
    (keeps : KeepsLines image admitted) (read : List Char) {following : List Char}
    (allowed : ∀ c ∈ read ++ following, admitted c) :
    lineEnds (read.flatMap image) (following.flatMap image) = lineEnds read following := by
  induction read with
  | nil => rfl
  | cons c read ih =>
      have behind : ∀ d ∈ read ++ following, admitted d := fun d member =>
        allowed d (List.mem_cons_of_mem c member)
      calc lineEnds ((c :: read).flatMap image) (following.flatMap image)
          _ = lineEnds (image c) ((read ++ following).flatMap image) +
                lineEnds (read.flatMap image) (following.flatMap image) := by
            rw [List.flatMap_cons, lineEnds_append, ← List.flatMap_append]
          _ = lineEnds [c] (read ++ following) + lineEnds read following := by
            rw [keeps c _ (allowed c List.mem_cons_self) behind, ih behind]
          _ = lineEnds (c :: read) following := (lineEnds_append [c] read following).symm

namespace Lexer

structure Rewritten (image : Char → List Char) (first second : Lexer) : Prop where
  rest : second.cursor.rest = first.cursor.rest.flatMap image
  source : second.source = first.source
  line : second.line = first.line
  errors : second.errors = first.errors

end Lexer

structure Pull.Rewritten (image : Char → List Char) (before after : Pull) : Prop where
  token? : after.token? = before.token?.map (Token.mapLexeme (List.flatMap image))
  report? : after.report? = before.report?
  lexer : Lexer.Rewritten image before.lexer after.lexer

namespace Lexer

theorem mem_of_mem_next {lexer : Lexer} {c : Char} (member : c ∈ lexer.next.lexer.cursor.rest) :
    c ∈ lexer.cursor.rest := by
  cases visible : lexer.cursor.rest.dropWhile isWhitespace with
  | nil =>
      rw [next_of_blank visible, skipWhitespace_rest, visible] at member
      cases member
  | cons d text =>
      rw [next_rest visible] at member
      rw [rest_parts visible]
      exact List.mem_append_right _ (List.mem_append_right _ member)

section Rewritten

variable {image : Char → List Char} {admitted : Char → Prop} {first second : Lexer}
  (rewriting : Rewriting image) (keeps : KeepsLines image admitted)
  (rewritten : Rewritten image first second) (allowed : ∀ c ∈ first.cursor.rest, admitted c)
include rewriting keeps rewritten allowed

theorem Rewritten.next : Pull.Rewritten image first.next second.next := by
  obtain ⟨rest, source, line, errors⟩ := rewritten
  obtain ⟨gap, left⟩ := rewriting.takeWhile_flatMap rewriting.stable_isWhitespace first.cursor.rest
  rw [← rest] at gap left
  cases visible : first.cursor.rest.dropWhile isWhitespace with
  | nil =>
      have also := left
      rw [visible, List.flatMap_nil] at also
      have parts := List.takeWhile_append_dropWhile (p := isWhitespace) (l := first.cursor.rest)
      rw [← parts] at allowed
      rw [next_of_blank visible, next_of_blank also]
      refine ⟨rfl, rfl, ?_, source, ?_, errors⟩
      · rw [skipWhitespace_rest, skipWhitespace_rest, left]
      · rw [skipWhitespace_line, skipWhitespace_line, left, gap, line,
          keeps.lineEnds_flatMap _ allowed]
  | cons c text =>
      obtain ⟨d, becomes⟩ := rewriting.visible (visible_of_head visible)
      have also := left
      rw [visible, List.flatMap_cons, becomes, List.singleton_append] at also
      have scanned := Scan.leading_rewrite rewriting becomes (visible_of_head visible) text
      have inside := allowed
      rw [rest_parts visible, ← List.append_assoc] at inside
      have report : second.next.report? = first.next.report? := by
        have reached := inside
        rw [Scan.taken, ← List.append_assoc (first.cursor.rest.takeWhile isWhitespace),
          List.append_assoc] at reached
        have same := keeps.lineEnds_flatMap _ reached
        rw [List.flatMap_append, List.flatMap_append] at same
        rw [next_report? visible, next_report? also, scanned, gap, source, line, ← same]
        simp only [Scan.rewrite, Verdict.fault?_mapLexeme]
      refine ⟨?_, report, ?_, ?_, ?_, ?_⟩
      · rw [next_of_visible visible, next_of_visible also, consume_token?, consume_token?, scanned,
          Option.map_some]
        exact congrArg some (Verdict.asToken_mapLexeme _ _)
      · rw [next_rest visible, next_rest also, scanned]
        rfl
      · rw [next_source, next_source, source]
      · have same := keeps.lineEnds_flatMap _ inside
        rw [next_line visible, next_line also, scanned, gap, line, Scan.taken_rewrite,
          ← List.flatMap_append, ← same]
        rfl
      · rw [next_errors, next_errors, errors, report]

theorem Rewritten.drain :
    List.Forall₂ (Pull.Rewritten image) first.drain.1 second.drain.1 ∧
      Rewritten image first.drain.2 second.drain.2 := by
  let related : Lexer → Lexer → Prop := fun first second =>
    Rewritten image first second ∧ ∀ c ∈ first.cursor.rest, admitted c
  have step : ∀ first second, related first second →
      first.next.token?.isSome = second.next.token?.isSome ∧
        related first.next.lexer second.next.lexer ∧
        (first.next.token?.isSome = true → Pull.Rewritten image first.next second.next) := by
    intro first second ⟨rewritten, allowed⟩
    have next := rewritten.next rewriting keeps allowed
    refine ⟨?_, ⟨next.lexer, ?_⟩, fun _ => next⟩
    · rw [next.token?, Option.isSome_map]
    · intro c member
      exact allowed c (mem_of_mem_next member)
  obtain ⟨streams, ends⟩ := drain_related step first second ⟨rewritten, allowed⟩
  exact ⟨streams, ends.1⟩

end Rewritten
end Lexer
end ScriptLexer
