import ScriptLexer.Proofs.Pull
import ScriptLexer.Proofs.Spelling

/-! A drain loses nothing. What its calls skip and what they take, cut out of the buffer by the
positions in between, are gaps of whitespace and spans of tokens that make up the text in turn, and
a span that is not malformed is what its token spells. -/

namespace ScriptLexer

def interleave : List (List Char) → List (List Char) → List Char
  | gap :: gaps, span :: spans => gap ++ span ++ interleave gaps spans
  | gaps, _ => gaps.flatten

def invalidSpans (tokens : List Token) (spans : List (List Char)) : List (List Char) :=
  ((tokens.zip spans).filter fun pair => pair.1.isInvalid).map Prod.snd

/-- The text that `tokens` stand for between `gaps`, the invalid ones for `invalid` in turn. -/
def rebuild : List (List Char) → List Token → List (List Char) → List Char
  | gap :: gaps, token :: tokens, invalid =>
      if token.isInvalid then gap ++ invalid.headD [] ++ rebuild gaps tokens invalid.tail
      else gap ++ token.text ++ rebuild gaps tokens invalid
  | gaps, _, _ => gaps.flatten

namespace Lexer

/-- The lexers at which a drain makes its calls. The last call is the one that meets the end. -/
def calls (lexer : Lexer) : List Lexer := lexer :: lexer.drain.1.map Pull.lexer

def gap? (lexer : Lexer) : Option (List Char) :=
  lexer.skipWhitespace.cursor.sliceFrom? lexer.cursor.offset

def span? (lexer : Lexer) : Option (List Char) :=
  lexer.next.lexer.cursor.sliceFrom? lexer.skipWhitespace.cursor.offset

structure Tiling (lexer : Lexer) (gaps spans : List (List Char)) : Prop where
  gaps_cut : lexer.calls.map gap? = gaps.map some
  spans_cut : lexer.calls.dropLast.map span? = spans.map some
  alternate : gaps.length = spans.length + 1
  blank : ∀ gap ∈ gaps, ∀ c ∈ gap, isWhitespace c = true
  visible : ∀ span ∈ spans, ∃ c tail, span = c :: tail ∧ isWhitespace c = false
  spelled : List.Forall₂
    (fun token span => token.isEof = false ∧ (token.isInvalid = false → token.Spells span))
    lexer.tokens spans

section Step

variable {lexer : Lexer} {read : List Char} (before : lexer.cursor.HasRead read)
include before

theorem skipWhitespace_hasRead :
    lexer.skipWhitespace.cursor.HasRead (read ++ lexer.cursor.rest.takeWhile isWhitespace) := by
  have moved := before.advanceBy (lexer.cursor.rest.takeWhile isWhitespace).length
  rwa [take_length_takeWhile isWhitespace lexer.cursor.rest] at moved

theorem gap?_eq : lexer.gap? = some (lexer.cursor.rest.takeWhile isWhitespace) := by
  rw [gap?, before.offset]
  exact (skipWhitespace_hasRead before).sliceFrom?

theorem next_hasRead {c : Char} {text : List Char}
    (visible : lexer.cursor.rest.dropWhile isWhitespace = c :: text) :
    lexer.next.lexer.cursor.HasRead (read ++ lexer.cursor.rest.takeWhile isWhitespace ++
      (Scan.leading c text).taken) := by
  have covers := skipWhitespace_covers visible
  have moved := (skipWhitespace_hasRead before).advanceBy
    (Scan.leading c text).taken.length
  rw [(Scan.take_taken covers).1] at moved
  rwa [next_of_visible visible, consume_cursor]

theorem span?_eq {c : Char} {text : List Char}
    (visible : lexer.cursor.rest.dropWhile isWhitespace = c :: text) :
    lexer.span? = some (Scan.leading c text).taken := by
  rw [span?, (skipWhitespace_hasRead before).offset]
  exact (next_hasRead before visible).sliceFrom?

end Step

theorem calls_of_visible {lexer : Lexer} {c : Char} {text : List Char}
    (visible : lexer.cursor.rest.dropWhile isWhitespace = c :: text) :
    lexer.calls = lexer :: lexer.next.lexer.calls := by
  rw [calls, drain_of_visible visible]
  rfl

theorem leading_spelled (c : Char) (text : List Char) :
    let scan := Scan.leading c text
    scan.verdict.asToken.isEof = false ∧ (scan.verdict.asToken.isInvalid = false →
      scan.verdict.asToken.Spells scan.taken) := by
  intro scan
  cases accepted : scan.verdict with
  | token token =>
      obtain ⟨spells, skipped, genuine, _⟩ := Scan.leading_sound c text token accepted
      refine ⟨by simpa [Verdict.asToken, Token.isEof] using genuine, fun _ => ?_⟩
      rw [Scan.taken, skipped, List.append_nil]
      exact spells
  | fault code => exact ⟨rfl, fun valid => by cases valid⟩

section Tiling

variable {lexer : Lexer} {read : List Char} (before : lexer.cursor.HasRead read)
include before

theorem tiling_cons {c : Char} {text : List Char}
    (visible : lexer.cursor.rest.dropWhile isWhitespace = c :: text) {gaps spans : List (List Char)}
    (tiling : lexer.next.lexer.Tiling gaps spans) :
    lexer.Tiling (lexer.cursor.rest.takeWhile isWhitespace :: gaps)
      ((Scan.leading c text).taken :: spans) := by
  obtain ⟨tail, taken, _⟩ := Scan.leading_taken c text
  constructor
  · rw [calls_of_visible visible, List.map_cons, gap?_eq before, tiling.gaps_cut]
    rfl
  · have several : lexer.next.lexer.calls ≠ [] := List.cons_ne_nil _ _
    rw [calls_of_visible visible, List.dropLast_cons_of_ne_nil several, List.map_cons,
      span?_eq before visible, tiling.spans_cut]
    rfl
  · simpa using tiling.alternate
  · intro gap member d inside
    rcases List.mem_cons.mp member with rfl | member
    · exact List.mem_takeWhile_imp inside
    · exact tiling.blank gap member d inside
  · intro span member
    rcases List.mem_cons.mp member with rfl | member
    · exact ⟨c, tail, taken, visible_of_head visible⟩
    · exact tiling.visible span member
  · rw [tokens_of_visible visible]
    exact .cons (leading_spelled c text) tiling.spelled

theorem tiling_of_blank (blank : lexer.cursor.rest.dropWhile isWhitespace = []) :
    lexer.Tiling [lexer.cursor.rest] [] := by
  have parts := takeWhile_of_nothing_left blank
  constructor
  · rw [calls, drain_of_blank blank, List.map_cons, gap?_eq before, parts]
    rfl
  · rw [calls, drain_of_blank blank]
    rfl
  · rfl
  · intro gap member d inside
    obtain rfl := List.mem_singleton.mp member
    rw [← parts] at inside
    exact List.mem_takeWhile_imp inside
  · intro span member
    cases member
  · rw [tokens_of_blank blank]
    exact .nil

end Tiling

theorem exists_tiling (lexer : Lexer) (read : List Char) (before : lexer.cursor.HasRead read) :
    ∃ gaps spans, lexer.Tiling gaps spans ∧ interleave gaps spans = lexer.cursor.rest ∧
      lexer.drain.2.cursor.HasRead (read ++ lexer.cursor.rest) := by
  -- The induction is along the calls; `read` is what the earlier ones have gone through.
  fun_induction drain lexer generalizing read with
  | case1 lexer pull found left ih =>
      obtain ⟨c, text, visible⟩ := exists_visible found
      obtain ⟨gaps, spans, tiling, whole, after⟩ := ih _ (next_hasRead before visible)
      have parts := (rest_parts visible).symm
      rw [← next_rest visible] at parts
      refine ⟨_, _, tiling_cons before visible tiling, ?_, ?_⟩
      · rw [interleave, whole, List.append_assoc]
        exact parts
      · rw [List.append_assoc, List.append_assoc, parts] at after
        exact after
  | case2 lexer pull finished =>
      have blank := blank_of_end finished
      have parts := takeWhile_of_nothing_left blank
      refine ⟨_, _, tiling_of_blank before blank, by simp [interleave], ?_⟩
      have after := skipWhitespace_hasRead before
      rw [parts] at after
      change lexer.next.lexer.cursor.HasRead _
      rwa [next_of_blank blank]

/-- What was cut into gaps and spans is put together again from the gaps, the tokens, and the spans
of the invalid tokens alone. -/
theorem rebuild_eq_interleave (gaps spans : List (List Char)) (tokens : List Token)
    (spelled : List.Forall₂
      (fun token span => token.isEof = false ∧ (token.isInvalid = false → token.Spells span))
      tokens spans) :
    rebuild gaps tokens (invalidSpans tokens spans) = interleave gaps spans := by
  induction spelled generalizing gaps with
  | nil => cases gaps <;> simp [rebuild, interleave]
  | @cons token span tokens spans first _ ih =>
      cases gaps with
      | nil => simp [rebuild, interleave]
      | cons gap gaps =>
          by_cases invalid : token.isInvalid = true
          · have spans_cons : invalidSpans (token :: tokens) (span :: spans) =
                span :: invalidSpans tokens spans := by
              simp [invalidSpans, invalid]
            rw [spans_cons, rebuild, if_pos invalid, interleave, ← ih gaps]
            rfl
          · have valid : token.isInvalid = false := Bool.eq_false_iff.mpr invalid
            have spans_cons : invalidSpans (token :: tokens) (span :: spans) =
                invalidSpans tokens spans := by
              simp [invalidSpans, valid]
            rw [spans_cons, rebuild, if_neg invalid, interleave, ← ih gaps,
              Token.text_of_spells (first.2 valid)]

/-- Draining a text cuts it into gaps of whitespace and spans of tokens, and leaves nothing. -/
theorem drain_tiles_text (text : List Char) (source : String) :
    let lexer := Lexer.ofText text source
    ∃ gaps spans, lexer.Tiling gaps spans ∧ interleave gaps spans = text ∧
      lexer.drain.2.cursor.offset = byteLength text ∧
      rebuild gaps lexer.tokens (invalidSpans lexer.tokens spans) = text := by
  intro lexer
  obtain ⟨gaps, spans, tiling, whole, after⟩ :=
    exists_tiling lexer [] (Cursor.hasRead_ofText text)
  refine ⟨gaps, spans, tiling, whole, after.offset, ?_⟩
  rw [rebuild_eq_interleave gaps spans lexer.tokens tiling.spelled]
  exact whole

end Lexer
end ScriptLexer
