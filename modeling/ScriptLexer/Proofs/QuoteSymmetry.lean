import ScriptLexer.Proofs.RewrittenDrain

/-! The two quotes. A text is lexed the same way with each quote exchanged for the other: the quotes
in its lexemes change, and nothing else does. -/

namespace ScriptLexer

def otherQuote (c : Char) : Char :=
  if c = '\'' then '\x22' else if c = '\x22' then '\'' else c

def exchangeQuotes (text : List Char) : List Char := text.map otherQuote

theorem exchangeQuotes_eq_flatMap : exchangeQuotes = List.flatMap fun c => [otherQuote c] := by
  funext text
  exact List.map_eq_flatMap

theorem otherQuote_of_not_isQuote {c : Char} (unquoted : isQuote c = false) : otherQuote c = c := by
  simp only [isQuote, Bool.or_eq_false_iff, beq_eq_false_iff_ne] at unquoted
  simp only [otherQuote, unquoted, if_false]

theorem otherQuote_cases {motive : Char → Char → Prop} (double : motive '\x22' '\'')
    (single : motive '\'' '\x22') (same : ∀ c, isQuote c = false → motive c c) (c : Char) :
    motive c (otherQuote c) := by
  cases quoting : isQuote c with
  | false =>
      rw [otherQuote_of_not_isQuote quoting]
      exact same c quoting
  | true =>
      simp only [isQuote, Bool.or_eq_true, beq_iff_eq] at quoting
      rcases quoting with rfl | rfl
      · exact double
      · exact single

theorem isQuote_otherQuote (c : Char) : isQuote (otherQuote c) = isQuote c :=
  otherQuote_cases (motive := fun c d => isQuote d = isQuote c) rfl rfl (fun _ _ => rfl) c

theorem utf8Size_otherQuote (c : Char) : (otherQuote c).utf8Size = c.utf8Size :=
  otherQuote_cases (motive := fun c d => d.utf8Size = c.utf8Size) rfl rfl (fun _ _ => rfl) c

theorem otherQuote_otherQuote (c : Char) : otherQuote (otherQuote c) = c :=
  otherQuote_cases (motive := fun c d => otherQuote d = c) rfl rfl
    (fun _ unquoted => otherQuote_of_not_isQuote unquoted) c

theorem byteLength_exchangeQuotes (text : List Char) :
    byteLength (exchangeQuotes text) = byteLength text := by
  induction text with
  | nil => rfl
  | cons c text ih =>
      change (otherQuote c).utf8Size + byteLength (exchangeQuotes text) = _
      rw [utf8Size_otherQuote, ih, byteLength]

theorem rewriting_otherQuote : Rewriting fun c => [otherQuote c] where
  plain := by
    intro c plain
    have unquoted : isQuote c = false := by
      simp only [isPlain, Bool.and_eq_true, Bool.not_eq_true'] at plain
      exact plain.2
    rw [otherQuote_of_not_isQuote unquoted]
  quote := by
    intro c quoting
    exact ⟨otherQuote c, (isQuote_otherQuote c).trans quoting, rfl⟩
  apart := by
    intro c d _ _ same
    obtain ⟨quotes, _⟩ := List.cons.inj same
    rw [← otherQuote_otherQuote c, quotes, otherQuote_otherQuote]
  blank := by
    intro c _
    exact List.cons_ne_nil (otherQuote c) []
  alike := by
    intro c blank d member
    rw [otherQuote_of_not_isQuote (not_isQuote_of_isWhitespace blank)] at member
    obtain rfl := List.mem_singleton.mp member
    exact ⟨blank, rfl, rfl⟩
  single := by
    intro c _
    exact ⟨otherQuote c, rfl⟩

theorem keepsLines_otherQuote : KeepsLines (fun c => [otherQuote c]) fun _ => True := by
  intro c following _ _
  rw [← exchangeQuotes_eq_flatMap]
  have feed : ∀ d, (otherQuote d == '\n') = (d == '\n') :=
    otherQuote_cases (motive := fun c d => (d == '\n') = (c == '\n')) rfl rfl fun _ _ => rfl
  have next : ((exchangeQuotes following).head? == some '\n') = (following.head? == some '\n') := by
    cases following with
    | nil => rfl
    | cons d following => exact feed d
  have ends : Cursor.endsLine (otherQuote c) (exchangeQuotes following).head? =
      Cursor.endsLine c following.head? := by
    simp only [Cursor.endsLine, next]
    exact otherQuote_cases (motive := fun c d =>
      (isLineTerminator d && !(d == '\r' && following.head? == some '\n')) =
        (isLineTerminator c && !(c == '\r' && following.head? == some '\n')))
      rfl rfl (fun _ _ => rfl) c
  simp only [lineEnds, List.nil_append, ends]

structure Lexer.Exchanged (first second : Lexer) : Prop where
  rest : second.cursor.rest = exchangeQuotes first.cursor.rest
  source : second.source = first.source
  line : second.line = first.line
  offset : second.cursor.offset = first.cursor.offset
  errors : second.errors = first.errors

structure Pull.Exchanged (before after : Pull) : Prop where
  token? : after.token? = before.token?.map (Token.mapLexeme exchangeQuotes)
  report? : after.report? = before.report?
  lexer : Lexer.Exchanged before.lexer after.lexer

namespace Lexer

theorem Exchanged.next {first second : Lexer} (exchanged : Exchanged first second) :
    Pull.Exchanged first.next second.next := by
  obtain ⟨rest, source, line, offset, errors⟩ := exchanged
  have start : Rewritten (fun c => [otherQuote c]) first second :=
    ⟨by rw [rest, exchangeQuotes_eq_flatMap], source, line, errors⟩
  obtain ⟨token, report, left, name, reached, recorded⟩ :=
    start.next rewriting_otherQuote keepsLines_otherQuote fun _ _ => trivial
  rw [← exchangeQuotes_eq_flatMap] at token left
  refine ⟨token, report, left, name, reached, ?_, recorded⟩
  -- Both texts end at the same offset, and as much of each is left.
  have before := next_endOffset first
  have after := next_endOffset second
  simp only [Cursor.endOffset, left, rest, offset, byteLength_exchangeQuotes] at before after
  omega

/-- Exchanging the quotes of a text exchanges them in the lexemes of its tokens. Kinds, reports,
lines, offsets and errors stay as they are, pull for pull and at the end. -/
theorem drain_exchangeQuotes (text : List Char) (source : String) :
    let lexer := Lexer.ofText text source
    let changed := Lexer.ofText (exchangeQuotes text) source
    List.Forall₂ Pull.Exchanged lexer.drain.1 changed.drain.1 ∧
      Exchanged lexer.drain.2 changed.drain.2 := by
  intro lexer changed
  have step : ∀ first second, Exchanged first second →
      first.next.token?.isSome = second.next.token?.isSome ∧
        Exchanged first.next.lexer second.next.lexer ∧
        (first.next.token?.isSome = true → Pull.Exchanged first.next second.next) := by
    intro first second exchanged
    have next := exchanged.next
    refine ⟨?_, next.lexer, fun _ => next⟩
    rw [next.token?, Option.isSome_map]
  exact drain_related step lexer changed ⟨rfl, rfl, rfl, rfl, rfl⟩

end Lexer
end ScriptLexer
