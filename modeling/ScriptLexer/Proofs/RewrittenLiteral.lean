import ScriptLexer.Proofs.RewrittenScan

/-! String literals of rewritten texts. The quote that opens a literal is rewritten with the one
that closes it, no other quote becomes it, and what a line end becomes stays within the literal. -/

namespace ScriptLexer.Scan

def Escape.rewrite (image : Char → List Char) (escape : Escape) : Escape :=
  ⟨escape.fault, escape.taken.flatMap image, escape.rest.flatMap image⟩

def Body.rewrite (image : Char → List Char) (body : Body) : Body :=
  ⟨body.fault, body.seen.flatMap image, body.skipped.flatMap image, body.rest.flatMap image⟩

theorem Body.rewrite_prepend (image : Char → List Char) (taken : List Char) (body : Body) :
    (body.prepend taken).rewrite image = (body.rewrite image).prepend (taken.flatMap image) := by
  simp only [rewrite, prepend, List.flatMap_append]

theorem raw_of_blank {quote c : Char} (quoting : isQuote quote = true)
    (blank : isWhitespace c = true) (held : isStringCharacter c = true) : Raw quote c := by
  refine ⟨?_, ?_, held⟩
  · rintro rfl
    exact absurd blank (by decide)
  · rintro rfl
    rw [not_isWhitespace_of_isQuote quoting] at blank
    cases blank

section Rewriting

variable {image : Char → List Char} (rewriting : Rewriting image)
include rewriting

theorem rewrite_ne_cons {c : Char} (plain : isPlain c = true) {text : List Char}
    (differs : ∀ tail, text ≠ c :: tail) (more : List Char) : text.flatMap image ≠ c :: more := by
  intro begins
  obtain ⟨tail, present, _⟩ := rewriting.exists_of_cons_plain plain begins
  exact differs tail present

theorem escape_rewrite (text : List Char) :
    escape (text.flatMap image) = (escape text).rewrite image := by
  have opening : isPlain '\x7b' = true := by decide
  have closing : isPlain '\x7d' = true := by decide
  by_cases opened : ∃ tail, text = '\x7b' :: tail
  · obtain ⟨text, rfl⟩ := opened
    obtain ⟨run, left, same⟩ := rewriting.takeWhile_plain isPlain_of_hexDigit text
    rw [rewriting.cons_plain opening]
    by_cases ended : ∃ rest, text.dropWhile isHexDigit = '\x7d' :: rest
    · obtain ⟨rest, ended⟩ := ended
      rw [ended, rewriting.cons_plain closing] at left
      rw [escape_ended ended, escape_ended left, run]
      split
      · simp only [Escape.rewrite, rewriting.cons_plain opening, rewriting.cons_plain closing, same]
      · split
        · simp only [Escape.rewrite, List.flatMap_append, rewriting.cons_plain opening,
            rewriting.cons_plain closing, same, List.flatMap_nil]
        · simp only [Escape.rewrite, rewriting.cons_plain opening, rewriting.cons_plain closing,
            same]
    · by_cases reopened : ∃ rest, text.dropWhile isHexDigit = '\x7b' :: rest
      · obtain ⟨rest, reopened⟩ := reopened
        rw [reopened, rewriting.cons_plain opening] at left
        rw [escape_reopened reopened, escape_reopened left, run]
        simp only [Escape.rewrite, rewriting.cons_plain opening, same]
      · have unended := not_exists.mp ended
        have single := not_exists.mp reopened
        have unendedStill := rewrite_ne_cons rewriting closing unended
        have singleStill := rewrite_ne_cons rewriting opening single
        rw [← left] at unendedStill singleStill
        rw [escape_unended unended single, escape_unended unendedStill singleStill, run, left]
        simp only [Escape.rewrite, rewriting.cons_plain opening, same]
  · have closed := not_exists.mp opened
    rw [escape_unopened closed, escape_unopened (rewrite_ne_cons rewriting opening closed)]
    rfl

section Quote

variable {quote mark : Char} (quoting : isQuote quote = true) (becomes : image quote = [mark])
include quoting becomes

theorem raw_rewrite {c : Char} (raw : Raw quote c) : ∀ d ∈ image c, Raw mark d := by
  obtain ⟨unescaped, unquoted, held⟩ := raw
  intro d member
  constructor
  · rintro rfl
    exact unescaped (rewriting.eq_of_mem_plain member (by decide))
  · rintro rfl
    have also : isQuote c = true := by
      rw [← rewriting.stable_isQuote c d member, rewriting.stable_isQuote.head becomes, quoting]
    obtain ⟨e, _, single⟩ := rewriting.quote c also
    rw [single] at member
    obtain rfl := List.mem_singleton.mp member
    exact unquoted (rewriting.apart c quote also quoting (single.trans becomes.symm))
  · rw [rewriting.stable_isStringCharacter c d member, held]

/-- A blank that a backslash escapes leaves only raw characters behind its first. -/
theorem escaped_rewrite (c : Char) :
    ∃ d ds, image c = d :: ds ∧ (c ≠ 'u' → d ≠ 'u') ∧ isStringCharacter d = isStringCharacter c ∧
      ∀ e ∈ ds, Raw mark e := by
  obtain ⟨d, ds, parts⟩ := List.exists_cons_of_ne_nil (rewriting.image_ne_nil c)
  refine ⟨d, ds, parts, ?_, rewriting.stable_isStringCharacter.head parts, ?_⟩
  · rintro other rfl
    have first : 'u' ∈ image c := by
      rw [parts]
      exact List.mem_cons_self
    exact other (rewriting.eq_of_mem_plain first (by decide))
  · intro e inside
    rcases rewriting.single_or_blank c with ⟨f, single⟩ | ⟨blank, held⟩
    · rw [single] at parts
      obtain ⟨_, rfl⟩ := List.cons.inj parts
      cases inside
    · apply raw_rewrite rewriting quoting becomes (raw_of_blank quoting blank held)
      rw [parts]
      exact List.mem_cons_of_mem d inside

theorem mark_ne_backslash : mark ≠ '\\' := by
  rintro rfl
  have marked := rewriting.stable_isQuote.head becomes
  rw [quoting] at marked
  cases marked

theorem ends_rewrite {c : Char} (outside : ¬isStringCharacter c = true) :
    ∃ d, image c = [d] ∧ Ends mark d := by
  obtain ⟨d, single⟩ := rewriting.single c (Bool.eq_false_iff.mpr outside)
  have still : ¬isStringCharacter d = true := by
    rw [rewriting.stable_isStringCharacter.head single]
    exact outside
  have marked : isStringCharacter mark = true := by
    rw [rewriting.stable_isStringCharacter.head becomes]
    simp only [isQuote, Bool.or_eq_true, beq_iff_eq] at quoting
    rcases quoting with rfl | rfl <;> decide
  refine ⟨d, single, ?_, ?_, still⟩
  · rintro rfl
    exact still (by decide)
  · rintro rfl
    exact still marked

theorem literalTail_rewrite (text : List Char) :
    literalTail mark (text.flatMap image) = (literalTail quote text).flatMap image := by
  have escape : isPlain '\\' = true := by decide
  have unescaped := mark_ne_backslash rewriting quoting becomes
  fun_induction literalTail quote text with
  | case1 => rfl
  | case2 c text ih =>
      obtain ⟨d, ds, parts, _, _, raw⟩ := escaped_rewrite rewriting quoting becomes c
      rw [rewriting.cons_plain escape, rewriting.cons_plain escape, List.flatMap_cons,
        List.flatMap_cons, parts, List.cons_append, List.cons_append, literalTail,
        literalTail_raws raw, ih]
  | case3 text lone =>
      rw [List.flatMap_cons, becomes, List.singleton_append, literalTail_close unescaped,
        List.flatMap_singleton, becomes]
  | case4 c text lone unquoted member ih =>
      by_cases escaping : c = '\\'
      · subst escaping
        -- Only a backslash at the end takes no character along.
        cases text with
        | cons d text => exact absurd rfl (lone d text rfl)
        | nil =>
            rw [rewriting.cons_plain escape, List.flatMap_nil, literalTail_lone, literalTail,
              rewriting.cons_plain escape]
            rfl
      · have raw := raw_rewrite rewriting quoting becomes ⟨escaping, unquoted, member⟩
        rw [List.flatMap_cons, List.flatMap_cons, literalTail_raws raw, ih]
  | case5 c text lone unquoted outside =>
      obtain ⟨d, single, ends⟩ := ends_rewrite rewriting quoting becomes outside
      rw [List.flatMap_cons, single, List.singleton_append, literalTail_ends ends]
      rfl

theorem broken_rewrite (code : ErrorCode) (seen text : List Char) :
    Body.broken mark code (seen.flatMap image) (text.flatMap image) =
      (Body.broken quote code seen text).rewrite image := by
  have tail := literalTail_rewrite rewriting quoting becomes text
  have cut := drop_rewritten image (literalTail_covers quote text)
  simp only [Body.broken, Body.rewrite, tail, cut]

theorem body_rewrite (text : List Char) :
    body mark (text.flatMap image) = (body quote text).rewrite image := by
  have escape : isPlain '\\' = true := by decide
  have point : isPlain 'u' = true := by decide
  have unescaped := mark_ne_backslash rewriting quoting becomes
  have plainEscape : ['\\'].flatMap image = ['\\'] := rewriting.cons_plain escape []
  fun_induction body quote text with
  | case1 =>
      rw [List.flatMap_nil, body]
      rfl
  | case2 text escaped code faulty =>
      have scanned := escape_rewrite rewriting text
      have also : (Scan.escape (text.flatMap image)).fault = some code := by
        rw [scanned]
        exact faulty
      rw [rewriting.cons_plain escape, rewriting.cons_plain point, body_broken mark also, scanned,
        ← broken_rewrite rewriting quoting becomes, rewriting.cons_plain escape,
        rewriting.cons_plain point]
      rfl
  | case3 text escaped sound ih =>
      have scanned := escape_rewrite rewriting text
      have also : (Scan.escape (text.flatMap image)).fault = none := by
        rw [scanned]
        exact sound
      rw [rewriting.cons_plain escape, rewriting.cons_plain point, body_escape mark _ also, scanned,
        Body.rewrite_prepend, ← ih, rewriting.cons_plain escape, rewriting.cons_plain point]
      rfl
  | case4 c text other member ih =>
      obtain ⟨d, ds, parts, letter, same, raw⟩ := escaped_rewrite rewriting quoting becomes c
      rw [rewriting.cons_plain escape, List.flatMap_cons, parts, List.cons_append,
        body_escaped mark (letter other) (same.trans member), body_raws raw, ih,
        Body.prepend_prepend, Body.rewrite_prepend, rewriting.cons_plain escape,
        List.flatMap_singleton, parts]
      rfl
  | case5 c text other outside =>
      obtain ⟨d, single, ends⟩ := ends_rewrite rewriting quoting becomes outside
      rw [rewriting.cons_plain escape, List.flatMap_cons, single, List.singleton_append,
        body_escaped_ends ends]
      simp only [Body.rewrite, Body.unterminated, plainEscape, List.flatMap_cons, single,
        List.singleton_append, List.flatMap_nil]
  | case6 text _ _ =>
      rw [List.flatMap_cons, becomes, List.singleton_append, body_close unescaped]
      simp only [Body.rewrite, List.flatMap_singleton, becomes, List.flatMap_nil]
  | case7 c text _ lone unquoted member ih =>
      by_cases escaping : c = '\\'
      · subst escaping
        cases text with
        | cons d text => exact absurd rfl (lone d text rfl)
        | nil =>
            rw [plainEscape, body_lone unescaped, body]
            simp only [Body.rewrite, Body.unterminated, Body.prepend, plainEscape, List.append_nil,
              List.flatMap_nil]
      · have raw := raw_rewrite rewriting quoting becomes ⟨escaping, unquoted, member⟩
        rw [List.flatMap_cons, body_raws raw, ih, Body.rewrite_prepend, List.flatMap_singleton]
  | case8 c text _ lone unquoted outside =>
      obtain ⟨d, single, ends⟩ := ends_rewrite rewriting quoting becomes outside
      rw [List.flatMap_cons, single, List.singleton_append, body_ends ends]
      simp only [Body.rewrite, Body.unterminated, List.flatMap_cons, single, List.singleton_append,
        List.flatMap_nil]

theorem quoted_rewrite (text : List Char) :
    quoted mark (text.flatMap image) = (quoted quote text).rewrite image := by
  have scanned := body_rewrite rewriting quoting becomes text
  have opened : ∀ seen : List Char, (quote :: seen).flatMap image = mark :: seen.flatMap image := by
    intro seen
    rw [List.flatMap_cons, becomes]
    rfl
  unfold quoted
  simp only [scanned, Body.rewrite]
  cases (body quote text).fault with
  | none => simp only [rewrite_accept, Token.mapLexeme_ofText, opened]
  | some code => simp only [rewrite_reject, opened]

end Quote
end Rewriting
end ScriptLexer.Scan
