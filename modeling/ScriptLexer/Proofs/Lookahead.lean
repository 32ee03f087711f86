import Mathlib
import ScriptLexer.Proofs.Context
import ScriptLexer.Proofs.Pull

/-! How far a lexer looks ahead. A pull that leaves two characters does not depend on what comes
after the text: more text at its end reaches only the tokens that end within one character of it. -/

namespace ScriptLexer

section Run

variable {holds : Char → Bool} {text : List Char}

theorem Stops.append (stops : Stops holds text) (present : text ≠ []) (more : List Char) :
    Stops holds (text ++ more) := by
  intro c first
  rw [List.head?_append_of_ne_nil text present] at first
  exact stops c first

theorem takeWhile_append_left (left : text.dropWhile holds ≠ []) (more : List Char) :
    (text ++ more).takeWhile holds = text.takeWhile holds ∧
      (text ++ more).dropWhile holds = text.dropWhile holds ++ more := by
  have stops := (stops_dropWhile holds text).append left more
  have again := takeWhile_run (fun _ => List.mem_takeWhile_imp (l := text)) stops
  rwa [← List.append_assoc, List.takeWhile_append_dropWhile] at again

end Run

theorem showsOnly_of_unread {rest : List Char} (unread : 2 ≤ rest.length) (more : List Char) :
    ShowsOnly (rest ++ more) rest := by
  intro ahead short _ follows
  exact List.prefix_of_prefix_length_le follows (List.prefix_append rest more) (by omega)

namespace Scan

section Literal

variable {text : List Char}

theorem escape_other {d : Char} {tail : List Char} (parts : text.dropWhile isHexDigit = d :: tail)
    (unended : d ≠ '\x7d') (single : d ≠ '\x7b') :
    escape ('\x7b' :: text) = ⟨some .unterminatedUnicodeEscapeSequence,
      '\x7b' :: text.takeWhile isHexDigit, d :: tail⟩ := by
  rw [escape_unended (by simp [parts, unended]) (by simp [parts, single]), parts]

theorem escape_append (left : (escape text).rest ≠ []) (more : List Char) :
    escape (text ++ more) = { escape text with rest := (escape text).rest ++ more } := by
  by_cases opened : ∃ tail, text = '\x7b' :: tail
  · obtain ⟨text, rfl⟩ := opened
    have present : text.dropWhile isHexDigit ≠ [] := by
      intro nothing
      rw [escape_unended (by simp [nothing]) (by simp [nothing])] at left
      exact left nothing
    obtain ⟨run, behind⟩ := takeWhile_append_left present more
    obtain ⟨d, tail, parts⟩ := List.exists_cons_of_ne_nil present
    rw [parts, List.cons_append] at behind
    rw [List.cons_append]
    by_cases ended : d = '\x7d'
    · subst ended
      rw [escape_ended parts, escape_ended behind, run]
      split
      · rfl
      · split <;> rfl
    · by_cases reopened : d = '\x7b'
      · subst reopened
        rw [escape_reopened parts, escape_reopened behind, run]
        rfl
      · rw [escape_other parts ended reopened, escape_other behind ended reopened, run]
        rfl
  · have closed := not_exists.mp opened
    rw [escape_unopened closed] at left ⊢
    obtain ⟨d, tail, rfl⟩ := List.exists_cons_of_ne_nil left
    apply escape_unopened
    intro rest same
    obtain ⟨rfl, _⟩ := List.cons.inj same
    exact closed tail rfl

theorem unescaped_of_left {c : Char} (lone : ∀ d tail, c = '\\' → text = d :: tail → False)
    (left : text ≠ []) : c ≠ '\\' := by
  obtain ⟨d, tail, parts⟩ := List.exists_cons_of_ne_nil left
  intro escape
  exact lone d tail escape parts

theorem literalTail_append {quote : Char} (left : text.drop (literalTail quote text).length ≠ [])
    (more : List Char) : literalTail quote (text ++ more) = literalTail quote text := by
  fun_induction literalTail quote text with
  | case1 => exact absurd rfl left
  | case2 c text ih =>
      rw [List.cons_append, List.cons_append, literalTail, ih left]
  | case3 text lone => exact literalTail_close (unescaped_of_left lone left) (text ++ more)
  | case4 c text lone unquoted member ih =>
      have present : text ≠ [] := by
        rintro rfl
        exact left List.drop_nil
      have raw : ∀ d ∈ [c], Raw quote d := by
        simpa using Raw.mk (unescaped_of_left lone present) unquoted member
      have again := literalTail_raws raw (text ++ more)
      rw [ih left] at again
      exact again
  | case5 c text lone unquoted outside =>
      have unescaped : c ≠ '\\' := by
        rintro rfl
        exact outside (by decide)
      exact literalTail_ends ⟨unescaped, unquoted, outside⟩ (text ++ more)

theorem broken_append {quote : Char} {code : ErrorCode} {seen : List Char}
    (left : (Body.broken quote code seen text).rest ≠ []) (more : List Char) :
    Body.broken quote code seen (text ++ more) =
      { Body.broken quote code seen text with
        rest := (Body.broken quote code seen text).rest ++ more } := by
  have tail := literalTail_append left more
  have within : (literalTail quote text).length ≤ text.length := by
    have covers := congrArg List.length (literalTail_covers quote text)
    rw [List.length_append] at covers
    omega
  unfold Body.broken
  rw [tail, List.drop_append_of_le_length within]

theorem body_append {quote : Char} (left : (body quote text).rest ≠ []) (more : List Char) :
    body quote (text ++ more) =
      { body quote text with rest := (body quote text).rest ++ more } := by
  fun_induction body quote text with
  | case1 => exact absurd rfl left
  | case2 text escaped code faulty =>
      have present : escaped.rest ≠ [] := by
        intro nothing
        rw [nothing] at left
        exact left List.drop_nil
      have again := escape_append present more
      have still : (escape (text ++ more)).fault = some code := by
        rw [again]
        exact faulty
      have broken := body_broken quote still
      rw [again, broken_append left more] at broken
      exact broken
  | case3 text escaped valid ih =>
      have present : escaped.rest ≠ [] := by
        intro nothing
        rw [nothing, body] at left
        exact left rfl
      have again := escape_append present more
      have still : (escape (text ++ more)).fault = none := by
        rw [again]
        exact valid
      have step := body_escape quote _ still
      rw [again, ih left] at step
      exact step
  | case4 c text other member ih =>
      rw [List.cons_append, List.cons_append, body_escaped quote other member, ih left]
      rfl
  | case5 c text other outside =>
      have step := body.eq_3 quote c (text ++ more) other
      rw [if_neg outside] at step
      exact step
  | case6 text _ lone => exact body_close (unescaped_of_left lone left) (text ++ more)
  | case7 c text _ lone unquoted member ih =>
      have present : text ≠ [] := by
        rintro rfl
        rw [body] at left
        exact left rfl
      have raw : Raw quote c := ⟨unescaped_of_left lone present, unquoted, member⟩
      rw [List.cons_append, body_raw raw, ih left]
      rfl
  | case8 c text _ lone unquoted outside =>
      have unescaped : c ≠ '\\' := by
        rintro rfl
        exact outside (by decide)
      exact body_ends ⟨unescaped, unquoted, outside⟩ (text ++ more)

theorem quoted_append {quote : Char} (left : (quoted quote text).rest ≠ []) (more : List Char) :
    quoted quote (text ++ more) =
      (quoted quote text).onto ((quoted quote text).rest ++ more) := by
  have behind : (quoted quote text).rest = (body quote text).rest := by
    unfold quoted
    simp only
    split <;> rfl
  rw [behind] at left ⊢
  have again := body_append left more
  unfold quoted
  simp only [again]
  split <;> rfl

end Literal

theorem leading_settled {c : Char} {text : List Char} (unquoted : ¬isQuote c = true)
    (left : (leading c text).rest ≠ []) : (leading c text).Settled := by
  intro code faulty
  cases leading_malformed (Verdict.fault?_eq_some_iff.mp faulty) with
  | number settled => exact settled
  | comment _ scanned =>
      rw [scanned] at left
      exact absurd rfl left
  | literal _ opens => exact absurd opens unquoted
  | unexpected same =>
      rw [same]
      decide

theorem leading_append {c : Char} {text : List Char} (unread : 2 ≤ (leading c text).rest.length)
    (more : List Char) :
    leading c (text ++ more) = (leading c text).onto ((leading c text).rest ++ more) := by
  have left : (leading c text).rest ≠ [] := by
    intro nothing
    rw [nothing] at unread
    cases unread
  by_cases quoting : isQuote c = true
  · rw [leading_of_isQuote quoting] at left
    rw [leading_of_isQuote quoting, leading_of_isQuote quoting, quoted_append left]
  · obtain ⟨tail, taken, parts⟩ := leading_taken c text
    have again :=
      leading_onto (leading_settled quoting left) (showsOnly_of_unread unread more) taken
    rwa [← List.append_assoc, parts] at again

end Scan

namespace Cursor

def followedBy (more : List Char) (cursor : Cursor) : Cursor :=
  { cursor with buffer := cursor.buffer ++ more, rest := cursor.rest ++ more }

theorem advance_followedBy {cursor : Cursor} (unread : 2 ≤ cursor.rest.length) (more : List Char) :
    (cursor.followedBy more).advance = cursor.advance.followedBy more := by
  obtain ⟨buffer, rest, offset, line⟩ := cursor
  match rest, unread with
  | c :: d :: rest, _ => rfl

theorem advanceBy_followedBy {cursor : Cursor} {count : Nat} (within : count < cursor.rest.length)
    (more : List Char) :
    (cursor.followedBy more).advanceBy count = (cursor.advanceBy count).followedBy more := by
  induction count generalizing cursor with
  | zero => rfl
  | succ count ih =>
      have several : cursor.rest ≠ [] := List.ne_nil_of_length_pos (by omega)
      have unended : cursor.atEnd = false := by simpa [atEnd] using several
      have still : (cursor.followedBy more).atEnd = false := by
        simp [atEnd, followedBy, several]
      have shorter : count < cursor.advance.rest.length := by
        rw [advance_rest, List.length_tail]
        omega
      simp only [advanceBy, unended, still, Bool.false_eq_true, if_false]
      rw [advance_followedBy (by omega), ih shorter]

end Cursor

def Lexer.followedBy (more : List Char) (lexer : Lexer) : Lexer :=
  { lexer with cursor := lexer.cursor.followedBy more }

def Pull.followedBy (more : List Char) (pull : Pull) : Pull :=
  { pull with lexer := pull.lexer.followedBy more }

namespace Lexer

theorem skipWhitespace_followedBy {lexer : Lexer}
    (left : lexer.cursor.rest.dropWhile isWhitespace ≠ []) (more : List Char) :
    (lexer.followedBy more).skipWhitespace = lexer.skipWhitespace.followedBy more := by
  have run : (lexer.cursor.followedBy more).rest.takeWhile isWhitespace =
      lexer.cursor.rest.takeWhile isWhitespace := (takeWhile_append_left left more).1
  have within : (lexer.cursor.rest.takeWhile isWhitespace).length < lexer.cursor.rest.length := by
    have positive := List.length_pos_iff.mpr left
    rw [← drop_length_takeWhile isWhitespace lexer.cursor.rest, List.length_drop] at positive
    omega
  have moved := Cursor.advanceBy_followedBy within more
  simp only [skipWhitespace, Cursor.advanceWhile, followedBy, run, moved]

theorem consume_followedBy {lexer : Lexer} {scan : Scan} (covers : scan.Covers lexer.cursor.rest)
    (left : scan.rest ≠ []) (more : List Char) :
    (lexer.followedBy more).consume (scan.onto (scan.rest ++ more)) =
      (lexer.consume scan).followedBy more := by
  have positive := List.length_pos_iff.mpr left
  have counted := congrArg List.length covers
  rw [List.length_append, List.length_append] at counted
  have reaches : scan.seen.length < lexer.cursor.rest.length := by omega
  have skips : scan.skipped.length < (lexer.cursor.advanceBy scan.seen.length).rest.length := by
    rw [Cursor.advanceBy_rest, List.length_drop]
    omega
  have seen := Cursor.advanceBy_followedBy reaches more
  have skipped := Cursor.advanceBy_followedBy skips more
  unfold consume Scan.onto
  simp only [Lexer.followedBy, seen, skipped]
  cases scan.verdict <;> rfl

theorem next_followedBy {lexer : Lexer} (unread : 2 ≤ lexer.next.lexer.cursor.rest.length)
    (more : List Char) : (lexer.followedBy more).next = lexer.next.followedBy more := by
  cases visible : lexer.cursor.rest.dropWhile isWhitespace with
  | nil =>
      rw [next_of_blank visible, skipWhitespace_rest, visible] at unread
      cases unread
  | cons c text =>
      have left : lexer.cursor.rest.dropWhile isWhitespace ≠ [] := by simp [visible]
      have also : (lexer.followedBy more).cursor.rest.dropWhile isWhitespace =
          c :: (text ++ more) := by
        rw [← List.cons_append, ← visible]
        exact (takeWhile_append_left left more).2
      rw [next_rest visible] at unread
      have present : (Scan.leading c text).rest ≠ [] := List.ne_nil_of_length_pos (by omega)
      rw [next_of_visible visible, next_of_visible also,
        skipWhitespace_followedBy left, Scan.leading_append unread,
        consume_followedBy (skipWhitespace_covers visible) present]

theorem next_rest_length_le (lexer : Lexer) :
    lexer.next.lexer.cursor.rest.length ≤ lexer.cursor.rest.length := by
  by_cases found : lexer.next.token?.isSome = true
  · exact Nat.le_of_lt (next_rest_length_lt lexer found)
  · have blank := blank_of_end found
    rw [next_of_blank blank, skipWhitespace_rest, blank]
    exact Nat.zero_le _

theorem pull_rest_length_le (count : Nat) (lexer : Lexer) :
    (lexer.pull count).2.cursor.rest.length ≤ lexer.cursor.rest.length := by
  induction count generalizing lexer with
  | zero => exact Nat.le_refl _
  | succ count ih =>
      simp only [pull]
      split
      · exact Nat.le_trans (ih _) (next_rest_length_le lexer)
      · exact next_rest_length_le lexer

theorem pull_followedBy (count : Nat) (lexer : Lexer)
    (unread : 2 ≤ (lexer.pull count).2.cursor.rest.length) (more : List Char) :
    (lexer.pull count).1.length = count ∧
      (lexer.followedBy more).pull count =
        ((lexer.pull count).1.map (Pull.followedBy more),
          (lexer.pull count).2.followedBy more) := by
  -- The induction is on the pulls: each of them leaves at least what the last one does.
  induction count generalizing lexer with
  | zero => exact ⟨rfl, rfl⟩
  | succ count ih =>
      by_cases found : lexer.next.token?.isSome = true
      · rw [pull_of_found found] at unread ⊢
        have first := next_followedBy
          (Nat.le_trans unread (pull_rest_length_le count lexer.next.lexer)) more
        have still : (lexer.followedBy more).next.token?.isSome = true := by
          rw [first]
          exact found
        obtain ⟨all, others⟩ := ih lexer.next.lexer unread
        refine ⟨congrArg (· + 1) all, ?_⟩
        rw [pull_of_found still, first]
        simp only [Pull.followedBy, others, List.map_cons]
      · -- A pull that meets the end leaves nothing.
        rw [pull_of_end found, next_of_blank (blank_of_end found), skipWhitespace_rest,
          blank_of_end found] at unread
        cases unread

/-- As long as two characters are left, more text behind them changes nothing: the pulls give the
same tokens and reports, and leave lexers at the same place with the same errors. -/
theorem pull_append (text more : List Char) (source : String) (count : Nat)
    (unread : 2 ≤ ((Lexer.ofText text source).pull count).2.cursor.rest.length) :
    let pulled := (Lexer.ofText text source).pull count
    pulled.1.length = count ∧
      (Lexer.ofText (text ++ more) source).pull count =
        (pulled.1.map (Pull.followedBy more), pulled.2.followedBy more) :=
  pull_followedBy count (Lexer.ofText text source) unread more

/-- An unterminated literal and a shift in front of two points, which a third makes one token. -/
theorem pull_append_points :
    let text := ['\'', '\u2028', '>', '>', '.', '.']
    let pulled := (Lexer.ofText text "s").pull 2
    2 ≤ pulled.2.cursor.rest.length ∧
      (Lexer.ofText (text ++ ['.']) "s").pull 2 =
        (pulled.1.map (Pull.followedBy ['.']), pulled.2.followedBy ['.']) := by
  intro text pulled
  have unread : 2 ≤ pulled.2.cursor.rest.length := by
    unfold pulled text
    cbv
  exact ⟨unread, (pull_append text ['.'] "s" 2 unread).2⟩

/-- One character is not enough: the table has a point and three points, but not two. -/
example : ((Lexer.ofText ['.', '.'] "s").pull 1).1.map Pull.token = [Token.ofText .dot ['.']] ∧
    ((Lexer.ofText ['.', '.', '.'] "s").pull 1).1.map Pull.token =
      [Token.ofText .spread ['.', '.', '.']] := by
  cbv

end Lexer
end ScriptLexer
