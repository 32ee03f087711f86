import ScriptLexer.Proofs.Pull

/-! Where comments end. One that two slashes open is the longest beginning of the text within its
line. One that a slash and a star open is the shortest beginning that ends in a star and a slash of
its own, whatever it holds in between; where there is none, all of the text is malformed. -/

namespace ScriptLexer
namespace Scan

structure EndsInside (text inside : List Char) : Prop where
  leads : inside <+: text
  ending : ['*', '/'] <:+ inside

/-- A beginning of `text` that closes a comment: the star and the slash at its end are not those at
its start. -/
structure Closes (text comment : List Char) : Prop extends EndsInside text comment where
  apart : 4 ≤ comment.length

structure ShortestClosing (text comment : List Char) : Prop extends Closes text comment where
  shortest : ∀ other, Closes text other → comment.length ≤ other.length

theorem endsInside_cons {c : Char} {text inside : List Char}
    (plain : ∀ tail, c = '*' → text = '/' :: tail → False) :
    EndsInside (c :: text) inside ↔ ∃ tail, inside = c :: tail ∧ EndsInside text tail := by
  constructor
  · rintro ⟨leads, ending⟩
    have present : inside ≠ [] := by
      rintro rfl
      exact absurd (List.suffix_nil.mp ending) (by decide)
    obtain ⟨d, tail, rfl⟩ := List.exists_cons_of_ne_nil present
    obtain ⟨rfl, within⟩ := List.cons_prefix_cons.mp leads
    refine ⟨tail, rfl, within, ?_⟩
    rcases List.suffix_cons_iff.mp ending with whole | later
    · obtain ⟨rfl, rfl⟩ := List.cons.inj whole
      obtain ⟨more, rfl⟩ := within
      exact absurd rfl (plain more rfl)
    · exact later
  · rintro ⟨tail, rfl, leads, ending⟩
    exact ⟨(List.prefix_cons_inj c).mpr leads, ending.trans (List.suffix_cons c tail)⟩

theorem upToClose?_eq_some {text inside : List Char} (found : upToClose? text = some inside) :
    EndsInside text inside ∧ ∀ other, EndsInside text other → inside.length ≤ other.length := by
  fun_induction upToClose? text generalizing inside with
  | case1 text =>
      obtain rfl := Option.some.inj found
      exact ⟨⟨⟨text, rfl⟩, List.suffix_refl _⟩, fun other ends => ends.ending.length_le⟩
  | case2 => cases found
  | case3 c text plain ih =>
      obtain ⟨tail, closed, rfl⟩ := Option.map_eq_some_iff.mp found
      obtain ⟨ends, first⟩ := ih closed
      refine ⟨(endsInside_cons plain).mpr ⟨tail, rfl, ends⟩, fun other also => ?_⟩
      obtain ⟨rest, rfl, behind⟩ := (endsInside_cons plain).mp also
      exact Nat.succ_le_succ (first rest behind)

theorem upToClose?_eq_none {text : List Char} (missing : upToClose? text = none)
    (inside : List Char) : ¬EndsInside text inside := by
  fun_induction upToClose? text generalizing inside with
  | case1 => cases missing
  | case2 =>
      rintro ⟨leads, ending⟩
      obtain rfl := List.prefix_nil.mp leads
      exact absurd (List.suffix_nil.mp ending) (by decide)
  | case3 c text plain ih =>
      intro ends
      obtain ⟨tail, _, behind⟩ := (endsInside_cons plain).mp ends
      exact ih (Option.map_eq_none_iff.mp missing) tail behind

theorem closes_iff {text comment : List Char} :
    Closes ('/' :: '*' :: text) comment ↔
      ∃ inside, comment = '/' :: '*' :: inside ∧ EndsInside text inside := by
  constructor
  · rintro ⟨⟨leads, ending⟩, apart⟩
    match comment, apart with
    | c :: d :: inside, apart =>
      obtain ⟨rfl, behind⟩ := List.cons_prefix_cons.mp leads
      obtain ⟨rfl, within⟩ := List.cons_prefix_cons.mp behind
      refine ⟨inside, rfl, within, ?_⟩
      apply List.suffix_of_suffix_length_le ending (List.suffix_append ['/', '*'] inside)
      simp only [List.length_cons, List.length_nil] at apart ⊢
      omega
  · rintro ⟨inside, rfl, leads, ending⟩
    have long := ending.length_le
    refine ⟨⟨?_, ending.trans (List.suffix_append ['/', '*'] inside)⟩, ?_⟩
    · exact (List.prefix_append_right_inj ['/', '*']).mpr leads
    · simp only [List.length_cons, List.length_nil] at long ⊢
      omega

theorem shortestClosing_of_found {text inside : List Char} (found : upToClose? text = some inside) :
    ShortestClosing ('/' :: '*' :: text) ('/' :: '*' :: inside) := by
  obtain ⟨ends, first⟩ := upToClose?_eq_some found
  refine ⟨closes_iff.mpr ⟨inside, rfl, ends⟩, fun other also => ?_⟩
  obtain ⟨rest, rfl, behind⟩ := closes_iff.mp also
  exact Nat.add_le_add_right (first rest behind) 2

theorem ShortestClosing.unique {text first second : List Char} (one : ShortestClosing text first)
    (other : ShortestClosing text second) : first = second := by
  have same : first.length = second.length :=
    Nat.le_antisymm (one.shortest second other.toCloses) (other.shortest first one.toCloses)
  rw [List.prefix_iff_eq_take.mp one.leads, List.prefix_iff_eq_take.mp other.leads, same]

theorem upToClose?_eq_none_iff {text : List Char} :
    upToClose? text = none ↔ ¬∃ comment, Closes ('/' :: '*' :: text) comment := by
  cases found : upToClose? text with
  | none =>
      refine iff_of_true rfl ?_
      rintro ⟨comment, closes⟩
      obtain ⟨inside, _, ends⟩ := closes_iff.mp closes
      exact upToClose?_eq_none found inside ends
  | some inside =>
      refine iff_of_false (by simp) fun open_ => ?_
      exact open_ ⟨_, (shortestClosing_of_found found).toCloses⟩

theorem shortestClosing_of_body {body rest : List Char} (open_ : ¬['*', '/'] <:+: body ++ ['*']) :
    ShortestClosing ('/' :: '*' :: (body ++ '*' :: '/' :: rest))
      ('/' :: '*' :: (body ++ ['*', '/'])) := by
  have ends : EndsInside (body ++ '*' :: '/' :: rest) (body ++ ['*', '/']) :=
    ⟨⟨rest, by simp⟩, List.suffix_append body _⟩
  refine ⟨closes_iff.mpr ⟨_, rfl, ends⟩, fun other also => ?_⟩
  obtain ⟨inside, rfl, behind⟩ := closes_iff.mp also
  apply Nat.add_le_add_right (m := inside.length) _ 2
  by_contra shorter
  apply open_
  have within : inside <+: body ++ ['*'] := by
    apply List.prefix_of_prefix_length_le behind.leads ⟨'/' :: rest, by simp⟩
    simp only [List.length_append, List.length_cons, List.length_nil] at shorter ⊢
    omega
  exact behind.ending.isInfix.trans within.isInfix

theorem leading_lineComment (body : List Char) :
    leading '/' ('/' :: body) = lineComment body := rfl

theorem leading_blockComment (body : List Char) :
    leading '/' ('*' :: body) = blockComment body := rfl

theorem longestRun_lineComment (body : List Char) :
    LongestRun (fun c => !isLineTerminator c) ('/' :: '/' :: body)
      ('/' :: '/' :: body.takeWhile fun c => !isLineTerminator c) :=
  longestRun_takeWhile (fun c => !isLineTerminator c) ('/' :: '/' :: body)

end Scan

namespace Lexer

variable {lexer : Lexer} {body : List Char}

theorem next_lineComment
    (visible : lexer.cursor.rest.dropWhile isWhitespace = '/' :: '/' :: body) :
    ∃ comment, LongestRun (fun c => !isLineTerminator c) ('/' :: '/' :: body) comment ∧
      lexer.next.Takes (Token.ofText .singleLineComment comment) comment ('/' :: '/' :: body) ∧
      ∀ c, lexer.next.lexer.cursor.rest.head? = some c → isLineTerminator c = true := by
  refine ⟨_, Scan.longestRun_lineComment body,
    next_takes visible (Scan.leading_lineComment body), fun c first => ?_⟩
  rw [next_rest visible, Scan.leading_lineComment] at first
  simpa using stops_dropWhile (fun c => !isLineTerminator c) body c first

section Block

variable (visible : lexer.cursor.rest.dropWhile isWhitespace = '/' :: '*' :: body)
include visible

theorem next_blockComment {inside : List Char} (found : Scan.upToClose? body = some inside) :
    lexer.next.Takes (Token.ofText .multiLineComment ('/' :: '*' :: inside)) ('/' :: '*' :: inside)
      ('/' :: '*' :: body) := by
  have scanned := Scan.leading_blockComment body
  rw [Scan.blockComment, found] at scanned
  exact next_takes visible scanned

theorem next_unclosed (missing : Scan.upToClose? body = none) :
    lexer.next.token? = some .invalid ∧ lexer.next.lexer.cursor.rest = [] ∧
      ∃ report, lexer.next.report? = some report ∧ report.code = .unterminatedComment := by
  have scanned : Scan.leading '/' ('*' :: body) =
      .reject .unterminatedComment ('/' :: '*' :: body) [] [] := by
    rw [Scan.leading_blockComment, Scan.blockComment, missing]
  obtain ⟨token, report⟩ := next_of_fault visible (by rw [scanned]; rfl)
  refine ⟨token, ?_, report⟩
  rw [next_rest visible, scanned]
  rfl

end Block

/-- A comment within its line is the longest there is, and leaves the end of the line. Any other is
the shortest that is closed, and if there is none, nothing of the text is left. -/
theorem next_comment_extent {lexer : Lexer} {text : List Char}
    (visible : lexer.cursor.rest.dropWhile isWhitespace = text) :
    (['/', '/'] <+: text →
      ∃ comment, LongestRun (fun c => !isLineTerminator c) text comment ∧
        lexer.next.Takes (Token.ofText .singleLineComment comment) comment text ∧
        ∀ c, lexer.next.lexer.cursor.rest.head? = some c → isLineTerminator c = true) ∧
    (['/', '*'] <+: text →
      (∀ comment, Scan.ShortestClosing text comment →
        lexer.next.Takes (Token.ofText .multiLineComment comment) comment text) ∧
      ((∃ comment, Scan.Closes text comment) → ∃ comment, Scan.ShortestClosing text comment) ∧
      ((¬∃ comment, Scan.Closes text comment) →
        lexer.next.token? = some .invalid ∧ lexer.next.lexer.cursor.rest = [] ∧
          ∃ report, lexer.next.report? = some report ∧ report.code = .unterminatedComment) ∧
      ∀ inside rest, text = '/' :: '*' :: (inside ++ '*' :: '/' :: rest) →
        ¬['*', '/'] <:+: inside ++ ['*'] →
        Scan.ShortestClosing text ('/' :: '*' :: (inside ++ ['*', '/']))) := by
  refine ⟨?_, ?_⟩
  · rintro ⟨body, rfl⟩
    exact next_lineComment visible
  · rintro ⟨body, rfl⟩
    change lexer.cursor.rest.dropWhile isWhitespace = '/' :: '*' :: body at visible
    have closed : (∃ comment, Scan.Closes ('/' :: '*' :: body) comment) →
        ∃ inside, Scan.upToClose? body = some inside := by
      intro closed
      exact Option.ne_none_iff_exists'.mp fun missing =>
        Scan.upToClose?_eq_none_iff.mp missing closed
    refine ⟨fun comment closing => ?_, fun closes => ?_, fun unclosed => ?_, ?_⟩
    · obtain ⟨inside, found⟩ := closed ⟨comment, closing.toCloses⟩
      rw [closing.unique (Scan.shortestClosing_of_found found)]
      exact next_blockComment visible found
    · obtain ⟨inside, found⟩ := closed closes
      exact ⟨_, Scan.shortestClosing_of_found found⟩
    · exact next_unclosed visible (Scan.upToClose?_eq_none_iff.mpr unclosed)
    · intro inside rest parts unended
      rw [parts]
      exact Scan.shortestClosing_of_body unended

/-- A comment that is opened again, with a run of stars at its end; the same without its last slash,
of which the star and the slash in front are not an end; and a line that a separator ends. -/
theorem next_comment_extent_stars :
    let inside := ['/', '*', '*']
    let block := '/' :: '*' :: (inside ++ ['*', '/', '*', '/'])
    let unclosed := ['/', '*', '/', '*']
    let line := ['/', '/', '*', '\u2028', 'x']
    let first := Lexer.ofText (' ' :: block) "s"
    let second := Lexer.ofText unclosed "s"
    let third := Lexer.ofText line "s"
    first.cursor.rest.dropWhile isWhitespace = block ∧ ['/', '*'] <+: block ∧
      Scan.ShortestClosing block ['/', '*', '/', '*', '*', '*', '/'] ∧
      first.next.token? = some (Token.ofText .multiLineComment ['/', '*', '/', '*', '*', '*', '/']) ∧
      second.cursor.rest.dropWhile isWhitespace = unclosed ∧ ['/', '*'] <+: unclosed ∧
      ¬(∃ comment, Scan.Closes unclosed comment) ∧ second.next.token? = some .invalid ∧
      third.cursor.rest.dropWhile isWhitespace = line ∧ ['/', '/'] <+: line ∧
      ∃ comment, LongestRun (fun c => !isLineTerminator c) line comment ∧
        third.next.Takes (Token.ofText .singleLineComment comment) comment line := by
  intro inside block unclosed line first second third
  have one : first.cursor.rest.dropWhile isWhitespace = block := by decide
  have two : second.cursor.rest.dropWhile isWhitespace = unclosed := by decide
  have three : third.cursor.rest.dropWhile isWhitespace = line := by decide
  have opens : ['/', '*'] <+: block := by decide
  have opensToo : ['/', '*'] <+: unclosed := by decide
  have slashes : ['/', '/'] <+: line := by decide
  have unended : ¬['*', '/'] <:+: inside ++ ['*'] := by decide
  have unclosable : ¬∃ comment, Scan.Closes unclosed comment :=
    Scan.upToClose?_eq_none_iff.mp (by decide)
  obtain ⟨taken, _, _, nested⟩ := (next_comment_extent one).2 opens
  obtain ⟨_, _, malformed, _⟩ := (next_comment_extent two).2 opensToo
  obtain ⟨comment, longest, takes, _⟩ := (next_comment_extent three).1 slashes
  have shortest := nested inside ['*', '/'] rfl unended
  exact ⟨one, opens, shortest, (taken _ shortest).token, two, opensToo, unclosable,
    (malformed unclosable).1, three, slashes, comment, longest, takes⟩

end Lexer
end ScriptLexer
