import ScriptLexer.Proofs.Stream

/-! Tokens gathered through a filter. The filter stands between the pulls and what is gathered, and
goes on pulling past a token that it does not let through, so that gathering drains the lexer as far,
and by the same pulls, as if there were no filter. -/

namespace ScriptLexer

/-- What seeking a token that is kept comes to: the pulls it took, the token unless the end came
first, and the lexer after it. -/
structure Sought where
  pulls : List Pull
  token? : Option Token
  lexer : Lexer

structure Gathered where
  tokens : List Token
  pulls : List Pull
  lexer : Lexer

namespace Lexer

def seek (keeps : Token → Bool) (lexer : Lexer) : Sought :=
  let pull := lexer.next
  if _found : pull.token?.isSome then
    if keeps pull.token then ⟨[pull], some pull.token, pull.lexer⟩
    else
      let later := pull.lexer.seek keeps
      { later with pulls := pull :: later.pulls }
  else ⟨[], none, pull.lexer⟩
  termination_by lexer.cursor.rest.length
  decreasing_by exact next_rest_length_lt lexer _found

theorem seek_rest_length_lt (keeps : Token → Bool) (lexer : Lexer)
    (found : (lexer.seek keeps).token?.isSome = true) :
    (lexer.seek keeps).lexer.cursor.rest.length < lexer.cursor.rest.length := by
  fun_induction seek keeps lexer with
  | case1 lexer pull given kept => exact next_rest_length_lt lexer given
  | case2 lexer pull given dropped later ih =>
      exact Nat.lt_trans (ih found) (next_rest_length_lt lexer given)
  | case3 lexer pull finished => cases found

def gather (keeps : Token → Bool) (lexer : Lexer) : Gathered :=
  let sought := lexer.seek keeps
  if _found : sought.token?.isSome then
    let later := sought.lexer.gather keeps
    ⟨sought.token?.toList ++ later.tokens, sought.pulls ++ later.pulls, later.lexer⟩
  else ⟨[], sought.pulls, sought.lexer⟩
  termination_by lexer.cursor.rest.length
  decreasing_by exact seek_rest_length_lt keeps lexer _found

section Steps

variable {keeps : Token → Bool} {lexer : Lexer}

theorem gather_of_end (finished : ¬lexer.next.token?.isSome = true) :
    lexer.gather keeps = ⟨[], [], lexer.next.lexer⟩ := by
  have sought : lexer.seek keeps = ⟨[], none, lexer.next.lexer⟩ := by
    rw [seek]
    exact dif_neg finished
  rw [gather, sought]
  rfl

section Found

variable (found : lexer.next.token?.isSome = true)
include found

theorem gather_of_kept (kept : keeps lexer.next.token = true) :
    lexer.gather keeps =
      ⟨lexer.next.token :: (lexer.next.lexer.gather keeps).tokens,
        lexer.next :: (lexer.next.lexer.gather keeps).pulls,
        (lexer.next.lexer.gather keeps).lexer⟩ := by
  have sought : lexer.seek keeps = ⟨[lexer.next], some lexer.next.token, lexer.next.lexer⟩ := by
    rw [seek]
    exact (dif_pos found).trans (if_pos kept)
  rw [gather, sought]
  rfl

theorem gather_of_dropped (dropped : ¬keeps lexer.next.token = true) :
    lexer.gather keeps =
      { lexer.next.lexer.gather keeps with
        pulls := lexer.next :: (lexer.next.lexer.gather keeps).pulls } := by
  have sought : lexer.seek keeps =
      { lexer.next.lexer.seek keeps with
        pulls := lexer.next :: (lexer.next.lexer.seek keeps).pulls } := by
    rw [seek]
    exact (dif_pos found).trans (if_neg dropped)
  rw [gather, sought, gather.eq_1 keeps lexer.next.lexer]
  by_cases further : (lexer.next.lexer.seek keeps).token?.isSome = true
  · simp only [further, dite_true, List.cons_append]
  · simp only [further, Bool.false_eq_true, dite_false]

end Found

end Steps

theorem gather_eq (keeps : Token → Bool) (lexer : Lexer) :
    lexer.gather keeps = ⟨lexer.tokens.filter keeps, lexer.drain.1, lexer.drain.2⟩ := by
  -- The induction is along the drain: a token that is kept is found at its first pull.
  fun_induction drain lexer with
  | case1 lexer pull found left ih =>
      change lexer.next.lexer.gather keeps = ⟨_, left.1, left.2⟩ at ih
      rw [tokens_of_found found, List.filter_cons]
      by_cases kept : keeps lexer.next.token = true
      · rw [gather_of_kept found kept, ih, if_pos kept]
      · rw [gather_of_dropped found kept, ih, if_neg kept]
  | case2 lexer pull finished =>
      rw [tokens_of_end finished, gather_of_end finished, List.filter_nil]

end Lexer
end ScriptLexer
