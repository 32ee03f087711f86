import ScriptLexer.Proofs.ByteLexer
import ScriptLexer.Proofs.SharedStream

/-! Progress. A call that gives a token leaves less to read, and one that does not has reached the
end, where all later calls stay. So there are no more tokens than characters, and the loops of the
calls, those that recover among them, end. -/

namespace ScriptLexer

namespace Cursor

section Sound

variable {cursor : Cursor} (sound : cursor.Sound)
include sound

theorem Sound.endOffset : cursor.endOffset = byteLength cursor.buffer := by
  obtain ⟨read, passed⟩ := sound
  rw [Cursor.endOffset, passed.offset, passed.buffer, byteLength_append]

theorem Sound.rest_length_le : cursor.rest.length ≤ cursor.buffer.length := by
  obtain ⟨read, passed⟩ := sound
  rw [passed.buffer, List.length_append]
  exact Nat.le_add_left _ _

end Sound

structure Recovers (cursor : Cursor) : Prop where
  literal : ∀ quote, isQuote quote = true → cursor.bytes.passTail quote =
    pure (cursor.advanceBy (Scan.literalTail quote cursor.rest).length).bytes
  number : cursor.bytes.advanceWhile isNumericRun = pure (cursor.advanceWhile isNumericRun).bytes
  comment : cursor.bytes.passComment = pure ((Scan.upToClose? cursor.rest).elim
    (cursor.scanned (.error .unterminatedComment) cursor.rest.length 0)
    fun inside => cursor.scanned (.ok ()) inside.length 0)

theorem Sound.recovers {cursor : Cursor} (sound : cursor.Sound) : cursor.Recovers := by
  constructor
  case literal =>
    intro quote quoting
    exact bytes_passTail (Scan.quote_ne_backslash quoting).symm sound
  case number => exact bytes_advanceWhile sound isNumericRun
  case comment => exact bytes_passComment sound

end Cursor

namespace Lexer

theorem next_offset_lt {lexer : Lexer} (found : lexer.next.token?.isSome = true) :
    lexer.cursor.offset < lexer.next.lexer.cursor.offset := by
  obtain ⟨c, text, visible⟩ := exists_visible found
  have whole := next_endOffset lexer
  have parts := congrArg byteLength (rest_parts visible)
  have taken := byteLength_pos (Scan.leading_progress c text)
  rw [← next_rest visible, byteLength_append, byteLength_append] at parts
  change 0 < byteLength (Scan.leading c text).taken at taken
  simp only [Cursor.endOffset] at whole
  omega

theorem next_offset_of_end {lexer : Lexer} (finished : ¬lexer.next.token?.isSome = true) :
    lexer.next.lexer.cursor.offset = lexer.cursor.endOffset := by
  have whole := next_endOffset lexer
  rwa [Cursor.endOffset, next_rest_of_end finished] at whole

theorem tokens_length_le (lexer : Lexer) : lexer.tokens.length ≤ lexer.cursor.rest.length := by
  fun_induction drain lexer with
  | case1 lexer pull found left ih =>
      have shorter := next_rest_length_lt lexer found
      have later : lexer.next.lexer.tokens.length ≤ lexer.next.lexer.cursor.rest.length := ih
      rw [tokens_of_found found, List.length_cons]
      omega
  | case2 lexer pull finished =>
      rw [tokens_of_end finished]
      exact Nat.zero_le _

theorem drain_length (lexer : Lexer) : lexer.drain.1.length = lexer.tokens.length := by
  have given := lexer.pull_token? (lexer.tokens.length + 1)
  rw [pull_of_length_lt (Nat.lt_succ_self _)] at given
  rw [tokens, given, List.length_map]

theorem tokens_genuine (lexer : Lexer) : ∀ token ∈ lexer.tokens, token.isEof = false := by
  fun_induction drain lexer with
  | case1 lexer pull found left ih =>
      rw [tokens_of_found found]
      exact List.forall_mem_cons.mpr ⟨next_token_not_eof found, ih⟩
  | case2 lexer pull finished =>
      rw [tokens_of_end finished]
      exact List.forall_mem_nil _

end Lexer

namespace Session

structure AtEnd (session : Session) : Prop where
  replies : ∀ count, session.replies (List.replicate count .next) =
    List.replicate count (.token .eof)
  after : ∀ count, session.after (List.replicate count .next) = session

inductive Advances (session : Session) : Prop
  | token (given : Token) (answered : (session.handle .next).1 = .token given)
      (genuine : given.isEof = false)
      (further : session.lexer.cursor.offset < (session.handle .next).2.lexer.cursor.offset)
  | finished (answered : (session.handle .next).1 = .token .eof)
      (reached : (session.handle .next).2.lexer.cursor.offset =
        byteLength session.lexer.cursor.buffer)
      (stays : (session.handle .next).2.AtEnd)

/-- Calls and drains at `session` end. As many calls as there are tokens, and one more, give the
tokens and the end. -/
structure Progresses (session : Session) : Prop where
  next : session.lexer.cursor.bytes.next =
    pure (session.lexer.next.found, session.lexer.next.lexer.cursor.bytes)
  advances : session.Advances
  drain : session.lexer.cursor.bytes.drain =
    pure (session.lexer.drain.1.map Pull.found, session.lexer.drain.2.cursor.bytes)
  calls : session.replies (List.replicate (session.lexer.drain.1.length + 1) .next) =
    session.lexer.tokens.map .token ++ [.token .eof]
  genuine : ∀ token ∈ session.lexer.tokens, token.isEof = false
  bounded : session.lexer.drain.1.length ≤ session.lexer.cursor.buffer.length

theorem replies_cons (session : Session) (request : Request) (requests : List Request) :
    session.replies (request :: requests) =
      (session.handle request).1 :: (session.handle request).2.replies requests := rfl

theorem Exhausted.atEnd {session : Session} (exhausted : session.Exhausted) : session.AtEnd := by
  constructor
  case replies =>
    intro count
    induction count with
    | zero => rfl
    | succ count ih =>
        rw [List.replicate_succ, replies_cons, exhausted.next, ih]
        rfl
  case after =>
    intro count
    induction count with
    | zero => rfl
    | succ count ih => rw [List.replicate_succ, after_cons, exhausted.next, ih]

section End

variable {session : Session} (finished : ¬session.lexer.next.token?.isSome = true)
include finished

theorem handle_next_of_end : (session.handle .next).1 = .token .eof := by
  change Reply.token session.lexer.next.token = _
  rw [Lexer.next_of_end finished]
  rfl

theorem atEnd_of_end : (session.handle .next).2.AtEnd := by
  have nothing : (session.handle .next).2.lexer.cursor.rest = [] :=
    Lexer.next_rest_of_end finished
  exact (exhausted_of_nothing nothing).atEnd

end End

theorem advances_of_sound {session : Session} (sound : session.lexer.cursor.Sound) :
    session.Advances := by
  by_cases found : session.lexer.next.token?.isSome = true
  · exact .token session.lexer.next.token rfl (Lexer.next_token_not_eof found)
      (Lexer.next_offset_lt found)
  · refine .finished (handle_next_of_end found) ?_ (atEnd_of_end found)
    exact (Lexer.next_offset_of_end found).trans sound.endOffset

theorem replies_next (session : Session) :
    session.replies (List.replicate (session.lexer.tokens.length + 1) .next) =
      session.lexer.tokens.map .token ++ [.token .eof] := by
  -- The induction is on the tokens that are left.
  induction left : session.lexer.tokens generalizing session with
  | nil =>
      have finished : ¬session.lexer.next.token?.isSome = true := by
        intro found
        rw [Lexer.tokens_of_found found] at left
        cases left
      rw [List.length_nil, List.replicate_succ, replies_cons, handle_next_of_end finished]
      rfl
  | cons token tokens ih =>
      have found : session.lexer.next.token?.isSome = true := by
        by_contra finished
        rw [Lexer.tokens_of_end finished] at left
        cases left
      rw [Lexer.tokens_of_found found] at left
      obtain ⟨rfl, later⟩ := List.cons.inj left
      rw [List.length_cons, List.replicate_succ, replies_cons, ih (session.handle .next).2 later]
      rfl

/-- A separator ends a literal without being taken, and the call behind it skips it. -/
example : (start ['\'', '\u2028', 'a']).replies [.next, .next, .next, .next] =
    [.token .invalid, .token (Token.ofWord ['a']), .token .eof, .token .eof] := by
  decide +kernel

theorem progresses_of_sound {session : Session} (sound : session.lexer.cursor.Sound) :
    session.Progresses := by
  constructor
  case next => exact Lexer.bytes_next sound
  case advances => exact advances_of_sound sound
  case drain => exact Lexer.bytes_drain sound
  case calls =>
    rw [Lexer.drain_length]
    exact session.replies_next
  case genuine => exact session.lexer.tokens_genuine
  case bounded =>
    rw [Lexer.drain_length]
    exact session.lexer.tokens_length_le.trans sound.rest_length_le

/-- Wherever requests have taken a session, its calls move on to the end of the text and stay there,
and from every place in a text recovery ends. -/
theorem progresses_and_recovers :
    (∀ (text : List Char) (requests : List Request),
      ((start text).after requests).Progresses) ∧
    ∀ (text : List Char) (count : Nat), ((Cursor.ofText text).advanceBy count).Recovers := by
  refine ⟨fun text requests => ?_, fun text count => ?_⟩
  · exact progresses_of_sound (after_sound text requests)
  · exact ((Cursor.sound_ofText text).advanceBy count).recovers

end Session
end ScriptLexer
