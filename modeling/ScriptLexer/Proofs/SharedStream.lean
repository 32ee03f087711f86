import ScriptLexer.Proofs.Requests

/-! Requests that only read share one stream. However they are mixed, they read on where the last
one stopped, and together they come to one portion of the stream. -/

namespace ScriptLexer
namespace Session

def Request.isPull : Request → Bool
  | .next => true
  | .item => true
  | .take _ => true
  | .count => true
  | .tokenize => true
  | _ => false

/-- Whether a request has met the end of the text, which shows in its reply: it brings less than
was asked for. -/
def Request.meetsEnd : Request → Reply → Bool
  | .next, .token given => given.isEof
  | .item, .item given? => given?.isNone
  | .take wanted, .items given => given.length < wanted
  | .count, _ => true
  | .tokenize, _ => true
  | _, _ => false

def metEnd (session : Session) (requests : List Request) : Bool :=
  (requests.zip (session.replies requests)).any fun answered => answered.1.meetsEnd answered.2

structure Exhausted (session : Session) : Prop where
  next : session.handle .next = (.token .eof, session)
  item : session.handle .item = (.item none, session)
  take : ∀ count, session.handle (.take count) = (.items [], session)
  count : session.handle .count = (.count 0, session)
  tokenize : session.handle .tokenize = (.items [], session)

/-- How `requests` have read `text`, and where the session is then: each reply delivers one of
`parts`, and what is left comes behind them in the stream of the whole text. -/
structure SharesStream (text : List Char) (requests : List Request) (parts : List (List Token))
    (session : Session) : Prop where
  delivered : List.Forall₂ Reply.Delivers ((start text).replies requests) parts
  stream : parts.flatten <+: (start text).lexer.tokens
  taken : ∀ count,
    let left := (start text).lexer.tokens.drop parts.flatten.length
    (session.handle (.take count)).1 = .items (left.take count) ∧
      (count ≤ left.length →
        (session.handle (.take count)).2 = session.after (List.replicate count .next))
  unended : (start text).metEnd requests = false →
    session = (start text).after (List.replicate parts.flatten.length .next)
  ended : (start text).metEnd requests = true →
    parts.flatten = (start text).lexer.tokens ∧
      session = (start text).after [.tokenize] ∧
      session.lexer.cursor.offset = byteLength text ∧
      session.Exhausted

theorem handle_of_isPull {request : Request} (reading : request.isPull = true) (session : Session) :
    (session.handle request).2 = (session.take (request.reach session.lexer)).2 := by
  rw [handle_session]
  cases request <;> first | rfl | cases reading

theorem take_lexer (session : Session) (count : Nat) :
    (session.take count).2.lexer = (session.lexer.pull count).2 := rfl

theorem meetsEnd_handle {request : Request} (reading : request.isPull = true) (session : Session) :
    request.meetsEnd (session.handle request).1 =
      decide (session.lexer.tokens.length < request.reach session.lexer) := by
  cases request with
  | next =>
      change session.lexer.next.token.isEof = decide (_ < 1)
      by_cases found : session.lexer.next.token?.isSome = true
      · rw [Lexer.next_token_not_eof found, Lexer.tokens_of_found found]
        rfl
      · rw [Lexer.next_of_end found, Lexer.tokens_of_end found]
        rfl
  | item =>
      change session.lexer.next.token?.isNone = decide (_ < 1)
      by_cases found : session.lexer.next.token?.isSome = true
      · rw [Lexer.next_token?_of_found found, Lexer.tokens_of_found found]
        rfl
      · rw [Lexer.next_of_end found, Lexer.tokens_of_end found]
        rfl
  | take count =>
      change decide ((tokens (session.lexer.pull count).1).length < count) = decide (_ < count)
      rw [tokens, (Lexer.pull_tokens count session.lexer).1, List.length_take]
      apply decide_eq_decide.mpr
      omega
  | count => exact (decide_eq_true (Nat.lt_succ_self _)).symm
  | tokenize => exact (decide_eq_true (Nat.lt_succ_self _)).symm
  | _ => cases reading

theorem read_portion (requests : List Request)
    (reading : ∀ request ∈ requests, request.isPull = true) (session : Session) :
    ∃ count parts, List.Forall₂ Reply.Delivers (session.replies requests) parts ∧
      parts.flatten = session.lexer.tokens.take count ∧
      session.after requests = (session.take count).2 ∧
      session.metEnd requests = decide (session.lexer.tokens.length < count) := by
  -- The induction is on the requests: what they ask for in turn is one portion.
  induction requests generalizing session with
  | nil => exact ⟨0, [], .nil, rfl, (session.record_nil _).symm, rfl⟩
  | cons request requests ih =>
      have first := reading request (List.mem_cons_self ..)
      obtain ⟨count, parts, delivered, flat, reached, met⟩ :=
        ih (fun other member => reading other (List.mem_cons_of_mem _ member))
          (session.handle request).2
      have left : (session.handle request).2.lexer.tokens =
          session.lexer.tokens.drop (request.reach session.lexer) := by
        rw [handle_of_isPull first, take_lexer]
        exact (Lexer.pull_tokens _ _).2
      refine ⟨request.reach session.lexer + count, tokens (session.pulls request) :: parts,
        .cons (session.handle_delivers request) delivered, ?_, ?_, ?_⟩
      · rw [List.flatten_cons, flat, left, List.take_add, tokens, pulls,
          (Lexer.pull_tokens _ _).1]
      · rw [after_cons, reached, handle_of_isPull first, take_add]
      · change (request.meetsEnd (session.handle request).1 ||
          (session.handle request).2.metEnd requests) = _
        rw [meetsEnd_handle first, met, left, List.length_drop, ← Bool.decide_or]
        apply decide_eq_decide.mpr
        omega

theorem take_eq_after_next {count : Nat} {session : Session}
    (within : count ≤ session.lexer.tokens.length) :
    (session.take count).2 = session.after (List.replicate count .next) := by
  induction count generalizing session with
  | zero => exact session.record_nil _
  | succ count ih =>
      have left : session.next.2.lexer.tokens = session.lexer.tokens.drop 1 := by
        rw [next_eq_take, take_lexer]
        exact (Lexer.pull_tokens _ _).2
      have still : count ≤ session.next.2.lexer.tokens.length := by
        rw [left, List.length_drop]
        omega
      calc
        (session.take (count + 1)).2 = (session.next.2.take count).2 := by
          rw [Nat.add_comm, take_add, next_eq_take]
        _ = session.next.2.after (List.replicate count .next) := ih still
        _ = session.after (List.replicate (count + 1) .next) :=
          (session.after_cons .next (List.replicate count .next)).symm

section Nothing

variable {session : Session} (nothing : session.lexer.cursor.rest = [])
include nothing

theorem take_of_nothing (count : Nat) : session.take count = ([], session) := by
  rw [take, Lexer.pull_of_nothing nothing, record_nil]

theorem drain_of_nothing : session.drain = ([], session) := by
  rw [drain_eq_take, take_of_nothing nothing]

theorem exhausted_of_nothing : session.Exhausted := by
  have ended := Lexer.next_of_nothing nothing
  have stays : session.next.2 = session := by rw [next_eq_take, take_of_nothing nothing]
  constructor
  case next =>
    rw [handle, stays, next, ended]
    rfl
  case item => rw [handle, stays, next, ended]
  case take =>
    intro count
    rw [handle, take_of_nothing nothing]
    rfl
  case count =>
    rw [handle, drain_of_nothing nothing]
    rfl
  case tokenize =>
    rw [handle, drain_of_nothing nothing]
    rfl

end Nothing

/-- Requests that only read deliver a beginning of the one stream, in parts. Until one of them meets
the end, the session is where as many calls for one token take it; from then on, where a drain does,
and it stays there. -/
theorem pulls_share_stream (text : List Char) (requests : List Request)
    (reading : ∀ request ∈ requests, request.isPull = true) :
    ∃ parts, SharesStream text requests parts ((start text).after requests) := by
  obtain ⟨count, parts, delivered, flat, reached, met⟩ :=
    read_portion requests reading (start text)
  have left : ((start text).after requests).lexer.tokens =
      (start text).lexer.tokens.drop parts.flatten.length := by
    rw [reached, take_lexer, (Lexer.pull_tokens _ _).2, flat, List.length_take]
    apply List.drop_eq_drop_iff.mpr
    rw [Nat.min_assoc, Nat.min_self]
  refine ⟨parts, ?_⟩
  constructor
  case delivered => exact delivered
  case stream =>
    rw [flat]
    exact List.take_prefix _ _
  case taken =>
    intro wanted
    rw [← left]
    constructor
    · exact congrArg Reply.items (Lexer.pull_tokens _ _).1
    · exact take_eq_after_next
  case unended =>
    intro unended
    have within : count ≤ (start text).lexer.tokens.length := by
      rw [met] at unended
      exact Nat.le_of_not_lt (of_decide_eq_false unended)
    rw [reached, flat, List.length_take, Nat.min_eq_left within, take_eq_after_next within]
  case ended =>
    intro ended
    have beyond : (start text).lexer.tokens.length < count := by
      rw [met] at ended
      exact of_decide_eq_true ended
    obtain ⟨nothing, offset⟩ := (start text).lexer.drain_end
    rw [reached, take_eq_drain beyond]
    refine ⟨?_, rfl, ?_, exhausted_of_nothing nothing⟩
    · rw [flat]
      exact List.take_of_length_le (Nat.le_of_lt beyond)
    · exact offset.trans (Nat.zero_add _)

theorem pulls_share_stream_mixed :
    let text := ['a', ' ', '#', '\'', 'b', '\n']
    let requests := [.item, .take 1, .take 5, .count, .next]
    (∀ request ∈ requests, request.isPull = true) ∧
      ∃ parts, SharesStream text requests parts ((start text).after requests) := by
  intro text requests
  have reading : ∀ request ∈ requests, request.isPull = true := by decide
  exact ⟨reading, pulls_share_stream text requests reading⟩

/-- Of the two portions that deliver the one token, only the longer meets the end behind it. -/
example : ((start ['a', '\n']).after [.take 1]).lexer.line = 1 ∧
    ((start ['a', '\n']).after [.take 2]).lexer.line = 2 := by
  cbv

end Session
end ScriptLexer
