import ScriptLexer.Proofs.Stream
import ScriptLexer.Session

/-! What a request does. Its answer takes one portion of the stream and logs what that reported;
only then does the request change anything else about the lexer. -/

namespace ScriptLexer

namespace Log

theorem append_append (log : Log) (first second : List Diagnostic) :
    log.append (first ++ second) = (log.append first).append second := by
  simp only [append, List.append_assoc]

end Log

namespace Session

def after (session : Session) (requests : List Request) : Session :=
  ((session.run requests).map Prod.snd).getLastD session

def replies (session : Session) (requests : List Request) : List Reply :=
  (session.run requests).map Prod.fst

theorem after_cons (session : Session) (request : Request) (requests : List Request) :
    session.after (request :: requests) = (session.handle request).2.after requests :=
  List.getLastD_cons

theorem after_append (session : Session) (first second : List Request) :
    session.after (first ++ second) = (session.after first).after second := by
  induction first generalizing session with
  | nil => rfl
  | cons request requests ih => rw [List.cons_append, after_cons, after_cons, ih]

/-- `tokens` are those that a reply hands over. A count stands for as many as it says. -/
def Reply.Delivers : Reply → List Token → Prop
  | .token given, tokens => tokens = if given.isEof then [] else [given]
  | .item given?, tokens => tokens = given?.toList
  | .items given, tokens => tokens = given
  | .count number, tokens => tokens.length = number
  | _, tokens => tokens = []

/-- How many tokens a request asks for. One that reads to the end asks for more than are left. -/
def Request.reach (lexer : Lexer) : Request → Nat
  | .next => 1
  | .item => 1
  | .take wanted => wanted
  | .count => lexer.tokens.length + 1
  | .tokenize => lexer.tokens.length + 1
  | _ => 0

def Request.change (lexer : Lexer) : Request → Lexer
  | .reset => lexer.reset
  | .resetTo text => lexer.resetTo text
  | .rename name => lexer.rename name
  | _ => lexer

/-- The pulls with which a request is answered, those that a count drops included. -/
def pulls (session : Session) (request : Request) : List Pull :=
  (session.lexer.pull (request.reach session.lexer)).1

theorem record_nil (session : Session) (lexer : Lexer) :
    session.record [] lexer = { session with lexer } := by
  simp only [record, Log.append, List.filterMap_nil, List.append_nil]

theorem take_eq_drain {session : Session} {count : Nat}
    (beyond : session.lexer.tokens.length < count) : session.take count = session.drain := by
  rw [take, drain, Lexer.pull_of_length_lt beyond]

theorem drain_eq_take (session : Session) :
    session.drain = session.take (session.lexer.tokens.length + 1) :=
  (take_eq_drain (Nat.lt_succ_self _)).symm

theorem next_eq_take (session : Session) : session.next.2 = (session.take 1).2 := by
  obtain ⟨_, reports, left⟩ := session.lexer.pull_one
  simp only [next, take, record, Pull.gathered_cons, List.filterMap_nil, List.append_nil, reports,
    left]

theorem take_add (session : Session) (first second : Nat) :
    (session.take (first + second)).2 = ((session.take first).2.take second).2 := by
  simp only [take, record, Lexer.pull_add, List.filterMap_append, Log.append_append]

/-- Every request comes to this: its pulls are logged, and the change follows them. -/
theorem handle_session (session : Session) (request : Request) :
    (session.handle request).2 = session.record (session.pulls request)
      (request.change (session.lexer.pull (request.reach session.lexer)).2) := by
  cases request with
  | next => exact session.next_eq_take
  | item => exact session.next_eq_take
  | take count => rfl
  | count => exact congrArg Prod.snd session.drain_eq_take
  | tokenize => exact congrArg Prod.snd session.drain_eq_take
  | _ => exact (session.record_nil _).symm

theorem handle_delivers (session : Session) (request : Request) :
    (session.handle request).1.Delivers (tokens (session.pulls request)) := by
  obtain ⟨given, _, _⟩ := session.lexer.pull_one
  cases request with
  | next =>
      change tokens (session.lexer.pull 1).1 = if session.lexer.next.token.isEof then [] else _
      rw [tokens, given]
      by_cases found : session.lexer.next.token?.isSome = true
      · rw [Lexer.next_token_not_eof found, Lexer.next_token?_of_found found]
        rfl
      · rw [Lexer.next_of_end found]
        rfl
  | item => exact given
  | take count => rfl
  | count =>
      change (tokens (session.lexer.pull _).1).length = session.drain.1.length
      rw [tokens, Lexer.pull_token?, List.length_map, drain_eq_take]
      rfl
  | tokenize => exact congrArg (fun pulled => tokens pulled.1) session.drain_eq_take.symm
  | _ => exact Eq.refl []

end Session
end ScriptLexer
