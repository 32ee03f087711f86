import ScriptLexer.Diagnostic.Log
import ScriptLexer.Lexer

/-! A session with one lexer and one log. Requests are data, and `Session.handle` answers one.
Resets start the source and its line errors anew; nothing is ever taken from the log. -/

namespace ScriptLexer

structure Session where
  lexer : Lexer
  log : Log
  deriving DecidableEq, Repr

namespace Session

inductive Request
  | next
  | item
  | take (count : Nat)
  | count
  | tokenize
  | reset
  | resetTo (text : List Char)
  | rename (source : String)
  | source
  | buffer
  | finish
  | eof
  | reports
  deriving DecidableEq, Repr

inductive Reply
  | done
  | token (token : Token)
  | item (token? : Option Token)
  | items (tokens : List Token)
  | count (tokens : Nat)
  | text (text : String)
  | outcome (failure? : Option LexFailure)
  | reports (diagnostics : List Diagnostic)
  deriving DecidableEq, Repr

def start (text : List Char) : Session := ⟨.ofText text Lexer.defaultSource, .empty⟩

def record (session : Session) (pulls : List Pull) (lexer : Lexer) : Session :=
  ⟨lexer, session.log.append (pulls.filterMap Pull.report?)⟩

def tokens (pulls : List Pull) : List Token := pulls.filterMap Pull.token?

def next (session : Session) : Pull × Session :=
  let pull := session.lexer.next
  (pull, session.record [pull] pull.lexer)

def take (session : Session) (count : Nat) : List Pull × Session :=
  let pulled := session.lexer.pull count
  (pulled.1, session.record pulled.1 pulled.2)

def drain (session : Session) : List Pull × Session :=
  let drained := session.lexer.drain
  (drained.1, session.record drained.1 drained.2)

def handle (session : Session) : Request → Reply × Session
  | .next => (.token session.next.1.token, session.next.2)
  | .item => (.item session.next.1.token?, session.next.2)
  | .take count => (.items (tokens (session.take count).1), (session.take count).2)
  | .count => (.count session.drain.1.length, session.drain.2)
  | .tokenize => (.items (tokens session.drain.1), session.drain.2)
  | .reset => (.done, { session with lexer := session.lexer.reset })
  | .resetTo text => (.done, { session with lexer := session.lexer.resetTo text })
  | .rename source => (.text source, { session with lexer := session.lexer.rename source })
  | .source => (.text session.lexer.source, session)
  | .buffer => (.text (String.ofList session.lexer.cursor.buffer), session)
  | .finish => (.outcome session.lexer.failure?, session)
  | .eof => (.token .eof, session)
  | .reports => (.reports session.log.entries, session)

def run (session : Session) : List Request → List (Reply × Session)
  | [] => []
  | request :: requests =>
      let answered := session.handle request
      answered :: answered.2.run requests

end Session
end ScriptLexer
