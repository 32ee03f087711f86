/-! Where a command writes: a sink takes text piece by piece and may refuse one. What is written is
a plain value, so that running out of room is one too. -/

namespace ScriptLexer

/-- A piece of output. A document that is refused is a fault of the document, any other text one of
the output. -/
inductive Piece
  | text (content : String)
  | document (content : String)
  deriving DecidableEq, Repr

def Piece.content : Piece → String
  | text content => content
  | document content => content

inductive Refusal
  | text (reason : String)
  | document (reason : String)
  deriving DecidableEq, Repr

def Piece.refused (reason : String) : Piece → Refusal
  | text _ => .text reason
  | document _ => .document reason

/-- `bounded` holds no more than `limit` bytes. `fullDevice` buffers a line until it is complete,
and has no room for one. -/
inductive Sink
  | unbounded
  | bounded (limit : Nat)
  | fullDevice
  deriving DecidableEq, Repr

namespace Sink

def holds : Sink → String → Bool
  | unbounded, _ => true
  | bounded limit, written => written.utf8ByteSize ≤ limit
  | fullDevice, written => !written.toList.contains '\n'

def reason : Sink → String
  | unbounded => ""
  | bounded _ => "output full"
  | fullDevice => "No space left on device (os error 28)"

def delivered : Sink → String → String
  | fullDevice, _ => ""
  | _, written => written

def write (sink : Sink) (written : String) : List Piece → Except Refusal String
  | [] => .ok written
  | piece :: pieces =>
      let longer := written ++ piece.content
      if sink.holds longer then sink.write longer pieces
      else .error (piece.refused sink.reason)

end Sink
end ScriptLexer
