import ScriptLexer.Command.Check
import ScriptLexer.Command.Codes
import ScriptLexer.Command.Tokens
import ScriptLexer.Proofs.Sources

/-! Performances and what they come to with an output that takes everything. Listing and checking
read the same sources: up to the first path that cannot be read, which is then the failure of both,
and to the end otherwise, when both give the summary of the sources. -/

namespace ScriptLexer

theorem Sink.write_unbounded (written : String) (pieces : List Piece) :
    unbounded.write written pieces = .ok (written ++ String.join (pieces.map Piece.content)) := by
  induction pieces generalizing written with
  | nil => simp [write]
  | cons piece pieces ih => simp [write, holds, ih, String.append_assoc]

theorem Product.writeTo_unbounded (product : Product) :
    product.writeTo .unbounded = .ok (product.text, product.summary) := by
  simp [writeTo, Sink.write_unbounded, text]

namespace Performance

def pieces (performance : Performance) : List Piece :=
  match performance.result with
  | .ok product => product.pieces
  | .error _ => []

/-- A command fails, whatever its output takes, and wants nothing written. -/
structure Fails (performance : Performance) (failure : Failure) : Prop where
  result : ∀ sink, performance.writeTo sink = .error failure
  unwritten : performance.pieces = []

/-- A command writes `out` to an output that takes everything, and gives `summary`. -/
def Gives (performance : Performance) (out : String) (summary : Summary) : Prop :=
  performance.writeTo .unbounded = .ok (out, summary)

def Succeeds (performance : Performance) (summary : Summary) : Prop :=
  ∃ out, performance.Gives out summary

variable {performance : Performance}

theorem fails_of_result {failure : Failure} (failed : performance.result = .error failure) :
    performance.Fails failure := by
  constructor
  case result =>
    intro sink
    rw [writeTo, failed]
    rfl
  case unwritten => rw [pieces, failed]

theorem gives_of_result {product : Product} (done : performance.result = .ok product) :
    performance.Gives product.text product.summary := by
  rw [Gives, writeTo, done]
  exact product.writeTo_unbounded

end Performance

namespace Command

variable {input : Input}

section Stopped

variable {path : String} {fault : ReadFault}

theorem Tokens.perform_stopped {command : Tokens}
    (stopped : input.stop? command.paths = some (path, fault)) :
    (command.perform input).result = .error (.read path fault) := by
  obtain ⟨sources, _, lexed⟩ := input.lex_reads command.paths
  simp only [perform, lexed, stopped]

theorem Check.perform_stopped {command : Check}
    (stopped : input.stop? command.paths = some (path, fault)) :
    (command.perform input).result = .error (.read path fault) := by
  obtain ⟨sources, _, lexed⟩ := input.lex_reads command.paths
  simp only [perform, lexed, stopped]

end Stopped

section Finished

variable {sources : List Source}

theorem Tokens.perform_reads {command : Tokens} (reads : input.Reads command.paths sources) :
    (command.perform input).result =
      .ok ⟨command.pieces (sources.map .ofSource), .counting sources⟩ := by
  simp only [perform, Input.lex_of_reads reads, Summary.ofSources_lexed]

theorem Check.perform_reads {command : Check} (reads : input.Reads command.paths sources) :
    (command.perform input).result =
      .ok ⟨command.pieces (.counting sources), .counting sources⟩ := by
  simp only [perform, Input.lex_of_reads reads, Summary.ofSources_lexed]

end Finished

section Asked

variable {text : String}

theorem Codes.perform_known {code : ErrorCode} (known : Codes.parse? text = some code) :
    (Codes.mk (some text)).perform.result = .ok ⟨[.text (Codes.line code)], .empty⟩ := by
  simp [perform, selected, known, Except.map]

theorem Codes.perform_unknown (unknown : Codes.parse? text = none) :
    (Codes.mk (some text)).perform.result = .error (.unknownCode text) := by
  simp [perform, selected, unknown, Except.map]

end Asked

structure Total (input : Input) (paths : List String) (summary : Summary) : Prop where
  tokens : ∀ format includeComments,
    ((Tokens.mk paths format includeComments).perform input).Succeeds summary
  check : ∀ quiet, ((Check.mk paths quiet).perform input).Succeeds summary

theorem total_of_reads {paths : List String} {sources : List Source}
    (reads : input.Reads paths sources) : Total input paths (.counting sources) := by
  constructor
  case tokens =>
    intro format includeComments
    have done := @Tokens.perform_reads _ _ ⟨paths, format, includeComments⟩ reads
    exact ⟨_, Performance.gives_of_result done⟩
  case check =>
    intro quiet
    have done := @Check.perform_reads _ _ ⟨paths, quiet⟩ reads
    exact ⟨_, Performance.gives_of_result done⟩

end Command
end ScriptLexer
