import ScriptLexer.Proofs.ExitStatus

/-! Outputs of limited room. A command writes all that it has to write or fails, whatever portions it
writes it in, and its failure tells whether there was no room for a document or for other text. What
is in the way of the work itself comes before anything is written. -/

namespace ScriptLexer

def Piece.holding : Piece → String → Piece
  | text _, content => text content
  | document _, content => document content

@[simp] theorem Piece.holding_content (piece : Piece) (content : String) :
    (piece.holding content).content = content := by
  cases piece <;> rfl

@[simp] theorem Piece.holding_refused (piece : Piece) (content reason : String) :
    (piece.holding content).refused reason = piece.refused reason := by
  cases piece <;> rfl

/-- `portions` are `pieces` cut smaller, each into any number of its kind. -/
inductive Portions : List Piece → List Piece → Prop
  | nil : Portions [] []
  | cons (piece : Piece) (contents : List String) (whole : String.join contents = piece.content)
      {pieces portions : List Piece} (others : Portions pieces portions) :
      Portions (piece :: pieces) (contents.map piece.holding ++ portions)

namespace Sink

theorem holds_of_append {sink : Sink} {front back : String}
    (whole : sink.holds (front ++ back) = true) : sink.holds front = true := by
  cases sink with
  | unbounded => rfl
  | bounded limit =>
      have bound : (front ++ back).utf8ByteSize ≤ limit := by simpa [holds] using whole
      rw [String.utf8ByteSize_append] at bound
      simpa [holds] using Nat.le_trans (Nat.le_add_right _ _) bound
  | fullDevice =>
      simp only [holds, String.toList_append, Bool.not_eq_true', List.contains_eq_mem,
        decide_eq_false_iff_not] at whole ⊢
      exact fun member => whole (List.mem_append_left _ member)

theorem write_run {sink : Sink} (piece : Piece) (contents : List String) (others : List Piece)
    {written : String} (held : sink.holds written = true) :
    sink.write written (contents.map piece.holding ++ others) =
      if sink.holds (written ++ String.join contents) then
        sink.write (written ++ String.join contents) others
      else .error (piece.refused sink.reason) := by
  -- The induction is on the contents, from any text that is held.
  induction contents generalizing written with
  | nil => simp [held]
  | cons first contents ih =>
      rw [List.map_cons, List.cons_append, write, Piece.holding_content, Piece.holding_refused,
        String.join_cons, ← String.append_assoc]
      by_cases room : sink.holds (written ++ first) = true
      · rw [if_pos room, ih room]
      · -- Where a beginning has no room, the whole has none.
        rw [if_neg room, if_neg fun whole => room (holds_of_append whole)]

theorem write_portions {sink : Sink} {pieces portions : List Piece}
    (cut : Portions pieces portions) {written : String} (held : sink.holds written = true) :
    sink.write written portions = sink.write written pieces := by
  induction cut generalizing written with
  | nil => rfl
  | cons piece contents whole others ih =>
      rw [write_run piece contents _ held, whole, write]
      by_cases room : sink.holds (written ++ piece.content) = true
      · rw [if_pos room, if_pos room, ih room]
      · rw [if_neg room, if_neg room]

theorem holds_empty (sink : Sink) : sink.holds "" = true := by
  cases sink with
  | unbounded => rfl
  | bounded limit => exact decide_eq_true (Nat.zero_le limit)
  | fullDevice => rfl

theorem holds_bounded {limit : Nat} {written : String} :
    (bounded limit).holds written = true ↔ written.utf8ByteSize ≤ limit := by
  simp [holds]

end Sink

theorem Product.writeTo_portions {product : Product} {portions : List Piece}
    (cut : Portions product.pieces portions) (sink : Sink) :
    writeTo ⟨portions, product.summary⟩ sink = product.writeTo sink := by
  rw [writeTo, writeTo, Sink.write_portions cut sink.holds_empty]

def Overlong (document : Bool) (out : String) (limit : Nat) : Prop :=
  document = true ∧ ∃ content, out = content ++ "\n" ∧ limit < content.utf8ByteSize

/-- What becomes of writing `out`, all of which is a document but for the line end if `document` says
so, where there is room for `limit` bytes. -/
structure Room (document : Bool) (out : String) (summary : Summary) (limit : Nat)
    (written : Except Failure (String × Summary)) : Prop where
  fits : out.utf8ByteSize ≤ limit → written = .ok (out, summary)
  exceeds : limit < out.utf8ByteSize → ∃ failure, written = .error failure
  json : (∃ reason, written = .error (.json reason)) ↔ Overlong document out limit
  io : (∃ reason, written = .error (.io reason)) ↔
    limit < out.utf8ByteSize ∧ ¬Overlong document out limit

section Room

variable {document : Bool} {out : String} {summary : Summary} {limit : Nat}

theorem Overlong.exceeds (overlong : Overlong document out limit) : limit < out.utf8ByteSize := by
  obtain ⟨_, content, rfl, above⟩ := overlong
  rw [String.utf8ByteSize_append]
  exact Nat.lt_add_right _ above

theorem overlong_append (content : String) :
    Overlong true (content ++ "\n") limit ↔ limit < content.utf8ByteSize := by
  constructor
  · rintro ⟨_, other, same, above⟩
    have size := congrArg String.utf8ByteSize same
    rw [String.utf8ByteSize_append, String.utf8ByteSize_append] at size
    omega
  · exact fun above => ⟨rfl, content, rfl, above⟩

theorem room_fits (fits : out.utf8ByteSize ≤ limit) :
    Room document out summary limit (.ok (out, summary)) := by
  have room : ¬limit < out.utf8ByteSize := Nat.not_lt_of_le fits
  constructor
  case fits => exact fun _ => rfl
  case exceeds => exact fun above => absurd above room
  case json => exact iff_of_false nofun fun overlong => room overlong.exceeds
  case io => exact iff_of_false nofun fun above => room above.1

theorem room_json (overlong : Overlong document out limit) (reason : String) :
    Room document out summary limit (.error (.json reason)) := by
  constructor
  case fits => exact fun fits => absurd overlong.exceeds (Nat.not_lt_of_le fits)
  case exceeds => exact fun _ => ⟨_, rfl⟩
  case json => exact iff_of_true ⟨reason, rfl⟩ overlong
  case io => exact iff_of_false nofun fun above => above.2 overlong

theorem room_io (above : limit < out.utf8ByteSize) (held : ¬Overlong document out limit)
    (reason : String) : Room document out summary limit (.error (.io reason)) := by
  constructor
  case fits => exact fun fits => absurd above (Nat.not_lt_of_le fits)
  case exceeds => exact fun _ => ⟨_, rfl⟩
  case json => exact iff_of_false nofun held
  case io => exact iff_of_true ⟨reason, rfl⟩ ⟨above, held⟩

end Room

namespace Product

variable (summary : Summary) (limit : Nat)

theorem room_texts (contents : List String) :
    Room false (String.join contents) summary limit
      (writeTo ⟨contents.map .text, summary⟩ (.bounded limit)) := by
  have written : (Sink.bounded limit).write "" (contents.map .text) =
      if (Sink.bounded limit).holds ("" ++ String.join contents) then
        .ok ("" ++ String.join contents) else .error (.text "output full") := by
    have run := Sink.write_run (.text "") contents [] (Sink.holds_empty (.bounded limit))
    rwa [List.append_nil] at run
  rw [String.empty_append] at written
  by_cases fits : (String.join contents).utf8ByteSize ≤ limit
  · rw [if_pos (Sink.holds_bounded.mpr fits)] at written
    rw [writeTo, written]
    exact room_fits fits
  · rw [if_neg fun held => fits (Sink.holds_bounded.mp held)] at written
    rw [writeTo, written]
    have plain : ¬Overlong false (String.join contents) limit :=
      fun overlong => Bool.false_ne_true overlong.1
    exact room_io (Nat.lt_of_not_le fits) plain "output full"

theorem room_document (content : String) :
    Room true (content ++ "\n") summary limit
      (writeTo ⟨[.document content, .text "\n"], summary⟩ (.bounded limit)) := by
  have written : (Sink.bounded limit).write "" [.document content, .text "\n"] =
      if (Sink.bounded limit).holds content then
        if (Sink.bounded limit).holds (content ++ "\n") then .ok (content ++ "\n")
        else .error (.text "output full")
      else .error (.document "output full") := by
    simp [Sink.write, Piece.content, Piece.refused, Sink.reason]
  by_cases held : content.utf8ByteSize ≤ limit
  · rw [if_pos (Sink.holds_bounded.mpr held)] at written
    by_cases fits : (content ++ "\n").utf8ByteSize ≤ limit
    · rw [if_pos (Sink.holds_bounded.mpr fits)] at written
      rw [writeTo, written]
      exact room_fits fits
    · rw [if_neg fun held => fits (Sink.holds_bounded.mp held)] at written
      rw [writeTo, written]
      have within : ¬Overlong true (content ++ "\n") limit :=
        fun overlong => Nat.not_lt_of_le held ((overlong_append content).mp overlong)
      exact room_io (Nat.lt_of_not_le fits) within "output full"
  · rw [if_neg fun fits => held (Sink.holds_bounded.mp fits)] at written
    rw [writeTo, written]
    exact room_json ((overlong_append content).mpr (Nat.lt_of_not_le held)) "output full"

def Shaped (document : Bool) (pieces : List Piece) : Prop :=
  if document then ∃ content, pieces = [.document content, .text "\n"]
  else ∃ contents : List String, pieces = contents.map .text

theorem room_of_shaped {document : Bool} {product : Product}
    (shaped : Shaped document product.pieces) (limit : Nat) :
    Room document product.text product.summary limit (product.writeTo (.bounded limit)) := by
  obtain ⟨pieces, summary⟩ := product
  cases document with
  | false =>
      obtain ⟨contents, rfl⟩ := shaped
      have text : Product.text ⟨contents.map .text, summary⟩ = String.join contents := by
        simp [Product.text, Function.comp_def, Piece.content]
      rw [text]
      exact room_texts summary limit contents
  | true =>
      obtain ⟨content, rfl⟩ := shaped
      have text : Product.text ⟨[.document content, .text "\n"], summary⟩ = content ++ "\n" := by
        simp [Product.text, Piece.content]
      rw [text]
      exact room_document summary limit content

end Product

namespace CommandLine

def writesDocument (config : Config) : Work → Bool
  | .tokens _ format _ _ => format.getD config.format == .json
  | _ => false

structure Feasible (input : Input) (invocation : Invocation) : Prop where
  readable : ∀ path ∈ invocation.sourcePaths, ∃ source, input.read path = .ok source
  known : ∀ text, invocation.work = .codes (some text) →
    ∃ code, Command.Codes.parse? text = some code

/-- What is in the way of the work: the first source that cannot be read, or a text that no code is
known by. -/
inductive Obstacle (input : Input) (invocation : Invocation) : Failure → Prop
  | source {before after : List String} {path : String} {fault : ReadFault}
      (parts : invocation.sourcePaths = before ++ path :: after)
      (readable : ∀ earlier ∈ before, ∃ source, input.read earlier = .ok source)
      (unread : input.read path = .error fault) : Obstacle input invocation (.read path fault)
  | code {text : String} (asked : invocation.work = .codes (some text))
      (unknown : Command.Codes.parse? text = none) :
      Obstacle input invocation (.unknownCode text)

section Obstacles

variable {input : Input} {invocation : Invocation}

theorem obstacle?_eq_some_iff {failure : Failure} :
    obstacle? input invocation = some failure ↔ Obstacle input invocation failure := by
  constructor
  · intro obstacle
    rw [obstacle?] at obstacle
    split at obstacle
    · rename_i text asked
      cases known : Command.Codes.parse? text with
      | some code => simp [known] at obstacle
      | none =>
          rw [known, Option.isNone_none, if_pos rfl] at obstacle
          cases obstacle
          exact .code asked known
    · obtain ⟨⟨path, fault⟩, stopped, rfl⟩ := Option.map_eq_some_iff.mp obstacle
      obtain ⟨before, after, parts, readable, unread⟩ := Input.stop?_eq_some_iff.mp stopped
      exact .source parts readable unread
  · rintro (@⟨before, after, path, fault, parts, readable, unread⟩ | ⟨asked, unknown⟩)
    · have stopped : input.stop? invocation.sourcePaths = some (path, fault) :=
        Input.stop?_eq_some_iff.mpr ⟨before, after, parts, readable, unread⟩
      rw [obstacle?]
      split
      · rename_i text asked
        simp [Invocation.sourcePaths, asked] at parts
      · rw [stopped]
        rfl
    · simp [obstacle?, asked, unknown]

theorem obstacle?_eq_none_iff :
    obstacle? input invocation = none ↔ Feasible input invocation := by
  constructor
  · intro free
    constructor
    case readable => exact Input.stop?_eq_none_iff.mp (stop?_of_free free)
    case known =>
      intro text asked
      by_contra unknown
      rw [← Option.isSome_iff_exists, Option.not_isSome_iff_eq_none] at unknown
      simp [obstacle?, asked, unknown] at free
  · intro feasible
    cases obstacle : obstacle? input invocation with
    | none => rfl
    | some failure =>
        obtain ⟨parts, _, unread⟩ | ⟨asked, unknown⟩ := obstacle?_eq_some_iff.mp obstacle
        · have member := parts ▸ List.mem_append_right _ List.mem_cons_self
          obtain ⟨source, read⟩ := feasible.readable _ member
          cases read.symm.trans unread
        · obtain ⟨code, known⟩ := feasible.known _ asked
          cases known.symm.trans unknown

end Obstacles

theorem perform_shaped {config : Config} {input : Input} {work : Work} {product : Product}
    (done : (perform config input work).result = .ok product) :
    Product.Shaped (writesDocument config work) product.pieces := by
  cases work with
  | tokens paths format noComments quiet =>
      simp only [perform, Command.Tokens.perform] at done
      split at done
      · cases done
      · cases done
        rw [Command.Tokens.pieces, writesDocument]
        cases format.getD config.format with
        | text => exact ⟨[_], rfl⟩
        | json => exact ⟨_, rfl⟩
  | check paths quiet =>
      simp only [perform, Command.Check.perform] at done
      split at done
      · cases done
      · cases done
        rw [Command.Check.pieces]
        split
        · exact ⟨[], rfl⟩
        · exact ⟨[_], rfl⟩
  | codes code =>
      rw [perform, Command.Codes.perform] at done
      cases selected : (Command.Codes.mk code).selected <;> rw [selected] at done <;> cases done
      rename_i codes
      exact ⟨codes.map Command.Codes.line, List.map_map.symm⟩

/-- How a command ends on outputs of limited room: with what is in the way of its work, if anything
is, and else with all of its output or for want of room, in whatever portions it writes. -/
structure EndsInRoom (config : Config) (input : Input) (invocation : Invocation) : Prop where
  obstructed : ∀ failure, Obstacle input invocation failure → ∀ limit,
    (perform config input invocation.work).writeTo (.bounded limit) = .error failure
  free : Feasible input invocation → ∃ out summary,
    (perform config input invocation.work).Gives out summary ∧ ∀ limit,
      Room (writesDocument config invocation.work) out summary limit
        ((perform config input invocation.work).writeTo (.bounded limit))
  either : Feasible input invocation ∨ ∃ failure, Obstacle input invocation failure
  portions : ∀ product portions, (perform config input invocation.work).result = .ok product →
    Portions product.pieces portions → ∀ sink,
      Product.writeTo ⟨portions, product.summary⟩ sink =
        (perform config input invocation.work).writeTo sink
  empty : ∀ summary, (perform config input invocation.work).Gives "" summary → ∀ limit,
    (perform config input invocation.work).writeTo (.bounded limit) = .ok ("", summary)

theorem ends_in_room (config : Config) (input : Input) (invocation : Invocation) :
    EndsInRoom config input invocation := by
  have free : Feasible input invocation → ∃ out summary,
      (perform config input invocation.work).Gives out summary ∧ ∀ limit,
        Room (writesDocument config invocation.work) out summary limit
          ((perform config input invocation.work).writeTo (.bounded limit)) := by
    intro feasible
    obtain ⟨product, done, _⟩ := perform_free config (obstacle?_eq_none_iff.mpr feasible)
    refine ⟨product.text, product.summary, Performance.gives_of_result done, ?_⟩
    intro limit
    rw [Performance.writeTo, done]
    exact Product.room_of_shaped (perform_shaped done) limit
  have fails {failure : Failure} (obstacle : Obstacle input invocation failure) :
      (perform config input invocation.work).Fails failure :=
    Performance.fails_of_result (perform_obstructed config (obstacle?_eq_some_iff.mpr obstacle))
  have either : Feasible input invocation ∨ ∃ failure, Obstacle input invocation failure := by
    cases obstacle : obstacle? input invocation with
    | none => exact .inl (obstacle?_eq_none_iff.mp obstacle)
    | some failure => exact .inr ⟨failure, obstacle?_eq_some_iff.mp obstacle⟩
  constructor
  case obstructed => exact fun failure obstacle limit => (fails obstacle).result (.bounded limit)
  case free => exact free
  case either => exact either
  case portions =>
    intro product portions done cut sink
    rw [Product.writeTo_portions cut, Performance.writeTo, done]
    rfl
  case empty =>
    intro summary gives limit
    obtain feasible | ⟨failure, obstacle⟩ := either
    · obtain ⟨out, other, given, room⟩ := free feasible
      cases gives.symm.trans given
      exact (room limit).fits (Nat.zero_le limit)
    · cases gives.symm.trans ((fails obstacle).result .unbounded)

end CommandLine
end ScriptLexer
