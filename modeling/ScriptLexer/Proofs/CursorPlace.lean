import ScriptLexer.Cursor.Move
import ScriptLexer.Proofs.FaultLines
import ScriptLexer.Proofs.Slices

/-! A cursor is known from its text and the number of characters it has passed. Every operation
leads from one such cursor to another, and a slice up to it begins where a character does. -/

namespace ScriptLexer

def endsLineAt (text : List Char) (index : Nat) : Bool :=
  text[index]?.any isLineTerminator && !(text[index]? == some '\r' && text[index + 1]? == some '\n')

def lineEndsAmong (text : List Char) (count : Nat) : Nat :=
  (List.range count).countP (endsLineAt text)

theorem endsLineAt_zero (c : Char) (text : List Char) :
    endsLineAt (c :: text) 0 = Cursor.endsLine c text.head? := by
  simp [endsLineAt, Cursor.endsLine, List.head?_eq_getElem?]

theorem lineEndsAmong_append (read following : List Char) :
    lineEndsAmong (read ++ following) read.length = lineEnds read following := by
  induction read with
  | nil => rfl
  | cons c read ih =>
      have behind : (endsLineAt (c :: (read ++ following)) ∘ Nat.succ) =
          endsLineAt (read ++ following) := by
        funext index
        simp [endsLineAt]
      rw [List.cons_append, List.length_cons, lineEndsAmong, List.range_succ_eq_map,
        List.countP_cons, List.countP_map, behind, endsLineAt_zero, lineEnds, ← ih, Nat.add_comm]
      rfl

namespace Cursor

def place (text : List Char) (count : Nat) : Cursor :=
  ⟨text, text.drop count, byteLength (text.take count), 1 + lineEndsAmong text count⟩

theorem Standing.eq_place {cursor : Cursor} {read : List Char} (standing : cursor.Standing read) :
    cursor = place cursor.buffer read.length := by
  have line := standing.line
  rw [← lineEndsAmong_append, ← standing.buffer] at line
  have rest : cursor.buffer.drop read.length = cursor.rest := by
    rw [standing.buffer, List.drop_left]
  have passed : cursor.buffer.take read.length = read := by
    rw [standing.buffer, List.take_left]
  rw [place, rest, passed, ← standing.offset, ← line]

theorem ofText_eq_place (text : List Char) : ofText text = place text 0 :=
  (standing_ofText text).eq_place

section Place

variable {text : List Char} {count : Nat} (within : count ≤ text.length)
include within

theorem place_standing : (place text count).Standing (text.take count) := by
  have parts := List.take_append_drop count text
  refine ⟨⟨parts.symm, rfl⟩, ?_⟩
  have ends := lineEndsAmong_append (text.take count) (text.drop count)
  rw [parts, List.length_take, Nat.min_eq_left within] at ends
  rw [place, ends]

/-- With so few line terminators a counter of 32 bits shows the line of every place. -/
theorem place_line_toUInt32 (few : text.countP isLineTerminator < 2 ^ 32 - 1) :
    (UInt32.ofNat (place text count).line).toNat = (place text count).line := by
  have line := (place_standing within).line
  have passed := lineEnds_le_terminators (text.take count) (place text count).rest
  have fewer : (text.take count).countP isLineTerminator ≤ text.countP isLineTerminator :=
    (List.take_sublist count text).countP_le
  apply UInt32.toNat_ofNat_of_lt'
  rw [line, UInt32.size]
  omega

theorem place_advanceBy (steps : Nat) :
    (place text count).advanceBy steps = place text (count + min steps (text.length - count)) := by
  have moved := ((place_standing within).advanceBy steps).eq_place
  rw [advanceBy_buffer, List.length_append, List.length_take, List.length_take,
    Nat.min_eq_left within] at moved
  change _ = place text (count + min steps (text.drop count).length) at moved
  rwa [List.length_drop] at moved

theorem place_advanceWhile (holds : Char → Bool) :
    (place text count).advanceWhile holds =
      place text (count + ((text.drop count).takeWhile holds).length) := by
  have run := (List.takeWhile_prefix (l := text.drop count) holds).length_le
  rw [List.length_drop] at run
  change (place text count).advanceBy ((text.drop count).takeWhile holds).length = _
  rw [place_advanceBy within, Nat.min_eq_left run]

theorem place_unique {other : Nat} (withinToo : other ≤ text.length)
    (same : place text other = place text count) : other = count := by
  have rests := congrArg (fun cursor => cursor.rest.length) same
  simp only [place, List.length_drop] at rests
  omega

end Place

inductive Operation
  | move (step : Move)
  | advanceWhile (holds : Char → Bool)

namespace Operation

def textOver (text : List Char) : Operation → List Char
  | move (.resetTo other) => other
  | _ => text

def landing (text : List Char) (count : Nat) : Operation → Nat
  | advanceWhile holds => count + ((text.drop count).takeWhile holds).length
  | move step =>
      match step with
      | .advance => count + min 1 (text.length - count)
      | .advanceBy steps => count + min steps (text.length - count)
      | .advanceWhile member => count + ((text.drop count).takeWhile member.holds).length
      | .expect wanted =>
          if text[count]? = some wanted then count + min 1 (text.length - count) else count
      | .reset | .resetTo _ => 0
      | .current | .peek | .peekAt _ | .sliceFrom _ | .remaining | .buffer => count

end Operation

def perform (cursor : Cursor) : Operation → Cursor
  | .move step => (cursor.handle step).2
  | .advanceWhile holds => cursor.advanceWhile holds

def after (cursor : Cursor) (operations : List Operation) : Cursor :=
  operations.foldl perform cursor

section Operation

variable {text : List Char} {count : Nat} (within : count ≤ text.length)
include within

theorem place_expect (wanted : Char) :
    ((place text count).expect wanted).2 =
      place text (if text[count]? = some wanted then count + min 1 (text.length - count)
        else count) := by
  have first : (place text count).current? = text[count]? := List.head?_drop
  rw [expect, first]
  by_cases found : text[count]? = some wanted
  · rw [if_pos found, if_pos (beq_iff_eq.mpr found), ← advanceBy_one, place_advanceBy within]
  · rw [if_neg found, if_neg (fun same => found (beq_iff_eq.mp same))]

theorem landing_le (operation : Operation) :
    operation.landing text count ≤ (operation.textOver text).length := by
  have run (holds : Char → Bool) := (List.takeWhile_prefix (l := text.drop count) holds).length_le
  simp only [List.length_drop] at run
  have bound (holds : Char → Bool) :
      count + ((text.drop count).takeWhile holds).length ≤ text.length := by
    have := run holds
    omega
  cases operation with
  | advanceWhile holds => exact bound holds
  | move step =>
      cases step with
      | advanceWhile member => exact bound member.holds
      | advance | advanceBy =>
          simp only [Operation.landing, Operation.textOver]
          omega
      | expect =>
          simp only [Operation.landing, Operation.textOver]
          split <;> omega
      | reset | resetTo => exact Nat.zero_le _
      | _ => exact within

theorem place_perform (operation : Operation) :
    (place text count).perform operation =
      place (operation.textOver text) (operation.landing text count) := by
  cases operation with
  | advanceWhile holds => exact place_advanceWhile within holds
  | move step =>
      cases step with
      | advance => exact (advanceBy_one _).symm.trans (place_advanceBy within 1)
      | advanceBy steps => exact place_advanceBy within steps
      | advanceWhile member => exact place_advanceWhile within member.holds
      | expect wanted => exact place_expect within wanted
      | reset => exact ofText_eq_place text
      | resetTo other => exact ofText_eq_place other
      | _ => rfl

theorem place_after (operations : List Operation) :
    ∃ reached ≤ (operations.foldl Operation.textOver text).length,
      (place text count).after operations =
        place (operations.foldl Operation.textOver text) reached := by
  induction operations generalizing text count with
  | nil => exact ⟨count, within, rfl⟩
  | cons operation operations ih =>
      obtain ⟨reached, bound, landed⟩ := ih (landing_le within operation)
      refine ⟨reached, bound, ?_⟩
      rw [after, List.foldl_cons, place_perform within]
      exact landed

end Operation

/-- All that a cursor tells once it has passed `count` characters. -/
structure Reached (cursor : Cursor) (count : Nat) : Prop where
  within : count ≤ cursor.buffer.length
  offset : cursor.offset = (String.ofList (cursor.buffer.take count)).utf8ByteSize
  line : cursor.line = 1 + lineEndsAmong cursor.buffer count
  placed : cursor = place cursor.buffer count
  only : ∀ other ≤ cursor.buffer.length, cursor = place cursor.buffer other → other = count
  moved : ∀ steps, cursor.advanceBy steps =
    place cursor.buffer (count + min steps (cursor.buffer.length - count))
  ahead : ∀ steps, cursor.peekAt? steps = cursor.buffer[count + steps]?
  sliced : ∀ start, (cursor.sliceFrom? start).isSome = true ↔
    Boundary cursor.buffer start ∧ start ≤ cursor.offset
  joined : ∀ start slice, cursor.sliceFrom? start = some slice →
    ∃ front, byteLength front = start ∧ front ++ (slice ++ cursor.rest) = cursor.buffer

theorem place_reached {text : List Char} {count : Nat} (within : count ≤ text.length) :
    (place text count).Reached count := by
  have passed := (place_standing within).toHasRead
  refine ⟨within, byteLength_eq_utf8ByteSize _, rfl, rfl, ?_, place_advanceBy within, ?_, ?_, ?_⟩
  · intro other withinToo same
    exact place_unique within withinToo same.symm
  · intro steps
    exact List.getElem?_drop
  · intro start
    exact passed.sliceFrom?_isSome_iff
  · intro start slice found
    obtain ⟨front, parts, length⟩ := passed.sliceFrom?_eq_some_iff.mp found
    refine ⟨front, length, ?_⟩
    rw [← List.append_assoc, parts]
    exact passed.buffer.symm

end Cursor
end ScriptLexer
