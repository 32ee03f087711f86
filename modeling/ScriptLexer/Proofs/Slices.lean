import ScriptLexer.Proofs.Position

/-! Slices of a text between two bytes. There is one exactly where both bytes begin characters, and
the slice up to a cursor is one of them. -/

namespace ScriptLexer

/-- A character of `text` begins at byte `place`, or the text ends there. -/
def Boundary (text : List Char) (place : Nat) : Prop :=
  ∃ front, front <+: text ∧ byteLength front = place

theorem byteLength_pos {text : List Char} (visible : text ≠ []) : 0 < byteLength text := by
  obtain ⟨c, rest, rfl⟩ := List.exists_cons_of_ne_nil visible
  exact Nat.lt_of_lt_of_le c.utf8Size_pos (Nat.le_add_right _ _)

theorem prefix_of_byteLength_le {front other text : List Char} (leads : front <+: text)
    (leadsToo : other <+: text) (shorter : byteLength front ≤ byteLength other) :
    front <+: other := by
  rcases List.prefix_or_prefix_of_prefix leads leadsToo with within | ⟨more, rfl⟩
  · exact within
  · cases more with
    | nil => exact ⟨[], by rw [List.append_nil, List.append_nil]⟩
    | cons c more =>
        have positive := byteLength_pos (List.cons_ne_nil c more)
        rw [byteLength_append] at shorter
        omega

theorem eq_of_byteLength_eq {front other text : List Char} (leads : front <+: text)
    (leadsToo : other <+: text) (same : byteLength front = byteLength other) : front = other :=
  (prefix_of_byteLength_le leads leadsToo (Nat.le_of_eq same)).eq_of_length_le
    (prefix_of_byteLength_le leadsToo leads (Nat.le_of_eq same.symm)).length_le

theorem dropBytes?_eq_some_iff {place : Nat} {text tail : List Char} :
    dropBytes? place text = some tail ↔
      ∃ front, front ++ tail = text ∧ byteLength front = place := by
  constructor
  · intro found
    fun_induction dropBytes? place text with
    | case1 text =>
        obtain rfl := Option.some.inj found
        exact ⟨[], rfl, rfl⟩
    | case2 => cases found
    | case3 count c text fits ih =>
        obtain ⟨front, parts, length⟩ := ih found
        refine ⟨c :: front, by rw [List.cons_append, parts], ?_⟩
        rw [byteLength, length]
        omega
    | case4 => cases found
  · rintro ⟨front, rfl, rfl⟩
    exact dropBytes?_byteLength front tail

def slice? (text : List Char) (start stop : Nat) : Option (List Char) :=
  if start ≤ stop then
    (dropBytes? start text).bind fun tail =>
      (dropBytes? stop text).map fun rest => tail.take (tail.length - rest.length)
  else none

theorem slice?_eq_some_iff {text piece : List Char} {start stop : Nat} :
    slice? text start stop = some piece ↔
      ∃ front rest, front ++ (piece ++ rest) = text ∧ byteLength front = start ∧
        byteLength (front ++ piece) = stop := by
  constructor
  · intro found
    unfold slice? at found
    split at found
    · rename_i ordered
      obtain ⟨tail, begun, found⟩ := Option.bind_eq_some_iff.mp found
      obtain ⟨rest, ended, rfl⟩ := Option.map_eq_some_iff.mp found
      obtain ⟨front, parts, rfl⟩ := dropBytes?_eq_some_iff.mp begun
      obtain ⟨whole, partsToo, rfl⟩ := dropBytes?_eq_some_iff.mp ended
      obtain ⟨piece, rfl⟩ := prefix_of_byteLength_le ⟨tail, parts⟩ ⟨rest, partsToo⟩ ordered
      have left : tail = piece ++ rest := by
        rw [← partsToo, List.append_assoc] at parts
        exact List.append_cancel_left parts
      refine ⟨front, rest, ?_, rfl, ?_⟩
      all_goals rw [left, List.length_append, Nat.add_sub_cancel, List.take_left]
      exact left ▸ parts
    · cases found
  · rintro ⟨front, rest, rfl, rfl, rfl⟩
    have ordered : byteLength front ≤ byteLength (front ++ piece) := by
      rw [byteLength_append]
      exact Nat.le_add_right _ _
    have ended : dropBytes? (byteLength (front ++ piece)) (front ++ (piece ++ rest)) =
        some rest := by
      rw [← List.append_assoc]
      exact dropBytes?_byteLength _ _
    rw [slice?, if_pos ordered, dropBytes?_byteLength, ended, Option.bind_some, Option.map_some,
      List.length_append, Nat.add_sub_cancel, List.take_left]

theorem slice?_isSome_iff {text : List Char} {start stop : Nat} :
    (slice? text start stop).isSome = true ↔
      Boundary text start ∧ Boundary text stop ∧ start ≤ stop := by
  rw [Option.isSome_iff_exists]
  constructor
  · rintro ⟨piece, found⟩
    obtain ⟨front, rest, rfl, rfl, rfl⟩ := slice?_eq_some_iff.mp found
    refine ⟨⟨front, List.prefix_append _ _, rfl⟩, ⟨front ++ piece, ⟨rest, ?_⟩, rfl⟩, ?_⟩
    · exact List.append_assoc _ _ _
    · rw [byteLength_append]
      exact Nat.le_add_right _ _
  · rintro ⟨⟨front, leads, rfl⟩, ⟨whole, ⟨rest, rfl⟩, rfl⟩, ordered⟩
    obtain ⟨piece, rfl⟩ := prefix_of_byteLength_le leads ⟨rest, rfl⟩ ordered
    exact ⟨piece, slice?_eq_some_iff.mpr
      ⟨front, rest, (List.append_assoc _ _ _).symm, rfl, rfl⟩⟩

namespace Cursor

section Slice

variable {cursor : Cursor} {read : List Char} (passed : cursor.HasRead read)
include passed

theorem HasRead.boundary : Boundary cursor.buffer cursor.offset :=
  ⟨read, ⟨cursor.rest, passed.buffer.symm⟩, passed.offset.symm⟩

theorem HasRead.sliceFrom?_eq (start : Nat) :
    cursor.sliceFrom? start = slice? cursor.buffer start cursor.offset := by
  have ended : dropBytes? cursor.offset cursor.buffer = some cursor.rest := by
    rw [passed.buffer, passed.offset]
    exact dropBytes?_byteLength _ _
  simp only [Cursor.sliceFrom?, slice?, ended, Option.map_some]
  rw [Option.map_eq_bind]
  rfl

theorem HasRead.sliceFrom?_eq_some_iff {start : Nat} {piece : List Char} :
    cursor.sliceFrom? start = some piece ↔
      ∃ front, front ++ piece = read ∧ byteLength front = start := by
  rw [passed.sliceFrom?_eq, slice?_eq_some_iff]
  constructor
  · rintro ⟨front, rest, parts, rfl, reached⟩
    rw [passed.offset] at reached
    rw [← List.append_assoc] at parts
    exact ⟨front, eq_of_byteLength_eq ⟨rest, parts⟩ ⟨cursor.rest, passed.buffer.symm⟩ reached, rfl⟩
  · rintro ⟨front, rfl, rfl⟩
    exact ⟨front, cursor.rest, (List.append_assoc _ _ _).symm.trans passed.buffer.symm, rfl,
      passed.offset.symm⟩

theorem HasRead.sliceFrom?_isSome_iff {start : Nat} :
    (cursor.sliceFrom? start).isSome = true ↔
      Boundary cursor.buffer start ∧ start ≤ cursor.offset := by
  rw [passed.sliceFrom?_eq, slice?_isSome_iff]
  exact ⟨fun ⟨begun, _, ordered⟩ => ⟨begun, ordered⟩,
    fun ⟨begun, ordered⟩ => ⟨begun, passed.boundary, ordered⟩⟩

end Slice

end Cursor
end ScriptLexer
