import Mathlib.Data.Nat.Digits.Lemmas
import ScriptLexer.Proofs.Hexadecimal

/-! Hexadecimal digits read into a word of 32 bits. A product or sum of words that does not fit is
refused, so that no word on the way has wrapped around, and the reading comes to the number that the
digits spell or to nothing. -/

namespace ScriptLexer.Scan

def hexDigits : List Char :=
  ['0', '1', '2', '3', '4', '5', '6', '7', '8', '9', 'A', 'B', 'C', 'D', 'E', 'F']

def spelledValue (digits : List Char) : Nat :=
  Nat.ofDigits 16 (digits.map hexDigits.idxOf).reverse

def hexNumeral (value : Nat) : List Char := (Nat.toDigits 16 value).map Char.toUpper

theorem isHexDigit_iff_mem {c : Char} : isHexDigit c = true ↔ c ∈ hexDigits := by
  constructor
  · intro hexadecimal
    have range : (48 ≤ c.toNat ∧ c.toNat ≤ 57) ∨ (65 ≤ c.toNat ∧ c.toNat ≤ 70) := by
      simp only [isHexDigit, isDecimalDigit, Bool.or_eq_true, Bool.and_eq_true,
        decide_eq_true_eq] at hexadecimal
      exact hexadecimal.imp Char.isDigit_iff_toNat.mp id
    simp only [hexDigits, List.mem_cons, List.not_mem_nil, ← Char.toNat_inj, Char.reduceToNat]
    omega
  · have table : hexDigits.all isHexDigit = true := by decide
    exact List.all_eq_true.mp table c

theorem hexDigitValue?_of_mem {c : Char} (member : c ∈ hexDigits) :
    hexDigitValue? c = some (hexDigits.idxOf c) := by
  have table : hexDigits.all fun c => hexDigitValue? c = some (hexDigits.idxOf c) := by decide
  exact of_decide_eq_true (List.all_eq_true.mp table c member)

theorem hexDigitValue?_of_not_mem {c : Char} (outside : c ∉ hexDigits) :
    hexDigitValue? c = none := by
  have never : isHexDigit c = false := by
    apply Bool.eq_false_iff.mpr
    exact fun hexadecimal => outside (isHexDigit_iff_mem.mp hexadecimal)
  have decimal : isDecimalDigit c = false := (Bool.or_eq_false_iff.mp never).1
  simp [hexDigitValue?, never, decimal]

theorem spelledValue_append_singleton (digits : List Char) (c : Char) :
    spelledValue (digits ++ [c]) = spelledValue digits * 16 + hexDigits.idxOf c := by
  simp only [spelledValue, List.map_append, List.map_singleton, List.reverse_append,
    List.reverse_singleton, List.singleton_append, Nat.ofDigits_cons]
  omega

theorem spelledValue_zeros (zeros : Nat) (digits : List Char) :
    spelledValue (List.replicate zeros '0' ++ digits) = spelledValue digits := by
  have zero : hexDigits.idxOf '0' = 0 := rfl
  rw [spelledValue, List.map_append, List.map_replicate, zero, List.reverse_append,
    List.reverse_replicate, Nat.ofDigits_append_replicate_zero, spelledValue]

theorem hexadecimalValue_eq {digits : List Char} (hexadecimal : ∀ c ∈ digits, c ∈ hexDigits) :
    hexadecimalValue digits = spelledValue digits := by
  induction digits using List.reverseRecOn with
  | nil => rfl
  | append_singleton digits c ih =>
      obtain ⟨before, last⟩ := List.forall_mem_append.mp hexadecimal
      have digit := hexDigitValue?_of_mem (last c (List.mem_singleton_self c))
      rw [spelledValue_append_singleton, ← ih before, hexadecimalValue, List.foldl_append]
      simp [digit, hexadecimalValue]

theorem hexNumeral_spells (value : Nat) :
    (∀ c ∈ hexNumeral value, c ∈ hexDigits) ∧ spelledValue (hexNumeral value) = value := by
  have table : ∀ digit < 16, digit.digitChar.toUpper ∈ hexDigits ∧
      hexDigits.idxOf digit.digitChar.toUpper = digit := by decide
  induction value using Nat.strongRecOn with
  | ind value ih =>
    by_cases small : value < 16
    · obtain ⟨member, place⟩ := table value small
      have alone : hexNumeral value = [value.digitChar.toUpper] := by
        rw [hexNumeral, Nat.toDigits_of_lt_base small, List.map_singleton]
      rw [alone]
      exact ⟨by simpa using member, by simp [spelledValue, place]⟩
    · have parts : hexNumeral value =
          hexNumeral (value / 16) ++ [(value % 16).digitChar.toUpper] := by
        rw [hexNumeral, Nat.toDigits_of_base_le (by decide) (Nat.not_lt.mp small), List.map_append]
        rfl
      obtain ⟨member, place⟩ := table (value % 16) (Nat.mod_lt _ (by decide))
      obtain ⟨valid, spelled⟩ := ih (value / 16) (by omega)
      rw [parts, spelledValue_append_singleton, spelled, place]
      constructor
      · exact List.forall_mem_append.mpr ⟨valid, by simpa using member⟩
      · omega

example : hexNumeral 0x10FFFF = ['1', '0', 'F', 'F', 'F', 'F'] := by decide

theorem hexNumeral_ne_nil (value : Nat) : hexNumeral value ≠ [] := by
  simp [hexNumeral]

theorem addHexDigit_eq_some_iff {value next : Nat} {c : Char} :
    addHexDigit value c = some next ↔ c ∈ hexDigits ∧
      next = value * 16 + hexDigits.idxOf c ∧ next < hexadecimalLimit := by
  by_cases member : c ∈ hexDigits
  · simp only [addHexDigit, hexDigitValue?_of_mem member, Option.bind_eq_bind, Option.bind_some,
      Option.ite_none_right_eq_some, Option.some.injEq, member, true_and]
    constructor
    · rintro ⟨small, rfl⟩
      exact ⟨rfl, small⟩
    · rintro ⟨rfl, small⟩
      exact ⟨small, rfl⟩
  · simp [addHexDigit, hexDigitValue?_of_not_mem member, member]

theorem forall_mem_of_foldlM_addHexDigit {digits : List Char} {start value : Nat}
    (read : digits.foldlM addHexDigit start = some value) : ∀ c ∈ digits, c ∈ hexDigits := by
  induction digits generalizing start with
  | nil => exact List.forall_mem_nil _
  | cons c digits ih =>
      rw [List.foldlM_cons] at read
      obtain ⟨next, step, rest⟩ := Option.bind_eq_some_iff.mp read
      exact List.forall_mem_cons.mpr ⟨(addHexDigit_eq_some_iff.mp step).1, ih rest⟩

theorem foldlM_addHexDigit_eq_some_iff {digits : List Char} {value : Nat} :
    digits.foldlM addHexDigit 0 = some value ↔
      (∀ c ∈ digits, c ∈ hexDigits) ∧ spelledValue digits = value ∧ value < hexadecimalLimit := by
  have read (valid : ∀ c ∈ digits, c ∈ hexDigits) : digits.foldlM addHexDigit 0 =
      if spelledValue digits < hexadecimalLimit then some (spelledValue digits) else none := by
    have hexadecimal : ∀ c ∈ digits, isHexDigit c = true := fun c member =>
      isHexDigit_iff_mem.mpr (valid c member)
    rw [foldlM_addHexDigit hexadecimal (by decide), hexadecimalFrom_zero, hexadecimalValue_eq valid]
  constructor
  · intro found
    have valid := forall_mem_of_foldlM_addHexDigit found
    rw [read valid] at found
    obtain ⟨small, spelled⟩ := Option.ite_none_right_eq_some.mp found
    obtain rfl := Option.some.inj spelled
    exact ⟨valid, rfl, small⟩
  · rintro ⟨valid, rfl, small⟩
    rw [read valid, if_pos small]

theorem hexadecimal?_eq_some_iff {digits : List Char} {value : Nat} :
    hexadecimal? digits = some value ↔ digits ≠ [] ∧ (∀ c ∈ digits, c ∈ hexDigits) ∧
      spelledValue digits = value ∧ value < hexadecimalLimit := by
  rw [← foldlM_addHexDigit_eq_some_iff]
  cases digits with
  | nil => simp [hexadecimal?]
  | cons c digits => simp [hexadecimal?]

theorem hexadecimal?_numeral (zeros value : Nat) :
    hexadecimal? (List.replicate zeros '0' ++ hexNumeral value) =
      if value < hexadecimalLimit then some value else none := by
  obtain ⟨digital, spelled⟩ := hexNumeral_spells value
  have valid : ∀ c ∈ List.replicate zeros '0' ++ hexNumeral value, c ∈ hexDigits := by
    have zero : ∀ c ∈ List.replicate zeros '0', c ∈ hexDigits := fun c member =>
      List.eq_of_mem_replicate member ▸ List.mem_cons_self
    exact List.forall_mem_append.mpr ⟨zero, digital⟩
  have whole : spelledValue (List.replicate zeros '0' ++ hexNumeral value) = value :=
    (spelledValue_zeros zeros _).trans spelled
  ext read
  rw [hexadecimal?_eq_some_iff, whole, Option.ite_none_right_eq_some, Option.some.injEq]
  constructor
  · rintro ⟨_, _, rfl, small⟩
    exact ⟨small, rfl⟩
  · rintro ⟨small, rfl⟩
    exact ⟨by simp [hexNumeral_ne_nil], valid, rfl, small⟩

/-- The word that an operation comes to, unless it has wrapped around. -/
def fitting (value : Nat) (word : UInt32) : Option UInt32 :=
  if value < UInt32.size then some word else none

def checkedMul (first second : UInt32) : Option UInt32 :=
  fitting (first.toNat * second.toNat) (first * second)

def checkedAdd (first second : UInt32) : Option UInt32 :=
  fitting (first.toNat + second.toNat) (first + second)

/-- The value of a digit. Its letter may be of either case here. -/
def digitWord? (c : Char) : Option UInt32 :=
  if c.isDigit then some (c.val - '0'.val)
  else if 'a' ≤ c ∧ c ≤ 'f' then some (c.val - 'a'.val + 10)
  else if 'A' ≤ c ∧ c ≤ 'F' then some (c.val - 'A'.val + 10)
  else none

def addHexWord (word : UInt32) (c : Char) : Option UInt32 := do
  let digit ← (digitWord? c).filter fun _ => isHexDigit c
  let shifted ← checkedMul word 16
  checkedAdd shifted digit

def hexadecimalWord? : List Char → Option UInt32
  | [] => none
  | digits => digits.foldlM addHexWord 0

section Words

variable {first second word next : UInt32} {c : Char}

theorem fitting_eq_some_iff {value : Nat} (wraps : word.toNat = value % UInt32.size) :
    fitting value word = some next ↔ next.toNat = value := by
  rw [fitting, Option.ite_none_right_eq_some, Option.some.injEq]
  constructor
  · rintro ⟨fits, rfl⟩
    rw [wraps, Nat.mod_eq_of_lt fits]
  · rintro rfl
    have fits := next.toNat_lt_size
    rw [Nat.mod_eq_of_lt fits] at wraps
    exact ⟨fits, UInt32.toNat_inj.mp wraps⟩

theorem checkedMul_eq_some_iff :
    checkedMul first second = some word ↔ word.toNat = first.toNat * second.toNat :=
  fitting_eq_some_iff (UInt32.toNat_mul first second)

theorem checkedAdd_eq_some_iff :
    checkedAdd first second = some word ↔ word.toNat = first.toNat + second.toNat :=
  fitting_eq_some_iff (UInt32.toNat_add first second)

theorem filter_digitWord?_eq_some_iff :
    ((digitWord? c).filter fun _ => isHexDigit c) = some word ↔
      c ∈ hexDigits ∧ word.toNat = hexDigits.idxOf c := by
  have table : hexDigits.all fun c => digitWord? c = some (.ofNat (hexDigits.idxOf c)) := by decide
  rw [Option.filter_eq_some_iff, isHexDigit_iff_mem, and_comm]
  apply and_congr_right
  intro member
  have known := of_decide_eq_true (List.all_eq_true.mp table c member)
  have place : hexDigits.idxOf c < 16 := List.idxOf_lt_length_of_mem member
  have digit : (UInt32.ofNat (hexDigits.idxOf c)).toNat = hexDigits.idxOf c :=
    UInt32.toNat_ofNat_of_lt' (Nat.lt_trans place (by decide))
  rw [known, Option.some.injEq, ← UInt32.toNat_inj, digit, eq_comm]

theorem exists_word {value : Nat} (fits : value < UInt32.size) :
    ∃ word : UInt32, word.toNat = value :=
  ⟨.ofNat value, UInt32.toNat_ofNat_of_lt' fits⟩

theorem addHexWord_eq_some_iff :
    addHexWord word c = some next ↔
      c ∈ hexDigits ∧ next.toNat = word.toNat * 16 + hexDigits.idxOf c := by
  simp only [addHexWord, Option.bind_eq_bind, Option.bind_eq_some_iff,
    filter_digitWord?_eq_some_iff, checkedMul_eq_some_iff, checkedAdd_eq_some_iff]
  constructor
  · rintro ⟨digit, ⟨member, place⟩, shifted, product, sum⟩
    rw [product, place] at sum
    exact ⟨member, sum⟩
  · rintro ⟨member, sum⟩
    -- The sum is a word, so its two parts are words as well.
    have fits := next.toNat_lt_size
    obtain ⟨digit, place⟩ := exists_word (show hexDigits.idxOf c < UInt32.size by omega)
    obtain ⟨shifted, product⟩ := exists_word (show word.toNat * 16 < UInt32.size by omega)
    exact ⟨digit, ⟨member, place⟩, shifted, product, by rw [sum, product, place]⟩

theorem map_addHexWord (word : UInt32) (c : Char) :
    (addHexWord word c).map UInt32.toNat = addHexDigit word.toNat c := by
  ext value
  simp only [Option.map_eq_some_iff, addHexWord_eq_some_iff, addHexDigit_eq_some_iff]
  constructor
  · rintro ⟨next, ⟨member, sum⟩, rfl⟩
    exact ⟨member, sum, next.toNat_lt_size⟩
  · rintro ⟨member, sum, small⟩
    obtain ⟨next, rfl⟩ := exists_word small
    exact ⟨next, ⟨member, sum⟩, rfl⟩

theorem map_foldlM_addHexWord (digits : List Char) (word : UInt32) :
    (digits.foldlM addHexWord word).map UInt32.toNat =
      digits.foldlM addHexDigit word.toNat := by
  induction digits generalizing word with
  | nil => rfl
  | cons c digits ih =>
      rw [List.foldlM_cons, List.foldlM_cons, ← map_addHexWord]
      cases addHexWord word c with
      | none => rfl
      | some next => exact ih next

theorem map_hexadecimalWord? (digits : List Char) :
    (hexadecimalWord? digits).map UInt32.toNat = hexadecimal? digits := by
  cases digits with
  | nil => rfl
  | cons c digits => exact map_foldlM_addHexWord (c :: digits) 0

theorem toNat_of_foldlM_addHexWord {digits : List Char}
    (read : digits.foldlM addHexWord 0 = some word) : word.toNat = spelledValue digits := by
  have numbers := map_foldlM_addHexWord digits 0
  rw [read] at numbers
  exact (foldlM_addHexDigit_eq_some_iff.mp numbers.symm).2.1.symm

end Words

/-- Adding a digit to a word goes over a product and a sum that are both exact. -/
structure Unwrapped (front : List Char) (c : Char) (before after : UInt32) : Prop where
  word : before.toNat = spelledValue front
  product : (before * 16).toNat = spelledValue front * 16
  sum : after.toNat = spelledValue (front ++ [c])

theorem unwrapped_addHexWord {front : List Char} {c : Char} {before after : UInt32}
    (read : front.foldlM addHexWord 0 = some before) (step : addHexWord before c = some after) :
    Unwrapped front c before after := by
  have word := toNat_of_foldlM_addHexWord read
  obtain ⟨member, sum⟩ := addHexWord_eq_some_iff.mp step
  constructor
  case word => exact word
  case product =>
    have fits := after.toNat_lt
    have small : before.toNat * 16 < 2 ^ 32 := by omega
    rw [← word]
    exact (UInt32.toNat_mul before 16).trans (Nat.mod_eq_of_lt small)
  case sum => rw [sum, word, spelledValue_append_singleton]

/-- Digits are read exactly: what they spell comes out if it has no more than 32 bits, however many
zeros they begin with, and nothing else ever does. -/
structure Exact (digits : List Char) : Prop where
  spelled : ∀ value, hexadecimal? digits = some value ↔ digits ≠ [] ∧
    (∀ c ∈ digits, c ∈ hexDigits) ∧ spelledValue digits = value ∧ value < 2 ^ 32
  words : (hexadecimalWord? digits).map UInt32.toNat = hexadecimal? digits
  unwrapped : ∀ front c back before after, digits = front ++ c :: back →
    front.foldlM addHexWord 0 = some before → addHexWord before c = some after →
      Unwrapped front c before after

theorem hexadecimal_exact :
    (∀ digits, Exact digits) ∧ ∀ zeros value,
      hexadecimal? (List.replicate zeros '0' ++ hexNumeral value) =
        if value < 2 ^ 32 then some value else none := by
  constructor
  · intro digits
    constructor
    case spelled => exact fun value => hexadecimal?_eq_some_iff
    case words => exact map_hexadecimalWord? digits
    case unwrapped =>
      intro front c back before after _ read step
      exact unwrapped_addHexWord read step
  · exact hexadecimal?_numeral

theorem hexadecimal_exact_largest :
    let front := List.replicate 7 'F'
    front.foldlM addHexWord 0 = some 0xFFFFFFF ∧ addHexWord 0xFFFFFFF 'F' = some 0xFFFFFFFF ∧
      Unwrapped front 'F' 0xFFFFFFF 0xFFFFFFFF ∧
      hexadecimal? (List.replicate 9 '0' ++ hexNumeral 0xFFFFFFFF) = some 0xFFFFFFFF ∧
      hexadecimal? (hexNumeral 0x100000000) = none := by
  intro front
  have read : front.foldlM addHexWord 0 = some 0xFFFFFFF := by decide
  have step : addHexWord 0xFFFFFFF 'F' = some 0xFFFFFFFF := by decide
  obtain ⟨each, numerals⟩ := hexadecimal_exact
  refine ⟨read, step, (each (front ++ ['F'])).unwrapped front 'F' [] _ _ rfl read step, ?_, ?_⟩
  · exact numerals 9 0xFFFFFFFF
  · exact numerals 0 0x100000000

end ScriptLexer.Scan
