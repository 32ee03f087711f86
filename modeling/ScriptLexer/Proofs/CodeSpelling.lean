import ScriptLexer.Proofs.ByteCursor
import ScriptLexer.Proofs.TextLines

/-! The texts that a code is known by: its number in decimal digits, behind any zeros, which a sign
and a label may precede, and white space around it all. Any other text is known for no code. The
label is cut off between bytes, and no cut falls inside a character. -/

namespace ScriptLexer

namespace Unicode

structure Trims (text body : List Char) : Prop where
  parts : ∃ lead trail, text = lead ++ (body ++ trail) ∧
    (∀ c ∈ lead, isWhiteSpace c = true) ∧ ∀ c ∈ trail, isWhiteSpace c = true
  starts : Stops isWhiteSpace body
  ends : Stops isWhiteSpace body.reverse

theorem trimStart_append {lead : List Char} (blank : ∀ c ∈ lead, isWhiteSpace c = true)
    (text : List Char) : trimStart (lead ++ text) = trimStart text :=
  List.dropWhile_append_of_pos blank

theorem trimStart_of_stops {text : List Char} (stops : Stops isWhiteSpace text) :
    trimStart text = text :=
  (takeWhile_stopped stops).2

theorem trims_trim (text : List Char) : Trims text (trim text) := by
  have front := List.takeWhile_append_dropWhile (p := isWhiteSpace) (l := text)
  have back : trim text ++ ((trimStart text).reverse.takeWhile isWhiteSpace).reverse =
      trimStart text := by
    have parts := List.takeWhile_append_dropWhile (p := isWhiteSpace) (l := (trimStart text).reverse)
    rw [trim, ← List.reverse_append, trimStart.eq_1 (trimStart text).reverse, parts,
      List.reverse_reverse]
  constructor
  case parts =>
    refine ⟨_, _, front.symm.trans (congrArg _ back.symm), fun _ => List.mem_takeWhile_imp, ?_⟩
    intro c member
    exact List.mem_takeWhile_imp (List.mem_reverse.mp member)
  case starts =>
    have stops : Stops isWhiteSpace (trimStart text) := stops_dropWhile isWhiteSpace text
    exact Stops.of_append (back.symm ▸ stops)
  case ends =>
    rw [trim, List.reverse_reverse]
    exact stops_dropWhile isWhiteSpace _

theorem Trims.trim_eq {text body : List Char} (trims : Trims text body) : trim text = body := by
  obtain ⟨⟨lead, trail, rfl, leading, trailing⟩, starts, ends⟩ := trims
  rw [trim, trimStart_append leading]
  cases body with
  | nil =>
      have nothing : trimStart trail = [] := List.dropWhile_eq_nil_iff.mpr trailing
      rw [List.nil_append, nothing]
      rfl
  | cons c body =>
      have visible : Stops isWhiteSpace (c :: body ++ trail) := starts
      have blank : ∀ c ∈ trail.reverse, isWhiteSpace c = true := by simpa using trailing
      rw [trimStart_of_stops visible, List.reverse_append, trimStart_append blank,
        trimStart_of_stops ends, List.reverse_reverse]

theorem trim_eq_iff {text body : List Char} : trim text = body ↔ Trims text body :=
  ⟨fun equal => equal ▸ trims_trim text, Trims.trim_eq⟩

end Unicode

theorem toNat_toLower (c : Char) :
    c.toLower.toNat = if 65 ≤ c.toNat ∧ c.toNat ≤ 90 then c.toNat + 32 else c.toNat := by
  have capital : (c.val ≥ 'A'.val ∧ c.val ≤ 'Z'.val) ↔ 65 ≤ c.toNat ∧ c.toNat ≤ 90 := by
    rw [ge_iff_le, UInt32.le_iff_toNat_le, UInt32.le_iff_toNat_le]
    exact Iff.rfl
  by_cases within : 65 ≤ c.toNat ∧ c.toNat ≤ 90
  · have lowered : c.toLower.val = c.val + 32 :=
      congrArg Char.val (dif_pos (capital.mpr within) : c.toLower = _)
    rw [if_pos within, Char.toNat, lowered, UInt32.toNat_add]
    exact Nat.mod_eq_of_lt (Nat.lt_of_le_of_lt (Nat.add_le_add_right within.2 32) (by decide))
  · have kept : c.toLower = c := dif_neg (within ∘ capital.mp)
    rw [if_neg within, kept]

/-- Besides itself, only its capital comes to a small letter. -/
theorem toLower_eq_iff {c small capital : Char} (range : 65 ≤ capital.toNat ∧ capital.toNat ≤ 90)
    (pair : small.toNat = capital.toNat + 32) : c.toLower = small ↔ c = small ∨ c = capital := by
  simp only [← Char.toNat_inj, toNat_toLower]
  split <;> omega

/-- `text` is `value` in decimal digits, with any number of zeros in front. -/
def Decimal (text : List Char) (value : Nat) : Prop :=
  ∃ zeros, text = List.replicate zeros '0' ++ Nat.toDigits 10 value

theorem toDigits_digit {c : Char} (digital : c.isDigit = true) :
    c.toNat - '0'.toNat < 10 ∧ Nat.toDigits 10 (c.toNat - '0'.toNat) = [c] := by
  obtain ⟨low, high⟩ : 48 ≤ c.toNat ∧ c.toNat ≤ 57 := Char.isDigit_iff_toNat.mp digital
  have small : c.toNat - '0'.toNat < 10 := by
    change c.toNat - 48 < 10
    omega
  have same : (c.toNat - '0'.toNat).digitChar = c := by
    rw [← Char.toNat_inj, Nat.toNat_digitChar_of_lt_ten small]
    change 48 + (c.toNat - 48) = c.toNat
    omega
  exact ⟨small, by rw [Nat.toDigits_of_lt_base small, same]⟩

theorem decimal_ofDigitChars {text : List Char} (present : text ≠ [])
    (digital : ∀ c ∈ text, c.isDigit = true) : Decimal text (Nat.ofDigitChars 10 text 0) := by
  -- The induction is on the digits from the right: behind nothing but zeros, the last digit is the
  -- number itself.
  induction text using List.reverseRecOn with
  | nil => exact absurd rfl present
  | append_singleton text c ih =>
      obtain ⟨before, last⟩ := List.forall_mem_append.mp digital
      obtain ⟨small, alone⟩ := toDigits_digit (last c (List.mem_singleton_self c))
      rw [Nat.ofDigitChars_append, Nat.ofDigitChars_cons, Nat.ofDigitChars_nil]
      generalize c.toNat - '0'.toNat = digit at small alone
      by_cases first : text = []
      · subst text
        exact ⟨0, by simp [alone]⟩
      · obtain ⟨zeros, parts⟩ := ih first before
        generalize Nat.ofDigitChars 10 text 0 = value at parts
        by_cases zero : value = 0
        · subst value
          exact ⟨zeros + 1, by simp [parts, alone, List.replicate_succ']⟩
        · refine ⟨zeros, ?_⟩
          rw [parts, ← Nat.toDigits_append_toDigits (by decide) (Nat.pos_of_ne_zero zero) small,
            alone, List.append_assoc]

theorem decimal_iff {text : List Char} {value : Nat} :
    Decimal text value ↔
      text ≠ [] ∧ (∀ c ∈ text, c.isDigit = true) ∧ Nat.ofDigitChars 10 text 0 = value := by
  constructor
  · rintro ⟨zeros, rfl⟩
    refine ⟨by simp, ?_, by simp [Nat.ofDigitChars_append]⟩
    rw [List.forall_mem_append]
    constructor
    · intro c member
      rw [List.eq_of_mem_replicate member]
      rfl
    · exact fun c member => Nat.isDigit_of_mem_toDigits (by decide) (by decide) member
  · rintro ⟨present, digital, rfl⟩
    exact decimal_ofDigitChars present digital

theorem ErrorCode.ofNumber?_eq_some_iff {number : Nat} {code : ErrorCode} :
    ofNumber? number = some code ↔ code.number = number := by
  constructor
  · exact number_of_ofNumber? number code
  · rintro rfl
    exact ofNumber?_number code

namespace Command.Codes

def Signed (text : List Char) (value : Nat) : Prop :=
  ∃ sign digits, (sign = [] ∨ sign = ['+']) ∧ text = sign ++ digits ∧ Decimal digits value

def Label (text : List Char) : Prop :=
  ∃ first second, text = [first, second] ∧ (first = 't' ∨ first = 'T') ∧
    (second = 's' ∨ second = 'S')

def Plain (text : List Char) : Prop := ∀ label rest, Label label → text ≠ label ++ rest

def Spells (code : ErrorCode) (text : List Char) : Prop :=
  ∃ label number, (label = [] ∨ Label label) ∧ text = label ++ number ∧
    Signed number code.number

def Names (text : String) (code : ErrorCode) : Prop :=
  ∃ body, Unicode.Trims text.toList body ∧ Spells code body

def readDigits? (digits : List Char) : Option Nat :=
  if digits.isEmpty || !digits.all Char.isDigit then none
  else if Nat.ofDigitChars 10 digits 0 < numberLimit then some (Nat.ofDigitChars 10 digits 0)
  else none

theorem readDigits?_eq_some_iff {digits : List Char} {value : Nat} :
    readDigits? digits = some value ↔ Decimal digits value ∧ value < numberLimit := by
  have guard : (digits.isEmpty || !digits.all Char.isDigit) = false ↔
      digits ≠ [] ∧ ∀ c ∈ digits, c.isDigit = true := by
    simp
  rw [decimal_iff, readDigits?]
  constructor
  · intro read
    split at read
    · cases read
    · rename_i valid
      obtain ⟨present, digital⟩ := guard.mp (Bool.eq_false_iff.mpr valid)
      split at read <;> cases read
      rename_i small
      exact ⟨⟨present, digital, rfl⟩, small⟩
  · rintro ⟨⟨present, digital, rfl⟩, small⟩
    rw [guard.mpr ⟨present, digital⟩, if_neg Bool.false_ne_true, if_pos small]

theorem readNumber?_plus (digits : List Char) :
    readNumber? ('+' :: digits) = readDigits? digits := by
  simp only [readNumber?, readDigits?, Nat.ofDigitChars_eq_foldl, Nat.mul_comm 10]

theorem readNumber?_unsigned {text : List Char} (unsigned : ∀ digits, text ≠ '+' :: digits) :
    readNumber? text = readDigits? text := by
  simp only [readNumber?, readDigits?, Nat.ofDigitChars_eq_foldl, Nat.mul_comm 10]

theorem readNumber?_eq_some_iff {text : List Char} {value : Nat} :
    readNumber? text = some value ↔ Signed text value ∧ value < numberLimit := by
  constructor
  · intro read
    by_cases signed : ∃ digits, text = '+' :: digits
    · obtain ⟨digits, rfl⟩ := signed
      rw [readNumber?_plus, readDigits?_eq_some_iff] at read
      exact ⟨⟨['+'], digits, .inr rfl, rfl, read.1⟩, read.2⟩
    · rw [readNumber?_unsigned (not_exists.mp signed), readDigits?_eq_some_iff] at read
      exact ⟨⟨[], text, .inl rfl, rfl, read.1⟩, read.2⟩
  · rintro ⟨⟨sign, digits, rfl | rfl, rfl, decimal⟩, small⟩
    · have unsigned : ∀ rest, text ≠ '+' :: rest := by
        rintro rest rfl
        cases (decimal_iff.mp decimal).2.1 '+' List.mem_cons_self
      rw [readNumber?_unsigned unsigned]
      exact readDigits?_eq_some_iff.mpr ⟨decimal, small⟩
    · rw [List.singleton_append, readNumber?_plus]
      exact readDigits?_eq_some_iff.mpr ⟨decimal, small⟩

theorem label_or_plain (text : List Char) :
    (∃ label rest, Label label ∧ text = label ++ rest) ∨ Plain text := by
  by_cases labelled : ∃ label rest, Label label ∧ text = label ++ rest
  · exact .inl labelled
  · exact .inr fun label rest labels same => labelled ⟨label, rest, labels, same⟩

theorem withoutLabel_append {label : List Char} (labels : Label label) (text : List Char) :
    withoutLabel (label ++ text) = text := by
  obtain ⟨first, second, rfl, begins, ends⟩ := labels
  simp [withoutLabel, begins, ends]

theorem withoutLabel_of_plain {text : List Char} (plain : Plain text) :
    withoutLabel text = text := by
  unfold withoutLabel
  split
  · rename_i first second digits
    rw [if_neg]
    intro labels
    simp only [Bool.and_eq_true, Bool.or_eq_true, beq_iff_eq] at labels
    exact plain [first, second] digits ⟨first, second, rfl, labels⟩ rfl
  · rfl

theorem Signed.plain {text : List Char} {value : Nat} (signed : Signed text value) :
    Plain text := by
  rintro label rest ⟨first, second, rfl, begins, _⟩ same
  -- Neither a digit nor a plus sign begins a label, so a number is not cut a second time.
  obtain ⟨sign, digits, rfl | rfl, rfl, decimal⟩ := signed
  · have digital := (decimal_iff.mp decimal).2.1 first
    subst same
    obtain rfl | rfl := begins <;> cases digital List.mem_cons_self
  · obtain ⟨rfl, _⟩ := List.cons.inj same
    obtain bad | bad := begins <;> cases bad

theorem map_toLower_eq_iff {front : List Char} :
    front.map Char.toLower = ErrorCode.labelStart.toList.map Char.toLower ↔ Label front := by
  have small : ErrorCode.labelStart.toList.map Char.toLower = ['t', 's'] := by decide
  have first {c : Char} : c.toLower = 't' ↔ c = 't' ∨ c = 'T' := toLower_eq_iff (by decide) rfl
  have second {c : Char} : c.toLower = 's' ↔ c = 's' ∨ c = 'S' := toLower_eq_iff (by decide) rfl
  rw [small]
  constructor
  · intro same
    obtain ⟨c, front, rfl, begins, same⟩ := List.map_eq_cons_iff.mp same
    obtain ⟨d, front, rfl, ends, same⟩ := List.map_eq_cons_iff.mp same
    obtain rfl := List.map_eq_nil_iff.mp same
    exact ⟨c, d, rfl, first.mp begins, second.mp ends⟩
  · rintro ⟨c, d, rfl, begins, ends⟩
    rw [List.map_cons, List.map_singleton, first.mpr begins, second.mpr ends]

theorem Label.byteLength_eq {label : List Char} (labels : Label label) :
    byteLength label = ErrorCode.labelStart.utf8ByteSize := by
  obtain ⟨first, second, rfl, rfl | rfl, rfl | rfl⟩ := labels <;> rfl

theorem number_lt_limit (code : ErrorCode) : code.number < numberLimit := by
  cases code <;> decide

theorem parse?_eq_some_iff {text : String} {code : ErrorCode} :
    parse? text = some code ↔ Names text code := by
  have names : Names text code ↔ Spells code (Unicode.trim text.toList) := by
    simp only [Names, ← Unicode.trim_eq_iff, exists_eq_left']
  rw [names, parse?]
  generalize Unicode.trim text.toList = body
  simp only [Option.bind_eq_bind, Option.bind_eq_some_iff, readNumber?_eq_some_iff,
    ErrorCode.ofNumber?_eq_some_iff]
  constructor
  · rintro ⟨value, ⟨signed, small⟩, rfl⟩
    obtain ⟨label, rest, labels, rfl⟩ | plain := label_or_plain body
    · rw [withoutLabel_append labels] at signed
      exact ⟨label, rest, .inr labels, rfl, signed⟩
    · rw [withoutLabel_of_plain plain] at signed
      exact ⟨[], body, .inl rfl, rfl, signed⟩
  · rintro ⟨label, number, rfl | labels, rfl, signed⟩
    · rw [withoutLabel_of_plain signed.plain]
      exact ⟨code.number, ⟨signed, number_lt_limit code⟩, rfl⟩
    · rw [withoutLabel_append labels]
      exact ⟨code.number, ⟨signed, number_lt_limit code⟩, rfl⟩

example : parse? "\u00a0tS+0001 " = some .unexpectedToken := by decide

/-- Cuts off the label by its bytes, if a character ends behind that many. -/
def cutLabel (text : List Char) : Run (List Char) :=
  match slice? text 0 ErrorCode.labelStart.utf8ByteSize with
  | some front =>
      if front.map Char.toLower = ErrorCode.labelStart.toList.map Char.toLower then
        slice text (byteLength front) (byteLength text)
      else pure text
  | none => pure text

def parseBytes (text : String) : Run (Option ErrorCode) := do
  let digits ← cutLabel (Unicode.trim text.toList)
  return readNumber? digits >>= ErrorCode.ofNumber?

theorem slice?_zero_eq_some_iff {text front : List Char} {stop : Nat} :
    slice? text 0 stop = some front ↔ ∃ rest, text = front ++ rest ∧ byteLength front = stop := by
  rw [slice?_eq_some_iff]
  constructor
  · rintro ⟨before, rest, rfl, nothing, reached⟩
    have first : before = [] := by
      by_contra visible
      exact Nat.ne_of_gt (byteLength_pos visible) nothing
    subst before
    exact ⟨rest, rfl, reached⟩
  · rintro ⟨rest, rfl, reached⟩
    exact ⟨[], rest, rfl, rfl, reached⟩

theorem cutLabel_eq (text : List Char) : cutLabel text = pure (withoutLabel text) := by
  obtain ⟨label, rest, labels, rfl⟩ | plain := label_or_plain text
  · have front : slice? (label ++ rest) 0 ErrorCode.labelStart.utf8ByteSize = some label :=
      slice?_zero_eq_some_iff.mpr ⟨rest, rfl, labels.byteLength_eq⟩
    have behind := slice_of_parts label rest []
    rw [List.append_nil] at behind
    simp only [cutLabel, front, if_pos (map_toLower_eq_iff.mpr labels), behind,
      withoutLabel_append labels]
  · rw [withoutLabel_of_plain plain, cutLabel]
    split
    · rename_i front found
      obtain ⟨rest, parts, _⟩ := slice?_zero_eq_some_iff.mp found
      rw [if_neg fun same => plain front rest (map_toLower_eq_iff.mp same) parts]
    · rfl

theorem parseBytes_eq (text : String) : parseBytes text = pure (parse? text) := by
  rw [parseBytes, cutLabel_eq]
  rfl

def entry (code : ErrorCode) : String := padRight labelWidth code.label ++ code.message

theorem line_eq (code : ErrorCode) : line code = entry code ++ "\n" := rfl

theorem line_injective : Function.Injective line := by
  have table : (ErrorCode.all.map line).Nodup := by decide +kernel
  exact fun first second same =>
    List.inj_on_of_nodup_map table (ErrorCode.mem_all first) (ErrorCode.mem_all second) same

theorem entry_inline (code : ErrorCode) : '\n' ∉ (entry code).toList := by
  have table : ∀ code ∈ ErrorCode.all, '\n' ∉ (entry code).toList := by decide +kernel
  exact table code (ErrorCode.mem_all code)

section Performed

variable {text : String} {code : ErrorCode}

theorem gives_line (known : parse? text = some code) :
    (Codes.mk (some text)).perform.Gives (line code) .empty := by
  simpa [Product.text, Piece.content] using Performance.gives_of_result (perform_known known)

theorem fails_unknown (unknown : parse? text = none) :
    (Codes.mk (some text)).perform.Fails (.unknownCode text) :=
  Performance.fails_of_result (perform_unknown unknown)

theorem exists_names_iff :
    (∃ code ∈ ErrorCode.all, Names text code) ↔ (parse? text).isSome = true := by
  simp only [← parse?_eq_some_iff, Option.isSome_iff_exists, ErrorCode.mem_all, true_and]

theorem gives_all : (Codes.mk none).perform.Gives (String.join (ErrorCode.all.map line)) .empty := by
  have done : (Codes.mk none).perform.result =
      .ok ⟨ErrorCode.all.map fun code => .text (line code), .empty⟩ := rfl
  simpa [Product.text, Piece.content, Function.comp_def] using Performance.gives_of_result done

theorem splitOn_lines : (String.join (ErrorCode.all.map line)).toList.splitOn '\n' =
    ErrorCode.all.map (fun code => (entry code).toList) ++ [[]] := by
  have inline : ∀ line ∈ ErrorCode.all.map fun code => (entry code).toList, '\n' ∉ line :=
    List.forall_mem_map.mpr fun code _ => entry_inline code
  rw [← splitOn_ended inline]
  simp [String.toList_join, List.flatMap_map, line_eq]

end Performed

/-- What is listed for a text: the line of the code that it is known for, one of those that the whole
listing is cut into, or else nothing. -/
structure Answers (text : String) : Prop where
  succeeds : (∃ out summary, (Codes.mk (some text)).perform.Gives out summary) ↔
    ∃ code ∈ ErrorCode.all, Names text code
  prints : ∀ code, (Codes.mk (some text)).perform.Gives (entry code ++ "\n") .empty ↔
    Names text code
  unique : ∀ first second, Names text first → Names text second → first = second
  refused : (∀ code ∈ ErrorCode.all, ¬Names text code) →
    (Codes.mk (some text)).perform.Fails (.unknownCode text)
  listed : ∃ out, (Codes.mk none).perform.Gives out .empty ∧
    out.toList.splitOn '\n' = ErrorCode.all.map (fun code => (entry code).toList) ++ [[]]
  sound : parseBytes text = pure (parse? text)

theorem listed_by_spelling (text : String) : Answers text := by
  have single {first second : ErrorCode} (one : Names text first) (other : Names text second) :
      first = second :=
    Option.some.inj ((parse?_eq_some_iff.mpr one).symm.trans (parse?_eq_some_iff.mpr other))
  constructor
  case succeeds =>
    rw [exists_names_iff]
    cases known : parse? text with
    | some code => exact iff_of_true ⟨_, _, gives_line known⟩ rfl
    | none =>
        refine iff_of_false ?_ Bool.false_ne_true
        rintro ⟨out, summary, gives⟩
        cases gives.symm.trans ((fails_unknown known).result .unbounded)
  case prints =>
    intro code
    rw [← line_eq, ← parse?_eq_some_iff]
    cases known : parse? text with
    | some other =>
        have gives := gives_line known
        constructor
        · intro given
          obtain ⟨same, _⟩ := Prod.mk.inj (Except.ok.inj (gives.symm.trans given))
          rw [line_injective same]
        · rintro ⟨⟩
          exact gives
    | none =>
        refine iff_of_false ?_ nofun
        intro given
        cases given.symm.trans ((fails_unknown known).result .unbounded)
  case unique => exact fun first second => single
  case refused =>
    intro none
    apply fails_unknown
    rw [← Option.not_isSome_iff_eq_none, ← exists_names_iff]
    rintro ⟨code, among, names⟩
    exact none code among names
  case listed => exact ⟨_, gives_all, splitOn_lines⟩
  case sound => exact parseBytes_eq text

end Command.Codes
end ScriptLexer
