import ScriptLexer.Json
import ScriptLexer.Proofs.Run

/-! Reading JSON. The reader takes any layout and any escape, also those that printing never writes;
of the numbers it takes the natural ones, which are all that values here can hold. What is printed
reads back as the value it was printed from. -/

namespace ScriptLexer

abbrev JsonReader (α : Type) := List Char → Option (α × List Char)

namespace JsonReader

def isSpace (c : Char) : Bool := c == ' ' || c == '\t' || c == '\n' || c == '\r'

def skipSpace (text : List Char) : List Char := text.dropWhile isSpace

def keep {α : Type} (first : α) (left : List α × List Char) : List α × List Char :=
  (first :: left.1, left.2)

def hexValue? (c : Char) : Option Nat :=
  (List.range 16).find? fun digit =>
    Json.hexDigit digit == c || (Json.hexDigit digit).toUpper == c

def unit? (text : List Char) : Option Nat :=
  if text.length < 4 then none
  else (text.take 4).foldlM (fun unit c => (hexValue? c).map (16 * unit + ·)) 0

def character? (point : Nat) : Option Char :=
  if valid : point.isValidChar then some (Char.ofNatAux point valid) else none

def isLeading (unit : Nat) : Bool := 0xD800 ≤ unit && unit ≤ 0xDBFF

def isTrailing (unit : Nat) : Bool := 0xDC00 ≤ unit && unit ≤ 0xDFFF

/-- The character that two units stand for together. -/
def paired? (leading trailing : Nat) : Option Char :=
  if isTrailing trailing then
    character? (0x10000 + 0x400 * (leading - 0xD800) + (trailing - 0xDC00))
  else none

def units? (text : List Char) : Option (Char × Nat) := do
  let first ← unit? text
  if isLeading first then
    match text.drop 4 with
    | '\\' :: 'u' :: text => return (← paired? first (← unit? text), 10)
    | _ => none
  else return (← character? first, 4)

def escaped? : List Char → Option (Char × Nat)
  | 'u' :: text => (units? text).map fun (c, length) => (c, length + 1)
  | '\x22' :: _ => some ('\x22', 1)
  | '\\' :: _ => some ('\\', 1)
  | '/' :: _ => some ('/', 1)
  | 'b' :: _ => some ('\x08', 1)
  | 'f' :: _ => some ('\x0c', 1)
  | 'n' :: _ => some ('\n', 1)
  | 'r' :: _ => some ('\r', 1)
  | 't' :: _ => some ('\t', 1)
  | _ => none

/-- A string behind its opening quote. The first `skip` characters have been read with an escape. -/
def string (skip : Nat) : JsonReader (List Char)
  | [] => none
  | c :: text =>
      match skip with
      | skip + 1 => string skip text
      | 0 =>
          if c = '\x22' then some ([], text)
          else if c = '\\' then
            (escaped? text).bind fun (escaped, length) => (string length text).map (keep escaped)
          else if c.toNat < 0x20 then none
          else (string 0 text).map (keep c)

def number : JsonReader Nat := fun text =>
  let digits := text.takeWhile Char.isDigit
  let spelled := Nat.ofDigitChars 10 digits 0
  if digits = Nat.toDigits 10 spelled then some (spelled, text.dropWhile Char.isDigit) else none

def after? (wanted : Char) (text : List Char) : Option (List Char) :=
  [wanted].isPrefixOf? (skipSpace text)

def member (content : JsonReader Json) : JsonReader (String × Json) := fun text => do
  let (name, rest) ← string 0 (← after? '\x22' text)
  let (read, rest) ← content (← after? ':' rest)
  return ((String.ofList name, read), rest)

mutual

/-- A value, in front of which there may be space. Every step takes a character, so that as many
steps as there are characters are enough. -/
def value : Nat → JsonReader Json
  | 0, _ => none
  | fuel + 1, text =>
      match skipSpace text with
      | 'n' :: 'u' :: 'l' :: 'l' :: rest => some (.null, rest)
      | '\x22' :: text => (string 0 text).map fun (content, rest) =>
          (.text (String.ofList content), rest)
      | '[' :: text =>
          match after? ']' text with
          | some rest => some (.list [], rest)
          | none => do
              let (item, rest) ← value fuel text
              let (others, rest) ← items fuel rest
              return (.list (item :: others), rest)
      | '\x7b' :: text =>
          match after? '\x7d' text with
          | some rest => some (.object [], rest)
          | none => do
              let (first, rest) ← member (value fuel) text
              let (others, rest) ← members fuel rest
              return (.object (first :: others), rest)
      | text => (number text).map fun (content, rest) => (.number content, rest)

def items : Nat → JsonReader (List Json)
  | 0, _ => none
  | fuel + 1, text =>
      match after? ',' text with
      | some text => do
          let (item, rest) ← value fuel text
          let (others, rest) ← items fuel rest
          return (item :: others, rest)
      | none => return ([], ← after? ']' text)

def members : Nat → JsonReader (List (String × Json))
  | 0, _ => none
  | fuel + 1, text =>
      match after? ',' text with
      | some text => do
          let (first, rest) ← member (value fuel) text
          let (others, rest) ← members fuel rest
          return (first :: others, rest)
      | none => return ([], ← after? '\x7d' text)

end

theorem hexValue?_hexDigit : ∀ digit < 16, hexValue? (Json.hexDigit digit) = some digit := by
  decide

theorem character?_toNat (c : Char) : character? c.toNat = some c := by
  have valid : c.toNat.isValidChar := c.valid
  rw [character?, dif_pos valid]
  rfl

theorem units?_control (c : Char) (text : List Char) (low : c.toNat < 0x20) :
    units? ('0' :: '0' :: Json.hexDigit (c.toNat / 16) :: Json.hexDigit (c.toNat % 16) :: text) =
      some (c, 4) := by
  have upper := hexValue?_hexDigit (c.toNat / 16) (by omega)
  have lower := hexValue?_hexDigit (c.toNat % 16) (by omega)
  have zero : hexValue? '0' = some 0 := by decide
  have unit : unit? ('0' :: '0' :: Json.hexDigit (c.toNat / 16) ::
      Json.hexDigit (c.toNat % 16) :: text) = some c.toNat := by
    simp [unit?, zero, upper, lower]
    omega
  have single : isLeading c.toNat = false := by
    simp [isLeading]
    omega
  simp [units?, unit, single, character?_toNat]

theorem string_escape (c : Char) (text : List Char) :
    string 0 (Json.escape c ++ text) = (string 0 text).map (keep c) := by
  unfold Json.escape
  split
  case h_8 quote backslash _ _ _ _ _ =>
    split
    · rename_i low
      simp [string, escaped?, units?_control c text low]
    · rename_i high
      rw [List.singleton_append, string, if_neg quote, if_neg backslash, if_neg high]
  all_goals rfl

theorem quote_append (content : String) (rest : List Char) :
    Json.quote content ++ rest =
      '\x22' :: (content.toList.flatMap Json.escape ++ '\x22' :: rest) := by
  simp [Json.quote]

theorem string_quoted (content rest : List Char) :
    string 0 (content.flatMap Json.escape ++ '\x22' :: rest) = some (content, rest) := by
  induction content with
  | nil => rfl
  | cons c content ih =>
      rw [List.flatMap_cons, List.append_assoc, string_escape, ih]
      rfl

theorem toList_toString (content : Nat) :
    (toString content).toList = Nat.toDigits 10 content := by
  rw [Nat.toString_eq_ofList_toDigits, String.toList_ofList]

theorem exists_head_toString (content : Nat) :
    ∃ c digits, (toString content).toList = c :: digits ∧ c.isDigit = true := by
  obtain ⟨c, digits, spelled⟩ := List.exists_cons_of_ne_nil (@Nat.toDigits_ne_nil content 10)
  have member : c ∈ Nat.toDigits 10 content := spelled ▸ List.mem_cons_self
  exact ⟨c, digits, (toList_toString content).trans spelled,
    Nat.isDigit_of_mem_toDigits (by decide) (by decide) member⟩

theorem number_toString (content : Nat) {rest : List Char} (stops : Stops Char.isDigit rest) :
    number ((toString content).toList ++ rest) = some (content, rest) := by
  have digits : ∀ c ∈ Nat.toDigits 10 content, c.isDigit = true := fun c member =>
    Nat.isDigit_of_mem_toDigits (by decide) (by decide) member
  obtain ⟨run, left⟩ := takeWhile_run digits stops
  rw [toList_toString]
  simp only [number, run, left, Nat.ofDigitChars_ten_toDigits, if_true]

theorem isSpace_of_mem_newLine (depth : Nat) : ∀ c ∈ Json.newLine depth, isSpace c = true := by
  intro c member
  rcases List.mem_cons.mp member with rfl | member
  · rfl
  · rw [List.eq_of_mem_replicate member]
    rfl

theorem not_isSpace_of_isDigit {c : Char} (digit : c.isDigit = true) : isSpace c = false := by
  apply Bool.eq_false_iff.mpr
  intro space
  have kinds : c = ' ' ∨ c = '\t' ∨ c = '\n' ∨ c = '\r' := by
    simpa [isSpace, or_assoc] using space
  rcases kinds with rfl | rfl | rfl | rfl <;> cases digit

theorem skipSpace_visible {c : Char} (visible : isSpace c = false) (text : List Char) :
    skipSpace (c :: text) = c :: text :=
  (takeWhile_stopped (stops_cons visible)).2

theorem after?_visible {c : Char} (visible : isSpace c = false) (wanted : Char)
    (text : List Char) : after? wanted (c :: text) = if wanted = c then some text else none := by
  rw [after?, skipSpace_visible visible]
  change (if wanted == c then some text else none) = if wanted = c then some text else none
  simp only [beq_iff_eq]

section Gap

variable {gap : List Char} (blank : ∀ c ∈ gap, isSpace c = true)
include blank

theorem skipSpace_gap (text : List Char) : skipSpace (gap ++ text) = skipSpace text :=
  List.dropWhile_append_of_pos blank

theorem after?_gap (wanted : Char) (text : List Char) :
    after? wanted (gap ++ text) = after? wanted text := by
  rw [after?, skipSpace_gap blank, after?]

theorem value_gap (fuel : Nat) (text : List Char) : value fuel (gap ++ text) = value fuel text := by
  cases fuel with
  | zero => rfl
  | succ fuel => simp only [value, skipSpace_gap blank]

theorem member_gap (reader : JsonReader Json) (text : List Char) :
    member reader (gap ++ text) = member reader text := by
  simp only [member, after?_gap blank]

end Gap

section Rules

variable {fuel : Nat} {text middle rest : List Char}

theorem value_number (content : Nat) (stops : Stops Char.isDigit rest) :
    value (fuel + 1) ((toString content).toList ++ rest) = some (.number content, rest) := by
  have read := number_toString content stops
  obtain ⟨c, digits, spelled, digit⟩ := exists_head_toString content
  rw [spelled, List.cons_append] at read ⊢
  rw [value, skipSpace_visible (not_isSpace_of_isDigit digit)]
  split
  case h_5 => rw [read, Option.map_some]
  all_goals
    rename_i start
    obtain ⟨rfl, _⟩ := List.cons.inj start
    cases digit

theorem value_quote (content : String) :
    value (fuel + 1) (Json.quote content ++ rest) = some (.text content, rest) := by
  rw [quote_append, value, skipSpace_visible rfl]
  simp [string_quoted]

theorem member_quote {content : Json} (name : String)
    (read : value fuel middle = some (content, rest)) :
    member (value fuel) (Json.quote name ++ ':' :: ' ' :: middle) =
      some ((name, content), rest) := by
  have spaced : value fuel (' ' :: middle) = some (content, rest) := by
    rw [← read]
    exact @value_gap [' '] (List.forall_mem_singleton.mpr rfl) fuel middle
  rw [quote_append, member, after?_visible rfl]
  simp [string_quoted, after?_visible (c := ':') rfl, spaced]

theorem value_list {item : Json} {others : List Json} (filled : after? ']' text = none)
    (first : value fuel text = some (item, middle))
    (later : items fuel middle = some (others, rest)) :
    value (fuel + 1) ('[' :: text) = some (.list (item :: others), rest) := by
  rw [value, skipSpace_visible rfl]
  simp [filled, first, later]

theorem value_object {first : String × Json} {others : List (String × Json)}
    (filled : after? '\x7d' text = none) (read : member (value fuel) text = some (first, middle))
    (later : members fuel middle = some (others, rest)) :
    value (fuel + 1) ('\x7b' :: text) = some (.object (first :: others), rest) := by
  rw [value, skipSpace_visible rfl]
  simp [filled, read, later]

theorem items_cons {item : Json} {others : List Json}
    (first : value fuel text = some (item, middle))
    (later : items fuel middle = some (others, rest)) :
    items (fuel + 1) (',' :: text) = some (item :: others, rest) := by
  rw [items, after?_visible rfl]
  simp [first, later]

theorem members_cons {first : String × Json} {others : List (String × Json)}
    (read : member (value fuel) text = some (first, middle))
    (later : members fuel middle = some (others, rest)) :
    members (fuel + 1) (',' :: text) = some (first :: others, rest) := by
  rw [members, after?_visible rfl]
  simp [read, later]

end Rules

theorem exists_head_layout (content : Json) (depth : Nat) :
    ∃ c text, content.layout depth = c :: text ∧ isSpace c = false ∧ c ≠ ']' := by
  cases content with
  | null => exact ⟨'n', _, rfl, rfl, by decide⟩
  | number content =>
      obtain ⟨c, digits, spelled, digit⟩ := exists_head_toString content
      refine ⟨c, digits, spelled, not_isSpace_of_isDigit digit, ?_⟩
      rintro rfl
      cases digit
  | text content => exact ⟨'\x22', _, rfl, rfl, by decide⟩
  | list content =>
      cases content with
      | nil => exact ⟨'[', _, rfl, rfl, by decide⟩
      | cons item others => exact ⟨'[', _, rfl, rfl, by decide⟩
  | object content =>
      cases content with
      | nil => exact ⟨'\x7b', _, rfl, rfl, by decide⟩
      | cons first others => exact ⟨'\x7b', _, rfl, rfl, by decide⟩

theorem stops_layoutItems (depth : Nat) (others : List Json) (rest : List Char) :
    Stops Char.isDigit (Json.layoutItems depth others ++ rest) := by
  cases others with
  | nil => exact stops_cons rfl
  | cons item others => exact stops_cons rfl

theorem stops_layoutMembers (depth : Nat) (others : List (String × Json)) (rest : List Char) :
    Stops Char.isDigit (Json.layoutMembers depth others ++ rest) := by
  cases others with
  | nil => exact stops_cons rfl
  | cons first others => exact stops_cons rfl

mutual

theorem value_layout (content : Json) (depth fuel : Nat) {rest : List Char}
    (stops : Stops Char.isDigit rest) (enough : (content.layout depth).length < fuel) :
    value fuel (content.layout depth ++ rest) = some (content, rest) := by
  -- The recursion is on the value, along with what follows an item or a member inside of it.
  cases fuel with
  | zero => cases enough
  | succ fuel =>
      cases content with
      | null => rfl
      | number content => exact value_number content stops
      | text content => exact value_quote content
      | list content =>
          cases content with
          | nil => rfl
          | cons item others =>
              simp only [Json.layout, List.length_cons, List.length_append] at enough
              have first := value_layout item (depth + 1) fuel
                (stops_layoutItems depth others rest) (by omega)
              have later := items_layout others depth fuel rest (by omega)
              obtain ⟨c, text, opened, visible, other⟩ := exists_head_layout item (depth + 1)
              rw [← value_gap (isSpace_of_mem_newLine (depth + 1))] at first
              have filled : after? ']' (Json.newLine (depth + 1) ++ (item.layout (depth + 1) ++
                  (Json.layoutItems depth others ++ rest))) = none := by
                rw [after?_gap (isSpace_of_mem_newLine _), opened, List.cons_append,
                  after?_visible visible, if_neg other.symm]
              simpa [Json.layout] using value_list filled first later
      | object content =>
          cases content with
          | nil => rfl
          | cons entry others =>
              obtain ⟨name, content⟩ := entry
              simp only [Json.layout, List.length_cons, List.length_append] at enough
              have first := value_layout content (depth + 1) fuel
                (stops_layoutMembers depth others rest) (by omega)
              have later := members_layout others depth fuel rest (by omega)
              have entered := member_quote name first
              rw [← member_gap (isSpace_of_mem_newLine (depth + 1))] at entered
              have filled : after? '\x7d' (Json.newLine (depth + 1) ++ (Json.quote name ++
                  ':' :: ' ' :: (content.layout (depth + 1) ++
                    (Json.layoutMembers depth others ++ rest)))) = none := by
                rw [after?_gap (isSpace_of_mem_newLine _), quote_append, after?_visible rfl]
                rfl
              simpa [Json.layout] using value_object filled entered later

theorem items_layout (others : List Json) (depth fuel : Nat) (rest : List Char)
    (enough : (Json.layoutItems depth others).length < fuel) :
    items fuel (Json.layoutItems depth others ++ rest) = some (others, rest) := by
  cases fuel with
  | zero => cases enough
  | succ fuel =>
      cases others with
      | nil =>
          simp only [Json.layoutItems, List.append_assoc, items,
            after?_gap (isSpace_of_mem_newLine depth)]
          rfl
      | cons item others =>
          simp only [Json.layoutItems, List.length_cons, List.length_append] at enough
          have first := value_layout item (depth + 1) fuel
            (stops_layoutItems depth others rest) (by omega)
          have later := items_layout others depth fuel rest (by omega)
          rw [← value_gap (isSpace_of_mem_newLine (depth + 1))] at first
          simpa [Json.layoutItems] using items_cons first later

theorem members_layout (others : List (String × Json)) (depth fuel : Nat) (rest : List Char)
    (enough : (Json.layoutMembers depth others).length < fuel) :
    members fuel (Json.layoutMembers depth others ++ rest) = some (others, rest) := by
  cases fuel with
  | zero => cases enough
  | succ fuel =>
      cases others with
      | nil =>
          simp only [Json.layoutMembers, List.append_assoc, members,
            after?_gap (isSpace_of_mem_newLine depth)]
          rfl
      | cons entry others =>
          obtain ⟨name, content⟩ := entry
          simp only [Json.layoutMembers, List.length_cons, List.length_append] at enough
          have first := value_layout content (depth + 1) fuel
            (stops_layoutMembers depth others rest) (by omega)
          have later := members_layout others depth fuel rest (by omega)
          have entered := member_quote name first
          rw [← member_gap (isSpace_of_mem_newLine (depth + 1))] at entered
          simpa [Json.layoutMembers] using members_cons entered later

end

end JsonReader

def Json.parse? (content : String) : Option Json := do
  let (value, rest) ← JsonReader.value (content.toList.length + 1) content.toList
  if (JsonReader.skipSpace rest).isEmpty then return value else none

theorem Json.parse?_print (content : Json) {ending : String}
    (blank : ∀ c ∈ ending.toList, JsonReader.isSpace c = true) :
    Json.parse? (content.print ++ ending) = some content := by
  have stops : Stops Char.isDigit ending.toList := by
    intro c first
    apply Bool.eq_false_iff.mpr
    intro digit
    have space := blank c (List.mem_of_head? first)
    exact Bool.false_ne_true ((JsonReader.not_isSpace_of_isDigit digit).symm.trans space)
  have spelled : (content.print ++ ending).toList = content.layout 0 ++ ending.toList := by
    rw [String.toList_append, print, String.toList_ofList]
  have nothing : JsonReader.skipSpace ending.toList = [] := by
    rw [← List.append_nil ending.toList]
    exact JsonReader.skipSpace_gap blank []
  have read := JsonReader.value_layout content 0 ((content.layout 0 ++ ending.toList).length + 1)
    stops (by rw [List.length_append]; omega)
  rw [parse?, spelled, read]
  simp [nothing]

/-- Another layout, and escapes that printing does not write. -/
example : Json.parse? "[ null,\n\"\\u00E9\\ud83d\\uDE00\\/\" ,[],10]" =
    some (.list [.null, .text "é😀/", .list [], .number 10]) := by
  cbv

end ScriptLexer
