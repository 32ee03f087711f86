import ScriptLexer.Diagnostic.Console
import ScriptLexer.Proofs.Run

/-! What a diagnostic looks like, plain and in colour. The plain text is taken apart from its right
end: no code ends as another one does, and the line stands behind the last colon of what is left.
The coloured text is the plain one with colour codes in between. -/

namespace ScriptLexer

def ErrorCode.ending (code : ErrorCode) : List Char :=
  (" - error " ++ code.label ++ ": " ++ code.message).toList

theorem ErrorCode.eq_of_ending_suffix {first second : ErrorCode}
    (suffix : first.ending <:+ second.ending) : first = second := by
  have table : ∀ first ∈ all, ∀ second ∈ all, first.ending <:+ second.ending → first = second := by
    decide +kernel
  exact table first (mem_all first) second (mem_all second) suffix

theorem ErrorCode.eq_of_ended {front back : List Char} {first second : ErrorCode}
    (same : front ++ first.ending = back ++ second.ending) : front = back ∧ first = second := by
  have codes : first = second := by
    -- Two ends of one text: the shorter one is an end of the other.
    have here : first.ending <:+ back ++ second.ending := same ▸ List.suffix_append front _
    have there : second.ending <:+ back ++ second.ending := List.suffix_append back _
    rcases List.suffix_or_suffix_of_suffix here there with shorter | longer
    · exact eq_of_ending_suffix shorter
    · exact (eq_of_ending_suffix longer).symm
  subst codes
  exact ⟨List.append_cancel_right same, rfl⟩

/-- Read from the right, a number is the run of digits in front of the first colon. -/
theorem numbered_reverse (front : List Char) (number : Nat) :
    (front ++ ':' :: Nat.toDigits 10 number).reverse.takeWhile Char.isDigit =
        (Nat.toDigits 10 number).reverse ∧
      (front ++ ':' :: Nat.toDigits 10 number).reverse.dropWhile Char.isDigit =
        ':' :: front.reverse := by
  have digital : ∀ c ∈ (Nat.toDigits 10 number).reverse, c.isDigit = true := fun c member =>
    Nat.isDigit_of_mem_toDigits (by decide) (by decide) (List.mem_reverse.mp member)
  have stops : Stops Char.isDigit (':' :: front.reverse) := stops_cons rfl
  simpa using takeWhile_run digital stops

theorem eq_of_numbered {front back : List Char} {first second : Nat}
    (same : front ++ ':' :: Nat.toDigits 10 first = back ++ ':' :: Nat.toDigits 10 second) :
    front = back ∧ first = second := by
  obtain ⟨digits, colon⟩ := numbered_reverse front first
  obtain ⟨digits', colon'⟩ := numbered_reverse back second
  rw [same, digits', List.reverse_inj] at digits
  rw [same, colon'] at colon
  constructor
  · exact List.reverse_inj.mp (List.cons.inj colon).2.symm
  · calc
      first = Nat.ofDigitChars 10 (Nat.toDigits 10 first) 0 := Nat.ofDigitChars_ten_toDigits.symm
      _ = Nat.ofDigitChars 10 (Nat.toDigits 10 second) 0 := by rw [digits]
      _ = second := Nat.ofDigitChars_ten_toDigits

namespace Diagnostic

theorem plain_toList (diagnostic : Diagnostic) :
    diagnostic.plain.toList = diagnostic.source.toList ++
      ':' :: Nat.toDigits 10 diagnostic.line ++ diagnostic.code.ending := by
  simp [plain, ErrorCode.ending]

theorem plain_injective : Function.Injective plain := by
  intro first second same
  have texts := congrArg String.toList same
  rw [plain_toList, plain_toList] at texts
  obtain ⟨fronts, codes⟩ := ErrorCode.eq_of_ended texts
  obtain ⟨sources, lines⟩ := eq_of_numbered fronts
  cases first
  cases second
  rw [mk.injEq]
  exact ⟨String.toList_inj.mp sources, codes, lines⟩

def escape : Char := '\x1b'

/-- The parameters of a colour code are numbers with semicolons between them. -/
def isParameter (c : Char) : Bool := c.isDigit || c == ';'

def ColourCode (code : List Char) : Prop :=
  ∃ parameters, code = escape :: '[' :: parameters ++ ['m'] ∧ parameters.all isParameter = true

def behindCode? : List Char → Option (List Char)
  | first :: second :: text =>
      if first = escape ∧ second = '[' then
        match text.dropWhile isParameter with
        | 'm' :: rest => some rest
        | _ => none
      else none
  | _ => none

theorem behindCode?_code {code : List Char} (colours : ColourCode code) (rest : List Char) :
    behindCode? (code ++ rest) = some rest := by
  obtain ⟨parameters, rfl, valid⟩ := colours
  have stops : Stops isParameter ('m' :: rest) := stops_cons rfl
  simp [behindCode?, (takeWhile_run (List.all_eq_true.mp valid) stops).2]

theorem exists_code_of_behindCode? {text rest : List Char} (found : behindCode? text = some rest) :
    ∃ code, ColourCode code ∧ text = code ++ rest := by
  unfold behindCode? at found
  split at found
  case h_2 => cases found
  case h_1 first second text =>
    split at found
    case isFalse => cases found
    case isTrue opened =>
      obtain ⟨rfl, rfl⟩ := opened
      split at found
      case h_2 => cases found
      case h_1 behind left =>
        obtain rfl := Option.some.inj found
        have valid : (text.takeWhile isParameter).all isParameter = true := List.all_takeWhile
        have parts := List.takeWhile_append_dropWhile (p := isParameter) (l := text)
        rw [left] at parts
        generalize text.takeWhile isParameter = parameters at valid parts
        exact ⟨_, ⟨parameters, rfl, valid⟩, by simp [← parts]⟩

theorem behindCode?_eq_some_iff {text rest : List Char} :
    behindCode? text = some rest ↔ ∃ code, ColourCode code ∧ text = code ++ rest := by
  constructor
  · exact exists_code_of_behindCode?
  · rintro ⟨code, colours, rfl⟩
    exact behindCode?_code colours rest

theorem length_behindCode? {text rest : List Char} (found : behindCode? text = some rest) :
    rest.length < text.length := by
  obtain ⟨_, ⟨parameters, rfl, _⟩, rfl⟩ := behindCode?_eq_some_iff.mp found
  simp only [List.length_append, List.length_cons]
  omega

def withoutColour : List Char → List Char
  | [] => []
  | c :: text =>
      match _found : behindCode? (c :: text) with
      | some rest => withoutColour rest
      | none => c :: withoutColour text
  termination_by text => text.length
  decreasing_by
    · exact length_behindCode? _found
    · exact Nat.lt_succ_self text.length

theorem withoutColour_code {code : List Char} (colours : ColourCode code) (text : List Char) :
    withoutColour (code ++ text) = withoutColour text := by
  have found := behindCode?_code colours text
  obtain ⟨parameters, rfl, _⟩ := colours
  simp only [List.cons_append] at found ⊢
  rw [withoutColour]
  split
  · rename_i rest known
    rw [found] at known
    rw [Option.some.inj known]
  · rename_i nothing
    cases found.symm.trans nothing

theorem withoutColour_cons {c : Char} {text : List Char}
    (bare : ∀ code rest, ColourCode code → c :: text ≠ code ++ rest) :
    withoutColour (c :: text) = c :: withoutColour text := by
  rw [withoutColour]
  split
  · rename_i rest found
    obtain ⟨code, colours, parts⟩ := behindCode?_eq_some_iff.mp found
    exact absurd parts (bare code rest colours)
  · rfl

theorem withoutColour_append {front : List Char} (bare : escape ∉ front) (text : List Char) :
    withoutColour (front ++ text) = front ++ withoutColour text := by
  induction front with
  | nil => rfl
  | cons c front ih =>
      have later := ih (List.not_mem_of_not_mem_cons bare)
      rw [List.cons_append, withoutColour_cons, later, List.cons_append]
      -- A code that begins here, though it may end in `text`, brings in the character.
      rintro _ rest ⟨parameters, rfl, _⟩ same
      exact List.ne_of_not_mem_cons bare (List.cons.inj same).1.symm

theorem withoutColour_of_bare {text : List Char} (bare : escape ∉ text) :
    withoutColour text = text := by
  simpa [withoutColour] using withoutColour_append bare []

/-- A painter puts a colour code in front of a text and another one behind it, and nothing else. -/
structure Painter where
  start : List Char
  reset : List Char
  starts : ColourCode start
  resets : ColourCode reset

namespace Painter

def paint (painter : Painter) (text : String) : String :=
  String.ofList (painter.start ++ text.toList ++ painter.reset)

theorem withoutColour_paint (painter : Painter) {part : String} (bare : escape ∉ part.toList)
    (text : List Char) :
    withoutColour ((painter.paint part).toList ++ text) = part.toList ++ withoutColour text := by
  rw [paint, String.toList_ofList, List.append_assoc, List.append_assoc,
    withoutColour_code painter.starts, withoutColour_append bare, withoutColour_code painter.resets]

def foreground (colour : String) (valid : colour.toList.all isParameter = true) : Painter where
  start := escape :: '[' :: colour.toList ++ ['m']
  reset := escape :: '[' :: ['3', '9'] ++ ['m']
  starts := ⟨_, rfl, valid⟩
  resets := ⟨_, rfl, by decide⟩

theorem paint_foreground (colour : String) (valid : colour.toList.all isParameter = true)
    (text : String) : (foreground colour valid).paint text = Diagnostic.paint colour text := by
  apply String.toList_inj.mp
  simp [paint, foreground, Diagnostic.paint, escape]

end Painter

structure Palette where
  source : Painter
  line : Painter
  word : Painter
  label : Painter

def Palette.console : Palette where
  source := .foreground green (by decide)
  line := .foreground yellow (by decide)
  word := .foreground red (by decide)
  label := .foreground grey (by decide)

def paintedBy (palette : Palette) (diagnostic : Diagnostic) : String :=
  palette.source.paint diagnostic.source ++ ":" ++ palette.line.paint (toString diagnostic.line) ++
    " - " ++ palette.word.paint "error" ++ " " ++
    palette.label.paint (diagnostic.code.label ++ ":") ++ " " ++ diagnostic.code.message

theorem paintedBy_console (diagnostic : Diagnostic) :
    diagnostic.paintedBy .console = diagnostic.painted := by
  simp only [paintedBy, painted, Palette.console, Painter.paint_foreground]

theorem bare_toString (number : Nat) : escape ∉ (toString number).toList := by
  rw [Nat.toString_eq_repr, Nat.toList_repr]
  intro member
  cases Nat.isDigit_of_mem_toDigits (by decide) (by decide) member

theorem bare_code (code : ErrorCode) :
    escape ∉ (code.label ++ ":").toList ∧ escape ∉ code.message.toList := by
  have table : ∀ code ∈ ErrorCode.all,
      escape ∉ (code.label ++ ":").toList ∧ escape ∉ code.message.toList := by decide +kernel
  exact table code (ErrorCode.mem_all code)

theorem withoutColour_paintedBy {diagnostic : Diagnostic}
    (bare : escape ∉ diagnostic.source.toList) (palette : Palette) :
    withoutColour (diagnostic.paintedBy palette).toList = diagnostic.plain.toList := by
  obtain ⟨label, message⟩ := bare_code diagnostic.code
  have number := bare_toString diagnostic.line
  simp only [paintedBy, String.toList_append, List.append_assoc]
  rw [palette.source.withoutColour_paint bare, withoutColour_append (by decide),
    palette.line.withoutColour_paint number, withoutColour_append (by decide),
    palette.word.withoutColour_paint (by decide), withoutColour_append (by decide),
    palette.label.withoutColour_paint label, withoutColour_append (by decide),
    withoutColour_of_bare message]
  simp [plain]

theorem bare_plain {diagnostic : Diagnostic} (bare : escape ∉ diagnostic.source.toList) :
    escape ∉ diagnostic.plain.toList := by
  obtain ⟨label, message⟩ := bare_code diagnostic.code
  have number := bare_toString diagnostic.line
  rw [String.toList_append, List.mem_append, not_or] at label
  simp only [plain, String.toList_append, List.mem_append, not_or]
  exact ⟨⟨⟨⟨⟨⟨bare, by decide⟩, number⟩, by decide⟩, label.1⟩, by decide⟩, message⟩

/-- The renderings of a diagnostic. The plain one tells the source, the line and the code. The
coloured one has the same text with colour codes in it, and would have it in any palette. Only a name
that has the character of colour codes in it might lose some of its own with them. -/
structure Renderings (diagnostic : Diagnostic) : Prop where
  told : ∀ other, diagnostic.plain = other.plain → diagnostic = other
  plain : ∀ enabled, (Console.mk false enabled).render diagnostic = diagnostic.plain
  coloured : ∀ enabled,
    (Console.mk true enabled).render diagnostic = diagnostic.paintedBy .console
  bleached : escape ∉ diagnostic.source.toList → ∀ enabled,
    withoutColour ((Console.mk true enabled).render diagnostic).toList = diagnostic.plain.toList
  repainted : escape ∉ diagnostic.source.toList → ∀ palette,
    withoutColour (diagnostic.paintedBy palette).toList = diagnostic.plain.toList
  bare : escape ∉ diagnostic.source.toList → escape ∉ diagnostic.plain.toList

theorem rendered_alike (diagnostic : Diagnostic) : Renderings diagnostic := by
  have coloured (enabled : Bool) :
      (Console.mk true enabled).render diagnostic = diagnostic.paintedBy .console :=
    (paintedBy_console diagnostic).symm
  constructor
  case told => exact fun other same => plain_injective same
  case plain => exact fun enabled => rfl
  case coloured => exact coloured
  case bleached =>
    intro bare enabled
    rw [coloured]
    exact withoutColour_paintedBy bare .console
  case repainted => exact fun bare palette => withoutColour_paintedBy bare palette
  case bare => exact bare_plain

theorem rendered_alike_lookalike :
    let diagnostic : Diagnostic :=
      ⟨"a.ts:1 - error TS1010: '*/' expected.:[31m", .unterminatedStringLiteral, 4294967295⟩
    escape ∉ diagnostic.source.toList ∧ diagnostic.painted ≠ diagnostic.plain ∧
      withoutColour diagnostic.painted.toList =
        ("a.ts:1 - error TS1010: '*/' expected.:[31m:4294967295 - error TS1002: " ++
          "Unterminated string literal.").toList := by
  intro diagnostic
  have bare : escape ∉ diagnostic.source.toList := by decide
  refine ⟨bare, by decide +kernel, ?_⟩
  exact ((rendered_alike diagnostic).bleached bare true).trans (by decide +kernel)

end Diagnostic
end ScriptLexer
