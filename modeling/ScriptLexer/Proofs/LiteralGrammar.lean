import Mathlib
import ScriptLexer.Proofs.Hexadecimal
import ScriptLexer.Proofs.Literal
import ScriptLexer.Proofs.Pull

/-! The grammar of string literals. A literal is a sequence of items between two quotes. Every text
behind a quote begins with a longest sequence of items, and what stands behind that closes the
literal or is the one fault that it has. -/

namespace ScriptLexer

/-- The characters that no body holds, not even behind a backslash. -/
def separators : List Char := ['\u2028', '\u2029']

theorem mem_separators {c : Char} : c ∈ separators ↔ c = '\u2028' ∨ c = '\u2029' := by
  simp [separators]

theorem backslash_not_mem_separators : '\\' ∉ separators := by decide

theorem isStringCharacter_iff_not_mem {c : Char} :
    isStringCharacter c = true ↔ c ∉ separators := by
  simp [isStringCharacter_iff, separators]

namespace Scan

/-- What a body is made of: raw characters, characters behind a backslash, and code points. -/
inductive Item (quote : Char) : List Char → Prop
  | raw {c : Char} (unquoted : c ≠ quote) (unescaped : c ≠ '\\') (inside : c ∉ separators) :
      Item quote [c]
  | escaped {c : Char} (other : c ≠ 'u') (inside : c ∉ separators) : Item quote ['\\', c]
  | codePoint {digits : List Char} (present : digits ≠ [])
      (hexadecimal : ∀ c ∈ digits, isHexDigit c = true)
      (within : hexadecimalValue digits ≤ escapeLimit) :
      Item quote ('\\' :: 'u' :: '\x7b' :: (digits ++ ['\x7d']))

inductive MadeOf (piece : List Char → Prop) : List Char → Prop
  | nil : MadeOf piece []
  | cons {front back : List Char} (first : piece front) (others : MadeOf piece back) :
      MadeOf piece (front ++ back)

/-- No piece begins another, so that a text can be cut into pieces in one way only. -/
def PrefixFree (piece : List Char → Prop) : Prop :=
  ∀ ⦃first second firstRest secondRest : List Char⦄, piece first → piece second →
    first ++ firstRest = second ++ secondRest → first = second ∧ firstRest = secondRest

def Stuck (piece : List Char → Prop) (text : List Char) : Prop :=
  ∀ ⦃first : List Char⦄, piece first → ¬first <+: text

abbrev Items (quote : Char) : List Char → Prop := MadeOf (Item quote)

def IsLiteral (quote : Char) (text literal : List Char) : Prop :=
  ∃ inside, Items quote inside ∧ literal = quote :: (inside ++ [quote]) ∧ literal <+: quote :: text

structure LongestItems (quote : Char) (text front rest : List Char) : Prop where
  parts : text = front ++ rest
  items : Items quote front
  longest : ∀ other, Items quote other → other <+: text → other.length ≤ front.length

def Barred (text : List Char) : Prop := ∀ c, text.head? = some c → c ∈ separators

/-- An escape that is at fault: of what stands behind its `u`, `opening` is read when the fault is
known, and `left` is not. -/
inductive EscapeFault : List Char → List Char → ErrorCode → Prop
  | unopened {left : List Char} (closed : left.head? ≠ some '\x7b') :
      EscapeFault [] left .hexadecimalDigitExpected
  | reopened {digits rest : List Char} (hexadecimal : ∀ c ∈ digits, isHexDigit c = true) :
      EscapeFault ('\x7b' :: digits) ('\x7b' :: rest) .hexadecimalDigitExpected
  | empty {rest : List Char} : EscapeFault ['\x7b'] ('\x7d' :: rest) .hexadecimalDigitExpected
  | unended {digits left : List Char} (hexadecimal : ∀ c ∈ digits, isHexDigit c = true)
      (stops : Stops isHexDigit left) (unclosed : left.head? ≠ some '\x7d')
      (single : left.head? ≠ some '\x7b') :
      EscapeFault ('\x7b' :: digits) left .unterminatedUnicodeEscapeSequence
  | beyond {digits rest : List Char} (present : digits ≠ [])
      (hexadecimal : ∀ c ∈ digits, isHexDigit c = true)
      (above : escapeLimit < hexadecimalValue digits) :
      EscapeFault ('\x7b' :: digits) ('\x7d' :: rest) .unicodeValueOutOfRange

/-- What is wrong with a literal that has neither its closing quote nor an item in front of `rest`. -/
inductive LiteralFault : List Char → ErrorCode → Prop
  | unterminated {rest : List Char} (barred : Barred rest) :
      LiteralFault rest .unterminatedStringLiteral
  | unterminatedEscape {rest : List Char} (barred : Barred rest) :
      LiteralFault ('\\' :: rest) .unterminatedStringLiteral
  | escape {opening left : List Char} {code : ErrorCode} (faulty : EscapeFault opening left code) :
      LiteralFault ('\\' :: 'u' :: (opening ++ left)) code

section Pieces

variable {piece : List Char → Prop} {other : List Char}

theorem MadeOf.forall_mem {holds : Char → Prop} (made : MadeOf piece other)
    (each : ∀ first, piece first → ∀ c ∈ first, holds c) : ∀ c ∈ other, holds c := by
  induction made with
  | nil => exact List.forall_mem_nil _
  | cons first others ih => exact List.forall_mem_append.mpr ⟨each _ first, ih⟩

variable (free : PrefixFree piece)
include free

theorem MadeOf.beginning (made : MadeOf piece other) :
    ∀ {front rest more : List Char}, MadeOf piece front → Stuck piece rest →
      other ++ more = front ++ rest → other <+: front := by
  induction made with
  | nil => exact fun _ _ _ => List.nil_prefix
  | @cons item inside first others ih =>
      intro front rest more front_made stuck same
      rw [List.append_assoc] at same
      cases front_made with
      | nil => exact absurd ⟨inside ++ more, same⟩ (stuck first)
      | @cons step tail second behind =>
          rw [List.append_assoc] at same
          -- Neither first piece begins the other, so both sequences begin with the same one.
          obtain ⟨rfl, left⟩ := free first second same
          exact (List.prefix_append_right_inj item).mpr (ih behind stuck left)

theorem MadeOf.unique {front rest more : List Char} (made : MadeOf piece front)
    (stuck : Stuck piece rest) (also : MadeOf piece other) (likewise : Stuck piece more)
    (same : front ++ rest = other ++ more) : front = other ∧ rest = more := by
  have shorter := (made.beginning free also likewise same).length_le
  have longer := (also.beginning free made stuck same.symm).length_le
  exact List.append_inj same (Nat.le_antisymm shorter longer)

end Pieces

section Escape

theorem within_iff {digits : List Char} (present : digits ≠ [])
    (hexadecimal : ∀ c ∈ digits, isHexDigit c = true) :
    (hexadecimal? digits).any (· ≤ escapeLimit) = true ↔
      hexadecimalValue digits ≤ escapeLimit := by
  have small : escapeLimit < hexadecimalLimit := by decide
  rw [hexadecimal?_of_digits present hexadecimal]
  split
  · simp
  · rename_i past
    simp only [Option.any_none, Bool.false_eq_true, false_iff]
    omega

theorem brace_not_isHexDigit : isHexDigit '\x7b' = false ∧ isHexDigit '\x7d' = false := by decide

theorem escape_of_fault {opening left : List Char} {code : ErrorCode}
    (faulty : EscapeFault opening left code) :
    escape (opening ++ left) = ⟨some code, opening, left⟩ := by
  obtain ⟨openBrace, closeBrace⟩ := brace_not_isHexDigit
  cases faulty with
  | unopened closed =>
      apply escape_unopened
      rintro tail rfl
      exact closed rfl
  | @reopened digits rest hexadecimal =>
      have stops : Stops isHexDigit ('\x7b' :: rest) := stops_cons openBrace
      obtain ⟨run, left⟩ := takeWhile_run hexadecimal stops
      rw [List.cons_append, escape_reopened left, run]
  | @empty rest =>
      have stops : Stops isHexDigit ('\x7d' :: rest) := stops_cons closeBrace
      obtain ⟨run, left⟩ := takeWhile_stopped stops
      rw [List.cons_append, List.nil_append, escape_ended left, run]
      rfl
  | @unended digits left hexadecimal stops unclosed single =>
      obtain ⟨run, behind⟩ := takeWhile_run hexadecimal stops
      rw [List.cons_append, escape_unended, run, behind]
      · rintro rest same
        rw [← behind, same] at unclosed
        exact unclosed rfl
      · rintro rest same
        rw [← behind, same] at single
        exact single rfl
  | @beyond digits rest present hexadecimal above =>
      have stops : Stops isHexDigit ('\x7d' :: rest) := stops_cons closeBrace
      obtain ⟨run, left⟩ := takeWhile_run hexadecimal stops
      have outside : ¬(hexadecimal? digits).any (· ≤ escapeLimit) = true := by
        rw [within_iff present hexadecimal]
        exact Nat.not_le_of_lt above
      rw [List.cons_append, escape_ended left, run, if_neg (by simpa using present),
        if_neg outside]

theorem exists_escapeFault {text : List Char} {code : ErrorCode}
    (faulty : (escape text).fault = some code) :
    ∃ opening left, text = opening ++ left ∧ EscapeFault opening left code := by
  by_cases opened : text.head? = some '\x7b'
  case neg =>
    rw [escape_unopened (by rintro tail rfl; exact opened rfl)] at faulty
    obtain rfl := Option.some.inj faulty
    exact ⟨[], text, rfl, .unopened opened⟩
  obtain ⟨text, rfl⟩ := List.head?_eq_some_iff.mp opened
  have parts := List.takeWhile_append_dropWhile (p := isHexDigit) (l := text)
  have hexadecimal : ∀ c ∈ text.takeWhile isHexDigit, isHexDigit c = true :=
    fun _ => List.mem_takeWhile_imp
  refine ⟨'\x7b' :: text.takeWhile isHexDigit, text.dropWhile isHexDigit, ?_, ?_⟩
  · rw [List.cons_append, parts]
  -- The digits stop at a closing brace, at another opening one, or at anything else.
  by_cases ended : (text.dropWhile isHexDigit).head? = some '\x7d'
  · obtain ⟨rest, closed⟩ := List.head?_eq_some_iff.mp ended
    rw [escape_ended closed] at faulty
    rw [closed]
    split at faulty
    · rename_i nothing
      obtain rfl := Option.some.inj faulty
      rw [List.isEmpty_iff.mp nothing]
      exact .empty
    · rename_i present
      have present : text.takeWhile isHexDigit ≠ [] := by simpa using present
      split at faulty
      · cases faulty
      · rename_i outside
        rw [within_iff present hexadecimal, Nat.not_le] at outside
        obtain rfl := Option.some.inj faulty
        exact .beyond present hexadecimal outside
  by_cases reopened : (text.dropWhile isHexDigit).head? = some '\x7b'
  · obtain ⟨rest, again⟩ := List.head?_eq_some_iff.mp reopened
    rw [escape_reopened again] at faulty
    obtain rfl := Option.some.inj faulty
    rw [again]
    exact .reopened hexadecimal
  · rw [escape_unended (by rintro rest same; exact ended (by rw [same]; rfl))
      (by rintro rest same; exact reopened (by rw [same]; rfl))] at faulty
    obtain rfl := Option.some.inj faulty
    exact .unended hexadecimal (stops_dropWhile isHexDigit text) ended reopened

end Escape

section Body

variable {quote : Char}

theorem body_item {item : List Char} (valid : Item quote item) (text : List Char) :
    body quote (item ++ text) = (body quote text).prepend item := by
  cases valid with
  | raw unquoted unescaped inside =>
      exact body_raw ⟨unescaped, unquoted, isStringCharacter_iff_not_mem.mpr inside⟩ text
  | escaped other inside =>
      exact body_escaped quote other (isStringCharacter_iff_not_mem.mpr inside) text
  | @codePoint digits present hexadecimal within =>
      have names : NamesCodePoint digits :=
        ⟨hexadecimal, present, (within_iff present hexadecimal).mpr within⟩
      have read := escape_codePoint names text
      have sound : (escape ('\x7b' :: (digits ++ '\x7d' :: text))).fault = none := by rw [read]
      have stepped := body_escape quote _ sound
      rw [read] at stepped
      simpa using stepped

theorem body_items {front : List Char} (items : Items quote front) (text : List Char) :
    body quote (front ++ text) = (body quote text).prepend front := by
  induction items with
  | nil => rfl
  | @cons item inside first others ih =>
      rw [List.append_assoc, body_item first, ih, Body.prepend_prepend]

variable (opens : isQuote quote = true)
include opens

theorem quote_ne_backslash : quote ≠ '\\' := by
  rintro rfl
  cases opens

theorem quote_not_mem_separators : quote ∉ separators := by
  intro member
  rcases mem_separators.mp member with rfl | rfl
  · exact absurd opens (by decide)
  · exact absurd opens (by decide)

theorem ends_of_mem {c : Char} (separator : c ∈ separators) : Ends quote c := by
  refine ⟨?_, ?_, fun inside => isStringCharacter_iff_not_mem.mp inside separator⟩
  · rintro rfl
    exact backslash_not_mem_separators separator
  · rintro rfl
    exact quote_not_mem_separators opens separator

theorem body_barred {text : List Char} (barred : Barred text) :
    body quote text = .unterminated [] text ∧
      body quote ('\\' :: text) = .unterminated ['\\'] text := by
  cases text with
  | nil => exact ⟨body.eq_1 quote, body_lone (quote_ne_backslash opens)⟩
  | cons c text =>
      have ends := ends_of_mem opens (barred c rfl)
      exact ⟨body_ends ends text, body_escaped_ends ends text⟩

theorem body_fault {rest : List Char} {code : ErrorCode} (faulty : LiteralFault rest code) :
    (body quote rest).fault = some code := by
  cases faulty with
  | unterminated barred => rw [(body_barred opens barred).1]; rfl
  | unterminatedEscape barred => rw [(body_barred opens barred).2]; rfl
  | escape faulty =>
      have read := escape_of_fault faulty
      rw [body_broken quote (by rw [read])]
      rfl

end Body

section Longest

variable {quote : Char}

theorem parts_of_isLiteral {text literal : List Char} (whole : IsLiteral quote text literal) :
    ∃ inside after, Items quote inside ∧ literal = quote :: (inside ++ [quote]) ∧
      text = inside ++ quote :: after := by
  obtain ⟨inside, items, rfl, after, leads⟩ := whole
  refine ⟨inside, after, items, rfl, ?_⟩
  simpa using (List.cons.inj leads).2.symm

theorem item_prefixFree : PrefixFree (Item quote) := by
  intro first second firstRest secondRest one other same
  cases one with
  | raw unquoted unescaped inside =>
      cases other with
      | raw => simpa using same
      | escaped => exact absurd (List.cons.inj same).1 unescaped
      | codePoint => exact absurd (List.cons.inj same).1 unescaped
  | escaped unicode inside =>
      cases other with
      | raw _ unescaped => exact absurd (List.cons.inj same).1.symm unescaped
      | escaped => simpa using same
      | codePoint => exact absurd (List.cons.inj (List.cons.inj same).2).1 unicode
  | @codePoint digits present hexadecimal within =>
      cases other with
      | raw _ unescaped => exact absurd (List.cons.inj same).1.symm unescaped
      | escaped unicode => exact absurd (List.cons.inj (List.cons.inj same).2).1.symm unicode
      | @codePoint others _ likewise _ =>
          have behind : digits ++ '\x7d' :: firstRest = others ++ '\x7d' :: secondRest := by
            simpa using same
          have stops : ∀ text, Stops isHexDigit ('\x7d' :: text) :=
            fun _ => stops_cons brace_not_isHexDigit.2
          have run : digits = others := by
            rw [← (takeWhile_run hexadecimal (stops firstRest)).1, behind,
              (takeWhile_run likewise (stops secondRest)).1]
          subst run
          exact ⟨rfl, (List.cons.inj (List.append_cancel_left behind)).2⟩

theorem longestItems {front rest : List Char} (items : Items quote front)
    (stuck : Stuck (Item quote) rest) : LongestItems quote (front ++ rest) front rest := by
  refine ⟨rfl, items, fun other valid leads => ?_⟩
  obtain ⟨more, same⟩ := leads
  exact (valid.beginning item_prefixFree items stuck same).length_le

theorem stuck_of_barred {text : List Char} (barred : Barred text) : Stuck (Item quote) text := by
  rintro item valid ⟨more, rfl⟩
  cases valid with
  | raw _ _ inside => exact inside (barred _ rfl)
  | escaped => exact backslash_not_mem_separators (barred _ rfl)
  | codePoint => exact backslash_not_mem_separators (barred _ rfl)

theorem stuck_of_fault {rest : List Char} {code : ErrorCode} (faulty : LiteralFault rest code) :
    Stuck (Item quote) rest := by
  cases faulty with
  | unterminated barred => exact stuck_of_barred barred
  | unterminatedEscape barred =>
      rintro item valid ⟨more, same⟩
      have letter : 'u' ∉ separators := by decide
      cases valid with
      | raw _ unescaped => exact unescaped (List.cons.inj same).1
      | escaped _ inside =>
          obtain ⟨_, rfl⟩ := List.cons.inj same
          exact inside (barred _ rfl)
      | codePoint =>
          obtain ⟨_, rfl⟩ := List.cons.inj same
          exact letter (barred _ rfl)
  | @escape opening left code faulty =>
      rintro item valid ⟨more, same⟩
      cases valid with
      | raw _ unescaped => exact unescaped (List.cons.inj same).1
      | escaped other => exact other (List.cons.inj (List.cons.inj same).2).1
      | @codePoint digits present hexadecimal within =>
          have behind : '\x7b' :: (digits ++ '\x7d' :: more) = opening ++ left := by
            simpa using same
          have names : NamesCodePoint digits :=
            ⟨hexadecimal, present, (within_iff present hexadecimal).mpr within⟩
          have read := escape_codePoint names more
          rw [behind, escape_of_fault faulty] at read
          cases read

inductive Course (quote : Char) (text : List Char) : Prop
  | closed (front after : List Char) (parts : text = front ++ quote :: after)
      (items : Items quote front) : Course quote text
  | faulty (front rest : List Char) (code : ErrorCode) (parts : text = front ++ rest)
      (items : Items quote front) (fault : LiteralFault rest code) : Course quote text

theorem Course.behind {item text : List Char} (first : Item quote item)
    (course : Course quote text) : Course quote (item ++ text) := by
  cases course with
  | closed front after parts items =>
      exact .closed (item ++ front) after (by rw [parts, List.append_assoc]) (.cons first items)
  | faulty front rest code parts items fault =>
      exact .faulty (item ++ front) rest code (by rw [parts, List.append_assoc])
        (.cons first items) fault

theorem barred_nil : Barred [] := by
  intro c first
  cases first

theorem barred_of_outside {c : Char} (outside : ¬isStringCharacter c = true) (text : List Char) :
    Barred (c :: text) := by
  rintro d first
  obtain rfl := Option.some.inj first
  rwa [isStringCharacter_iff_not_mem, not_not] at outside

theorem course (quote : Char) (text : List Char) : Course quote text := by
  fun_induction body quote text with
  | case1 => exact .faulty [] [] _ rfl .nil (.unterminated barred_nil)
  | case2 text escaped code found =>
      obtain ⟨opening, left, rfl, fault⟩ := exists_escapeFault found
      exact .faulty [] _ code rfl .nil (.escape fault)
  | case3 text escaped sound ih =>
      obtain ⟨digits, rest, names, rfl⟩ := exists_codePoint sound
      have within := (within_iff names.present names.hexadecimal).mp names.within
      have first : Item quote _ := .codePoint names.present names.hexadecimal within
      have left : escaped.rest = rest := by rw [show escaped = _ from escape_codePoint names rest]
      rw [left] at ih
      simpa using ih.behind first
  | case4 c text other member ih =>
      exact ih.behind (.escaped other (isStringCharacter_iff_not_mem.mp member))
  | case5 c text other outside =>
      exact .faulty [] _ _ rfl .nil (.unterminatedEscape (barred_of_outside outside text))
  | case6 text => exact .closed [] text rfl .nil
  | case7 c text unicode lone unquoted member ih =>
      by_cases escaping : c = '\\'
      · subst escaping
        cases text with
        | nil => exact .faulty [] _ _ rfl .nil (.unterminatedEscape barred_nil)
        | cons d text => exact absurd rfl (lone d text rfl)
      · exact ih.behind (.raw unquoted escaping (isStringCharacter_iff_not_mem.mp member))
  | case8 c text unicode lone unquoted outside =>
      exact .faulty [] _ _ rfl .nil (.unterminated (barred_of_outside outside text))

end Longest

section Quoted

variable {quote : Char} (opens : isQuote quote = true)
include opens

theorem quoted_closed {inside : List Char} (items : Items quote inside) (after : List Char) :
    quoted quote (inside ++ quote :: after) =
      accept (Token.ofText .stringLiteral (quote :: (inside ++ [quote])))
        (quote :: (inside ++ [quote])) after := by
  unfold quoted
  rw [body_items items, body_close (quote_ne_backslash opens)]
  rfl

theorem quoted_faulty {front rest : List Char} {code : ErrorCode} (items : Items quote front)
    (fault : LiteralFault rest code) :
    (quoted quote (front ++ rest)).verdict = .fault code := by
  have found : (body quote (front ++ rest)).fault = some code := by
    rw [body_items items]
    exact body_fault opens fault
  unfold quoted
  simp only [found]
  rfl

theorem LiteralFault.unique {rest : List Char} {code other : ErrorCode}
    (fault : LiteralFault rest code) (another : LiteralFault rest other) : code = other :=
  Option.some.inj ((body_fault opens fault).symm.trans (body_fault opens another))

end Quoted

end Scan

namespace Lexer

section Literal

variable {lexer : Lexer} {quote : Char} {text : List Char} (opens : isQuote quote = true)
  (visible : lexer.cursor.rest.dropWhile isWhitespace = quote :: text)
include opens visible

theorem next_literal_closed {inside after : List Char} (items : Scan.Items quote inside)
    (parts : text = inside ++ quote :: after) :
    lexer.next.token? = some (Token.ofText .stringLiteral (quote :: (inside ++ [quote]))) ∧
      lexer.next.report? = none ∧ lexer.next.lexer.cursor.rest = after := by
  have scanned : Scan.leading quote text = _ :=
    (Scan.leading_of_isQuote opens text).trans (parts ▸ Scan.quoted_closed opens items after)
  obtain ⟨token, report⟩ := next_of_token visible (by rw [scanned]; rfl)
  refine ⟨token, report, ?_⟩
  rw [next_rest visible, scanned]
  rfl

theorem next_literal_faulty {front rest : List Char} {code : ErrorCode}
    (items : Scan.Items quote front) (parts : text = front ++ rest)
    (fault : Scan.LiteralFault rest code) :
    lexer.next.token? = some .invalid ∧
      ∃ report, lexer.next.report? = some report ∧ report.code = code := by
  apply next_of_fault visible
  rw [Scan.leading_of_isQuote opens, parts]
  exact Scan.quoted_faulty opens items fault

end Literal

/-- A literal is accepted exactly if it is items between two quotes. If there is none, the one
report is decided by what stands behind the longest sequence of items. -/
theorem next_stringLiteral {lexer : Lexer} {quote : Char} {text : List Char}
    (opens : isQuote quote = true)
    (visible : lexer.cursor.rest.dropWhile isWhitespace = quote :: text) :
    (∀ literal, lexer.next.token? = some (Token.ofText .stringLiteral literal) ↔
        Scan.IsLiteral quote text literal) ∧
      (∀ first second, Scan.IsLiteral quote text first → Scan.IsLiteral quote text second →
        first = second) ∧
      ((∃ literal, Scan.IsLiteral quote text literal) → lexer.next.report? = none) ∧
      ((¬∃ literal, Scan.IsLiteral quote text literal) →
        lexer.next.token? = some .invalid ∧
          ∃ front rest report, Scan.LongestItems quote text front rest ∧
            lexer.next.report? = some report ∧
            ∀ code, report.code = code ↔ Scan.LiteralFault rest code) := by
  have accepted : ∀ literal, Scan.IsLiteral quote text literal →
      lexer.next.token? = some (Token.ofText .stringLiteral literal) ∧
        lexer.next.report? = none := by
    intro literal whole
    obtain ⟨inside, after, items, rfl, parts⟩ := Scan.parts_of_isLiteral whole
    obtain ⟨token, report, _⟩ := next_literal_closed opens visible items parts
    exact ⟨token, report⟩
  have same : ∀ first second, Token.ofText .stringLiteral first =
      Token.ofText .stringLiteral second → first = second := by
    intro first second equal
    exact String.ofList_injective (Option.some.inj (congrArg Token.lexeme equal))
  refine ⟨fun literal => ⟨fun given => ?_, fun whole => (accepted literal whole).1⟩, ?_, ?_, ?_⟩
  · cases Scan.course quote text with
    | closed front after parts items =>
        have read := (next_literal_closed opens visible items parts).1
        refine ⟨front, items, same _ _ (Option.some.inj (given.symm.trans read)), after, ?_⟩
        rw [same _ _ (Option.some.inj (given.symm.trans read)), parts]
        simp
    | faulty front rest code parts items fault =>
        have read := (next_literal_faulty opens visible items parts fault).1
        cases given.symm.trans read
  · intro first second one other
    exact same _ _ (Option.some.inj ((accepted first one).1.symm.trans (accepted second other).1))
  · rintro ⟨literal, whole⟩
    exact (accepted literal whole).2
  · intro none
    cases Scan.course quote text with
    | closed front after parts items =>
        refine absurd ⟨_, front, items, rfl, after, ?_⟩ none
        rw [parts]
        simp
    | faulty front rest code parts items fault =>
        obtain ⟨token, report, made, named⟩ := next_literal_faulty opens visible items parts fault
        have longest := Scan.longestItems items (Scan.stuck_of_fault fault)
        rw [← parts] at longest
        refine ⟨token, front, rest, report, longest, made, fun other => ⟨?_, ?_⟩⟩
        · rintro rfl
          rwa [named]
        · intro another
          rw [named]
          exact fault.unique opens another

theorem next_stringLiteral_escapes :
    let sound := ['\\', '\'', '\n', '\\', 'u', '\x7b', '0', '0', '4', '1', '\x7d']
    let faulty := ['"', '\\', 'u', '\x7b', '1', '1', '0', '0', '0', '0', '\x7d']
    let accepted := Lexer.ofText (' ' :: '\'' :: (sound ++ ['\'', '\''])) "s"
    let rejected := Lexer.ofText ('\'' :: (faulty ++ ['\''])) "s"
    isQuote '\'' = true ∧
      accepted.cursor.rest.dropWhile isWhitespace = '\'' :: (sound ++ ['\'', '\'']) ∧
      rejected.cursor.rest.dropWhile isWhitespace = '\'' :: (faulty ++ ['\'']) ∧
      Scan.IsLiteral '\'' (sound ++ ['\'', '\'']) ('\'' :: (sound ++ ['\''])) ∧
      ∃ front rest, Scan.LongestItems '\'' (faulty ++ ['\'']) front rest ∧
        Scan.LiteralFault rest .unicodeValueOutOfRange := by
  intro sound faulty accepted rejected
  have opens : isQuote '\'' = true := by decide
  have one : accepted.cursor.rest.dropWhile isWhitespace = '\'' :: (sound ++ ['\'', '\'']) := by
    decide
  have other : rejected.cursor.rest.dropWhile isWhitespace = '\'' :: (faulty ++ ['\'']) := by
    decide
  have token : accepted.next.token? =
      some (Token.ofText .stringLiteral ('\'' :: (sound ++ ['\'']))) := by
    unfold accepted sound
    cbv
  have invalid : rejected.next.token? = some .invalid := by
    unfold rejected faulty
    cbv
  have report : rejected.next.report? = some ⟨"s", .unicodeValueOutOfRange, 1⟩ := by
    unfold rejected faulty
    cbv
  obtain ⟨accepts, _, _, rejects⟩ := next_stringLiteral opens other
  have none : ¬∃ literal, Scan.IsLiteral '\'' (faulty ++ ['\'']) literal := by
    rintro ⟨literal, whole⟩
    cases invalid.symm.trans ((accepts literal).mpr whole)
  obtain ⟨_, front, rest, made, longest, reported, decided⟩ := rejects none
  refine ⟨opens, one, other, ((next_stringLiteral opens one).1 _).mp token, front, rest, longest, ?_⟩
  rw [report] at reported
  exact (decided _).mp (by rw [← Option.some.inj reported])

end Lexer
end ScriptLexer
