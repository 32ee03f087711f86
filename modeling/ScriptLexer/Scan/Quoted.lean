import ScriptLexer.Scan.Hexadecimal
import ScriptLexer.Scan

/-! String literals. The quote that opens one closes it. A body holds raw characters, a backslash
with any character that a body may hold, and escapes by code point; a fault in one of the last
passes over the rest of the literal. -/

namespace ScriptLexer.Scan

def escapeLimit : Nat := 0x10FFFF

/-- What follows a backslash and a `u`: the text taken, the fault if there is one, the rest. -/
structure Escape where
  fault : Option ErrorCode
  taken : List Char
  rest : List Char
  deriving DecidableEq, Repr

def escape : List Char → Escape
  | '\x7b' :: text =>
      let digits := text.takeWhile isHexDigit
      let after := text.dropWhile isHexDigit
      let opened := '\x7b' :: digits
      match after with
      | '\x7d' :: rest =>
          if digits.isEmpty then ⟨some .hexadecimalDigitExpected, opened, after⟩
          else if (hexadecimal? digits).any (· ≤ escapeLimit) then
            ⟨none, opened ++ ['\x7d'], rest⟩
          else ⟨some .unicodeValueOutOfRange, opened, after⟩
      | '\x7b' :: _ => ⟨some .hexadecimalDigitExpected, opened, after⟩
      | _ => ⟨some .unterminatedUnicodeEscapeSequence, opened, after⟩
  | text => ⟨some .hexadecimalDigitExpected, [], text⟩

theorem escape_covers (text : List Char) : (escape text).taken ++ (escape text).rest = text := by
  unfold escape
  split
  · rename_i text
    have digits := List.takeWhile_append_dropWhile (l := text) (p := isHexDigit)
    simp only
    split
    · rename_i rest closed
      split
      · simp [digits]
      · split
        · conv => rhs; rw [← digits, closed]
          simp
        · simp [digits]
    · simp [digits]
    · simp [digits]
  · rfl

theorem escape_rest_length_le (text : List Char) : (escape text).rest.length ≤ text.length := by
  have covers := congrArg List.length (escape_covers text)
  simp only [List.length_append] at covers
  omega

/-- What recovery passes over: up to and with the closing quote, or up to a character that no body
holds, a backslash taking the character behind it along. -/
def literalTail (quote : Char) : List Char → List Char
  | [] => []
  | '\\' :: c :: text => '\\' :: c :: literalTail quote text
  | c :: text =>
      if c = quote then [c]
      else if isStringCharacter c then c :: literalTail quote text
      else []

structure Body where
  fault : Option ErrorCode
  seen : List Char
  skipped : List Char
  rest : List Char
  deriving DecidableEq, Repr

def Body.prepend (taken : List Char) (body : Body) : Body := { body with seen := taken ++ body.seen }

def Body.unterminated (seen rest : List Char) : Body :=
  ⟨some .unterminatedStringLiteral, seen, [], rest⟩

def Body.broken (quote : Char) (code : ErrorCode) (seen text : List Char) : Body :=
  ⟨some code, seen, literalTail quote text, text.drop (literalTail quote text).length⟩

def body (quote : Char) : List Char → Body
  | [] => .unterminated [] []
  | '\\' :: 'u' :: text =>
      let escaped := escape text
      match escaped.fault with
      | some code => .broken quote code ('\\' :: 'u' :: escaped.taken) escaped.rest
      | none => (body quote escaped.rest).prepend ('\\' :: 'u' :: escaped.taken)
  | '\\' :: c :: text =>
      if isStringCharacter c then (body quote text).prepend ['\\', c]
      else .unterminated ['\\'] (c :: text)
  | c :: text =>
      if c = quote then ⟨none, [c], [], text⟩
      else if isStringCharacter c then (body quote text).prepend [c]
      else .unterminated [] (c :: text)
  termination_by text => text.length
  decreasing_by
    all_goals simp only [List.length_cons]
    · have shorter := escape_rest_length_le text
      omega
    · omega
    · omega

def quoted (quote : Char) (text : List Char) : Scan :=
  let body := body quote text
  let seen := quote :: body.seen
  match body.fault with
  | some code => reject code seen body.skipped body.rest
  | none => accept (Token.ofText .stringLiteral seen) seen body.rest

theorem literalTail_covers (quote : Char) (text : List Char) :
    literalTail quote text ++ text.drop (literalTail quote text).length = text := by
  fun_induction literalTail quote text <;> simp_all

def Body.Covers (body : Body) (text : List Char) : Prop :=
  body.seen ++ body.skipped ++ body.rest = text

theorem body_covers (quote : Char) (text : List Char) : (body quote text).Covers text := by
  fun_induction body quote text with
  | case1 => rfl
  | case2 text escaped code faulty =>
      have covers := escape_covers text
      simp only [Body.Covers, Body.broken, List.append_assoc, literalTail_covers]
      simpa using covers
  | case3 text escaped sound ih =>
      have covers := escape_covers text
      simp only [Body.Covers, Body.prepend, List.append_assoc] at ih ⊢
      rw [ih]
      simpa using covers
  | case4 =>
      rename_i ih
      simpa [Body.Covers, Body.prepend] using ih
  | case5 => simp [Body.Covers, Body.unterminated]
  | case6 => simp [Body.Covers]
  | case7 =>
      rename_i ih
      simpa [Body.Covers, Body.prepend] using ih
  | case8 => simp [Body.Covers, Body.unterminated]

theorem body_skipped_of_sound (quote : Char) (text : List Char)
    (sound : (body quote text).fault = none) : (body quote text).skipped = [] := by
  fun_induction body quote text <;> simp_all [Body.unterminated, Body.prepend, Body.broken]

theorem quoted_covers (quote : Char) (text : List Char) :
    (quoted quote text).Covers (quote :: text) := by
  have covers := body_covers quote text
  unfold quoted
  simp only
  split
  · simpa [Covers, reject, Body.Covers] using covers
  · rename_i sound
    simpa [Covers, accept, Body.Covers, body_skipped_of_sound quote text sound] using covers

end ScriptLexer.Scan
