import ScriptLexer.Proofs.Run
import ScriptLexer.Scan.Quoted

/-! String literals piece by piece: the escapes that are accepted, the steps of a body, and the
faults that a literal can end in. -/

namespace ScriptLexer.Scan

structure NamesCodePoint (digits : List Char) : Prop where
  hexadecimal : ∀ c ∈ digits, isHexDigit c = true
  present : digits ≠ []
  within : (hexadecimal? digits).any (· ≤ escapeLimit) = true

theorem escape_codePoint {digits : List Char} (names : NamesCodePoint digits) (rest : List Char) :
    escape ('\x7b' :: (digits ++ '\x7d' :: rest)) =
      ⟨none, '\x7b' :: (digits ++ ['\x7d']), rest⟩ := by
  have stops : Stops isHexDigit ('\x7d' :: rest) := stops_cons (by decide)
  obtain ⟨run, left⟩ := takeWhile_run names.hexadecimal stops
  have more : digits.isEmpty = false := by simpa using names.present
  rw [escape]
  simp only [run, left, more, names.within, Bool.false_eq_true, if_false, if_true,
    List.cons_append]

theorem exists_codePoint {text : List Char} (sound : (escape text).fault = none) :
    ∃ digits rest, NamesCodePoint digits ∧ text = '\x7b' :: (digits ++ '\x7d' :: rest) := by
  unfold escape at sound
  split at sound
  · rename_i text
    have digits := List.takeWhile_append_dropWhile (p := isHexDigit) (l := text)
    simp only at sound
    split at sound
    · rename_i rest closed
      split at sound
      · cases sound
      · rename_i present
        split at sound
        · rename_i within
          refine ⟨text.takeWhile isHexDigit, rest,
            ⟨fun _ => List.mem_takeWhile_imp, by simpa using present, within⟩, ?_⟩
          rw [← closed, digits]
        · cases sound
    · cases sound
    · cases sound
  · cases sound

theorem escape_unopened {text : List Char} (closed : ∀ tail, text ≠ '\x7b' :: tail) :
    escape text = ⟨some .hexadecimalDigitExpected, [], text⟩ :=
  escape.eq_2 text closed

section Opened

variable {text rest : List Char}

theorem escape_ended (ended : text.dropWhile isHexDigit = '\x7d' :: rest) :
    escape ('\x7b' :: text) =
      if (text.takeWhile isHexDigit).isEmpty then
        ⟨some .hexadecimalDigitExpected, '\x7b' :: text.takeWhile isHexDigit, '\x7d' :: rest⟩
      else if (hexadecimal? (text.takeWhile isHexDigit)).any (· ≤ escapeLimit) then
        ⟨none, '\x7b' :: text.takeWhile isHexDigit ++ ['\x7d'], rest⟩
      else ⟨some .unicodeValueOutOfRange, '\x7b' :: text.takeWhile isHexDigit, '\x7d' :: rest⟩ := by
  rw [escape]
  simp only [ended]

theorem escape_reopened (reopened : text.dropWhile isHexDigit = '\x7b' :: rest) :
    escape ('\x7b' :: text) =
      ⟨some .hexadecimalDigitExpected, '\x7b' :: text.takeWhile isHexDigit, '\x7b' :: rest⟩ := by
  rw [escape]
  simp only [reopened]

theorem escape_unended (unended : ∀ rest, text.dropWhile isHexDigit ≠ '\x7d' :: rest)
    (single : ∀ rest, text.dropWhile isHexDigit ≠ '\x7b' :: rest) :
    escape ('\x7b' :: text) = ⟨some .unterminatedUnicodeEscapeSequence,
      '\x7b' :: text.takeWhile isHexDigit, text.dropWhile isHexDigit⟩ := by
  rw [escape]
  split
  · exact absurd ‹_› (unended _)
  · exact absurd ‹_› (single _)
  · rfl

end Opened

def literalCodes : List ErrorCode :=
  [.unterminatedStringLiteral, .hexadecimalDigitExpected, .unicodeValueOutOfRange,
    .unterminatedUnicodeEscapeSequence]

theorem escape_fault_mem {text : List Char} {code : ErrorCode}
    (faulty : (escape text).fault = some code) : code ∈ literalCodes := by
  unfold escape at faulty
  split at faulty
  · simp only at faulty
    split at faulty
    · split at faulty
      · obtain rfl := Option.some.inj faulty
        decide
      · split at faulty
        · cases faulty
        · obtain rfl := Option.some.inj faulty
          decide
    · obtain rfl := Option.some.inj faulty
      decide
    · obtain rfl := Option.some.inj faulty
      decide
  · obtain rfl := Option.some.inj faulty
    decide

theorem Body.prepend_prepend (front back : List Char) (body : Body) :
    (body.prepend back).prepend front = body.prepend (front ++ back) := by
  simp only [prepend, List.append_assoc]

section Body

variable {quote : Char}

theorem body_escape (quote : Char) (text : List Char) (sound : (escape text).fault = none) :
    body quote ('\\' :: 'u' :: text) =
      (body quote (escape text).rest).prepend ('\\' :: 'u' :: (escape text).taken) := by
  rw [body]
  simp only [sound]

theorem body_broken (quote : Char) {text : List Char} {code : ErrorCode}
    (faulty : (escape text).fault = some code) :
    body quote ('\\' :: 'u' :: text) =
      .broken quote code ('\\' :: 'u' :: (escape text).taken) (escape text).rest := by
  rw [body]
  simp only [faulty]

theorem body_escaped (quote : Char) {c : Char} (other : c ≠ 'u') (member : isStringCharacter c = true)
    (text : List Char) : body quote ('\\' :: c :: text) = (body quote text).prepend ['\\', c] := by
  rw [body.eq_3 quote c text other, if_pos member]

theorem body_close (plain : quote ≠ '\\') (text : List Char) :
    body quote (quote :: text) = ⟨none, [quote], [], text⟩ := by
  rw [body.eq_4 quote quote text (fun _ same => absurd same plain)
    (fun _ _ same => absurd same plain), if_pos rfl]

/-- A character that a body passes over without ending or escaping. -/
structure Raw (quote c : Char) : Prop where
  unescaped : c ≠ '\\'
  unquoted : c ≠ quote
  member : isStringCharacter c = true

theorem body_raw {c : Char} (raw : Raw quote c) (text : List Char) :
    body quote (c :: text) = (body quote text).prepend [c] := by
  obtain ⟨unescaped, unquoted, member⟩ := raw
  rw [body.eq_4 quote c text (fun _ same => absurd same unescaped)
    (fun _ _ same => absurd same unescaped), if_neg unquoted, if_pos member]

theorem body_raws {run : List Char} (raw : ∀ c ∈ run, Raw quote c) (text : List Char) :
    body quote (run ++ text) = (body quote text).prepend run := by
  induction run with
  | nil => rfl
  | cons c run ih =>
      have behind : ∀ d ∈ run, Raw quote d := fun d inside => raw d (List.mem_cons_of_mem c inside)
      rw [List.cons_append, body_raw (raw c List.mem_cons_self), ih behind, Body.prepend_prepend]
      rfl

structure Ends (quote c : Char) : Prop where
  unescaped : c ≠ '\\'
  unquoted : c ≠ quote
  outside : ¬isStringCharacter c = true

theorem body_ends {c : Char} (ends : Ends quote c) (text : List Char) :
    body quote (c :: text) = .unterminated [] (c :: text) := by
  obtain ⟨unescaped, unquoted, outside⟩ := ends
  rw [body.eq_4 quote c text (fun _ same => absurd same unescaped)
    (fun _ _ same => absurd same unescaped), if_neg unquoted, if_neg outside]

theorem body_escaped_ends {c : Char} (ends : Ends quote c) (text : List Char) :
    body quote ('\\' :: c :: text) = .unterminated ['\\'] (c :: text) := by
  have letter : c ≠ 'u' := by
    rintro rfl
    exact ends.outside (by decide)
  rw [body.eq_3 quote c text letter, if_neg ends.outside]

theorem body_lone (plain : quote ≠ '\\') : body quote ['\\'] = .unterminated ['\\'] [] := by
  have last : ∀ c text, ([] : List Char) ≠ c :: text := fun c text => (List.cons_ne_nil c text).symm
  rw [body.eq_4 quote '\\' [] (fun text _ => last 'u' text) (fun c text _ => last c text),
    if_neg (Ne.symm plain), if_pos (by decide), body]
  rfl

theorem literalTail_close (plain : quote ≠ '\\') (text : List Char) :
    literalTail quote (quote :: text) = [quote] := by
  rw [literalTail.eq_3 quote quote text (fun _ _ same => absurd same plain), if_pos rfl]

theorem literalTail_raws {run : List Char} (raw : ∀ c ∈ run, Raw quote c) (text : List Char) :
    literalTail quote (run ++ text) = run ++ literalTail quote text := by
  induction run with
  | nil => rfl
  | cons c run ih =>
      obtain ⟨unescaped, unquoted, member⟩ := raw c List.mem_cons_self
      have behind : ∀ d ∈ run, Raw quote d := fun d inside => raw d (List.mem_cons_of_mem c inside)
      rw [List.cons_append, literalTail.eq_3 quote c _ (fun _ _ same => absurd same unescaped),
        if_neg unquoted, if_pos member, ih behind]
      rfl

theorem literalTail_ends {c : Char} (ends : Ends quote c) (text : List Char) :
    literalTail quote (c :: text) = [] := by
  obtain ⟨unescaped, unquoted, outside⟩ := ends
  rw [literalTail.eq_3 quote c text (fun _ _ same => absurd same unescaped), if_neg unquoted,
    if_neg outside]

theorem literalTail_lone (quote : Char) : literalTail quote ['\\'] = ['\\'] := by
  have last : ∀ c text, ([] : List Char) ≠ c :: text := fun c text => (List.cons_ne_nil c text).symm
  have member : isStringCharacter '\\' = true := by decide
  rw [literalTail.eq_3 quote '\\' [] (fun c text _ => last c text), literalTail, if_pos member,
    ite_self]

theorem body_fault_mem {text : List Char} {code : ErrorCode}
    (faulty : (body quote text).fault = some code) : code ∈ literalCodes := by
  fun_induction body quote text with
  | case1 => obtain rfl := Option.some.inj faulty; decide
  | case2 text escaped known found =>
      obtain rfl := Option.some.inj faulty
      exact escape_fault_mem found
  | case3 text escaped sound ih => exact ih faulty
  | case4 c text other member ih => exact ih faulty
  | case5 => obtain rfl := Option.some.inj faulty; decide
  | case6 => cases faulty
  | case7 c text _ lone outside member ih => exact ih faulty
  | case8 => obtain rfl := Option.some.inj faulty; decide

end Body
end ScriptLexer.Scan
