import ScriptLexer.Proofs.Run

/-! Texts rewritten character by character. A rewriting leaves alone what is neither blank nor a
quote, sends quotes to quotes and a blank to blanks like it. A class that cannot tell a character
from what it becomes cuts the rewritten text where it cuts the text. -/

namespace ScriptLexer

def isPlain (c : Char) : Bool := !isWhitespace c && !isQuote c

theorem isPlain_of_printable {c : Char} (above : 0x27 < c.toNat) (below : c.toNat < 0x7F) :
    isPlain c = true := by
  have apart : ∀ d : Char, c.toNat ≠ d.toNat → (c == d) = false := by
    intro d differs
    apply beq_eq_false_iff_ne.mpr
    rintro rfl
    exact differs rfl
  have mark : (c == byteOrderMark) = false :=
    apart _ (Nat.ne_of_lt (Nat.lt_trans below (by decide)))
  have double : (c == '\x22') = false :=
    apart _ (Nat.ne_of_gt (Nat.lt_trans (by decide) above))
  have single : (c == '\'') = false := apart _ (Nat.ne_of_gt above)
  have outside : Unicode.isWhiteSpace c = false := by
    simp only [Unicode.isWhiteSpace, Unicode.whiteSpaceRanges, List.any_cons, List.any_nil,
      Bool.or_false, Bool.or_eq_false_iff, Bool.and_eq_false_iff, decide_eq_false_iff_not]
    omega
  simp only [isPlain, isWhitespace, isQuote, outside, mark, double, single, Bool.or_false,
    Bool.not_false, Bool.and_true]

theorem isPlain_of_between {first last c : Char} (above : 0x27 < first.toNat)
    (below : last.toNat < 0x7F) (low : first ≤ c) (high : c ≤ last) : isPlain c = true := by
  apply isPlain_of_printable
  · exact Nat.lt_of_lt_of_le above low
  · exact Nat.lt_of_le_of_lt high below

theorem isPlain_of_decimalDigit (c : Char) (digit : isDecimalDigit c = true) :
    isPlain c = true := by
  obtain ⟨low, high⟩ := Bool.and_eq_true_iff.mp digit
  have above : '0' ≤ c := of_decide_eq_true low
  have below : c ≤ '9' := of_decide_eq_true high
  exact isPlain_of_between (by decide) (by decide) above below

theorem isPlain_of_identifierPart (c : Char) (member : isIdentifierPart c = true) :
    isPlain c = true := by
  simp only [isIdentifierPart, isIdentifierStart, Bool.or_eq_true, beq_iff_eq] at member
  rcases member with ((alpha | rfl) | rfl) | digit
  · rcases Bool.or_eq_true_iff.mp alpha with upper | lower
    · obtain ⟨above, below⟩ : 'A' ≤ c ∧ c ≤ 'Z' := of_decide_eq_true upper
      exact isPlain_of_between (by decide) (by decide) above below
    · obtain ⟨low, high⟩ := Bool.and_eq_true_iff.mp lower
      have above : 'a' ≤ c := of_decide_eq_true low
      have below : c ≤ 'z' := of_decide_eq_true high
      exact isPlain_of_between (by decide) (by decide) above below
  · decide
  · decide
  · exact isPlain_of_decimalDigit c digit

theorem isPlain_of_numericRun (c : Char) (member : isNumericRun c = true) : isPlain c = true := by
  simp only [isNumericRun, isDigitOrSeparator, isNumericSeparator, Bool.or_eq_true,
    beq_iff_eq] at member
  rcases member with (digit | rfl) | rfl
  · exact isPlain_of_decimalDigit c digit
  · decide
  · decide

theorem isPlain_of_hexDigit (c : Char) (member : isHexDigit c = true) : isPlain c = true := by
  simp only [isHexDigit, Bool.or_eq_true, Bool.and_eq_true, decide_eq_true_eq] at member
  rcases member with digit | ⟨above, below⟩
  · exact isPlain_of_decimalDigit c digit
  · exact isPlain_of_between (by decide) (by decide) above below

theorem isPlain_of_operatorStart (c : Char) (start : isOperatorStart c = true) :
    isPlain c = true := by
  have table : operatorStarts.all isPlain = true := by decide
  exact List.all_eq_true.mp table c (by simpa [isOperatorStart] using start)

theorem isPlain_of_sign (c : Char) (signed : isSign c = true) : isPlain c = true := by
  simp only [isSign, Bool.or_eq_true, beq_iff_eq] at signed
  rcases signed with rfl | rfl <;> decide

theorem plain_or_quote_or_blank (c : Char) :
    isPlain c = true ∨ isQuote c = true ∨ isWhitespace c = true := by
  unfold isPlain
  cases isQuote c <;> cases isWhitespace c <;> decide

theorem not_isWhitespace_of_isQuote {c : Char} (quoting : isQuote c = true) :
    isWhitespace c = false := by
  simp only [isQuote, Bool.or_eq_true, beq_iff_eq] at quoting
  rcases quoting with rfl | rfl <;> decide

theorem not_isQuote_of_isWhitespace {c : Char} (blank : isWhitespace c = true) :
    isQuote c = false := by
  apply Bool.eq_false_iff.mpr
  intro quoting
  exact Bool.false_ne_true ((not_isWhitespace_of_isQuote quoting).symm.trans blank)

/-- What a character becomes. A blank becomes blanks that end lines and stand in string literals as
it does, and more than one only where string literals hold them. -/
structure Rewriting (image : Char → List Char) : Prop where
  plain : ∀ c, isPlain c = true → image c = [c]
  quote : ∀ c, isQuote c = true → ∃ d, isQuote d = true ∧ image c = [d]
  apart : ∀ c d, isQuote c = true → isQuote d = true → image c = image d → c = d
  blank : ∀ c, isWhitespace c = true → image c ≠ []
  alike : ∀ c, isWhitespace c = true → ∀ d ∈ image c, isWhitespace d = true ∧
    isLineTerminator d = isLineTerminator c ∧ isStringCharacter d = isStringCharacter c
  single : ∀ c, isStringCharacter c = false → ∃ d, image c = [d]

def Stable (image : Char → List Char) (holds : Char → Bool) : Prop :=
  ∀ c, ∀ d ∈ image c, holds d = holds c

theorem Stable.head {image : Char → List Char} {holds : Char → Bool} {c d : Char} {ds : List Char}
    (stable : Stable image holds) (becomes : image c = d :: ds) : holds d = holds c := by
  apply stable
  rw [becomes]
  exact List.mem_cons_self

namespace Rewriting

variable {image : Char → List Char} (rewriting : Rewriting image)
include rewriting

theorem image_ne_nil (c : Char) : image c ≠ [] := by
  rcases plain_or_quote_or_blank c with plain | quoting | blank
  · rw [rewriting.plain c plain]
    exact List.cons_ne_nil c []
  · obtain ⟨d, _, becomes⟩ := rewriting.quote c quoting
    rw [becomes]
    exact List.cons_ne_nil d []
  · exact rewriting.blank c blank

theorem visible {c : Char} (visible : isWhitespace c = false) : ∃ d, image c = [d] := by
  rcases plain_or_quote_or_blank c with plain | quoting | blank
  · exact ⟨c, rewriting.plain c plain⟩
  · obtain ⟨d, _, becomes⟩ := rewriting.quote c quoting
    exact ⟨d, becomes⟩
  · rw [visible] at blank
    cases blank

theorem single_or_blank (c : Char) :
    (∃ d, image c = [d]) ∨ isWhitespace c = true ∧ isStringCharacter c = true := by
  cases blank : isWhitespace c with
  | false => exact .inl (rewriting.visible blank)
  | true =>
      cases member : isStringCharacter c with
      | false => exact .inl (rewriting.single c member)
      | true => exact .inr ⟨rfl, rfl⟩

theorem stable_isPlain : Stable image isPlain := by
  intro c d member
  rcases plain_or_quote_or_blank c with plain | quoting | blank
  · rw [rewriting.plain c plain] at member
    rw [List.mem_singleton.mp member]
  · obtain ⟨e, also, becomes⟩ := rewriting.quote c quoting
    rw [becomes] at member
    rw [List.mem_singleton.mp member]
    simp only [isPlain, quoting, also, Bool.not_true, Bool.and_false]
  · have also := (rewriting.alike c blank d member).1
    simp only [isPlain, blank, also, Bool.not_true, Bool.false_and]

theorem eq_of_mem_plain {c d : Char} (member : d ∈ image c) (plain : isPlain d = true) : c = d := by
  have also : isPlain c = true := by rw [← rewriting.stable_isPlain c d member, plain]
  rw [rewriting.plain c also] at member
  exact (List.mem_singleton.mp member).symm

/-- A class holds on when it holds for what a blank becomes, and for either quote or neither. -/
theorem stable_of_alike {holds : Char → Bool} (quotes : holds '\x22' = holds '\'')
    (blanks : ∀ c, isWhitespace c = true → ∀ d ∈ image c, holds d = holds c) :
    Stable image holds := by
  have same : ∀ c, isQuote c = true → holds c = holds '\'' := by
    intro c quoting
    simp only [isQuote, Bool.or_eq_true, beq_iff_eq] at quoting
    rcases quoting with rfl | rfl
    · exact quotes
    · rfl
  intro c d member
  rcases plain_or_quote_or_blank c with plain | quoting | blank
  · rw [rewriting.plain c plain] at member
    rw [List.mem_singleton.mp member]
  · obtain ⟨e, also, becomes⟩ := rewriting.quote c quoting
    rw [becomes] at member
    rw [List.mem_singleton.mp member, same e also, same c quoting]
  · exact blanks c blank d member

theorem stable_isWhitespace : Stable image isWhitespace := by
  apply rewriting.stable_of_alike (by decide)
  intro c blank d member
  rw [blank, (rewriting.alike c blank d member).1]

theorem stable_isLineTerminator : Stable image isLineTerminator :=
  rewriting.stable_of_alike (by decide) fun c blank d member =>
    (rewriting.alike c blank d member).2.1

theorem stable_isStringCharacter : Stable image isStringCharacter :=
  rewriting.stable_of_alike (by decide) fun c blank d member =>
    (rewriting.alike c blank d member).2.2

theorem stable_isQuote : Stable image isQuote := by
  apply rewriting.stable_of_alike (by decide)
  intro c blank d member
  rw [not_isQuote_of_isWhitespace blank,
    not_isQuote_of_isWhitespace (rewriting.alike c blank d member).1]

theorem stable_of_plain {holds : Char → Bool} (inside : ∀ c, holds c = true → isPlain c = true) :
    Stable image holds := by
  intro c d member
  by_cases plain : isPlain c = true
  · rw [rewriting.plain c plain] at member
    rw [List.mem_singleton.mp member]
  · have outside : ∀ e, isPlain e = false → holds e = false := by
      intro e changed
      apply Bool.eq_false_iff.mpr
      intro holding
      exact Bool.false_ne_true (changed.symm.trans (inside e holding))
    have changes : isPlain c = false := Bool.eq_false_iff.mpr plain
    rw [outside c changes, outside d (by rw [rewriting.stable_isPlain c d member, changes])]

theorem flatMap_plain {run : List Char} (plain : ∀ c ∈ run, isPlain c = true) :
    run.flatMap image = run := by
  induction run with
  | nil => rfl
  | cons c run ih =>
      rw [List.flatMap_cons, rewriting.plain c (plain c List.mem_cons_self),
        ih fun d member => plain d (List.mem_cons_of_mem c member)]
      rfl

theorem cons_plain {c : Char} (plain : isPlain c = true) (text : List Char) :
    (c :: text).flatMap image = c :: text.flatMap image := by
  rw [List.flatMap_cons, rewriting.plain c plain]
  rfl

theorem exists_of_cons_plain {c : Char} {text more : List Char} (plain : isPlain c = true)
    (begins : text.flatMap image = c :: more) :
    ∃ tail, text = c :: tail ∧ more = tail.flatMap image := by
  cases text with
  | nil => cases begins
  | cons d tail =>
      obtain ⟨e, es, becomes⟩ := List.exists_cons_of_ne_nil (rewriting.image_ne_nil d)
      rw [List.flatMap_cons, becomes] at begins
      obtain ⟨rfl, left⟩ := List.cons.inj begins
      obtain rfl := rewriting.eq_of_mem_plain (by rw [becomes]; exact List.mem_cons_self) plain
      rw [rewriting.plain d plain] at becomes
      obtain ⟨_, rfl⟩ := List.cons.inj becomes
      exact ⟨tail, rfl, left.symm⟩

theorem prefix_of_plain {ahead text : List Char} (plain : ∀ c ∈ ahead, isPlain c = true)
    (follows : ahead <+: text.flatMap image) : ahead <+: text := by
  induction ahead generalizing text with
  | nil => exact List.nil_prefix
  | cons c ahead ih =>
      obtain ⟨more, parts⟩ := follows
      obtain ⟨tail, rfl, left⟩ := rewriting.exists_of_cons_plain (plain c List.mem_cons_self)
        parts.symm
      have still := ih (fun d member => plain d (List.mem_cons_of_mem c member)) ⟨more, left⟩
      exact (List.prefix_cons_inj c).mpr still

section Run

variable {holds : Char → Bool} (stable : Stable image holds)
include stable

theorem takeWhile_flatMap (text : List Char) :
    (text.flatMap image).takeWhile holds = (text.takeWhile holds).flatMap image ∧
      (text.flatMap image).dropWhile holds = (text.dropWhile holds).flatMap image := by
  induction text with
  | nil => exact ⟨rfl, rfl⟩
  | cons c text ih =>
      by_cases member : holds c = true
      · have inside : ∀ d ∈ image c, holds d = true := by
          intro d becomes
          rw [stable c d becomes, member]
        rw [List.flatMap_cons, List.takeWhile_append_of_pos inside,
          List.dropWhile_append_of_pos inside, List.takeWhile_cons_of_pos member,
          List.dropWhile_cons_of_pos member, ih.1, ih.2]
        exact ⟨rfl, rfl⟩
      · obtain ⟨d, ds, becomes⟩ := List.exists_cons_of_ne_nil (rewriting.image_ne_nil c)
        have outside : ¬holds d = true := by
          rw [stable.head becomes]
          exact member
        rw [List.takeWhile_cons_of_neg member, List.dropWhile_cons_of_neg member,
          List.flatMap_cons, becomes, List.cons_append, List.takeWhile_cons_of_neg outside,
          List.dropWhile_cons_of_neg outside]
        exact ⟨rfl, rfl⟩

theorem stops_flatMap {text : List Char} (stops : Stops holds text) :
    Stops holds (text.flatMap image) := by
  obtain ⟨_, left⟩ := rewriting.takeWhile_flatMap stable text
  rw [(takeWhile_stopped stops).2] at left
  rw [← left]
  exact stops_dropWhile holds (text.flatMap image)

theorem head?_any_flatMap (text : List Char) :
    (text.flatMap image).head?.any holds = text.head?.any holds := by
  cases text with
  | nil => rfl
  | cons c text =>
      obtain ⟨d, ds, becomes⟩ := List.exists_cons_of_ne_nil (rewriting.image_ne_nil c)
      rw [List.flatMap_cons, becomes]
      exact stable.head becomes

end Run

theorem takeWhile_plain {holds : Char → Bool} (inside : ∀ c, holds c = true → isPlain c = true)
    (text : List Char) :
    (text.flatMap image).takeWhile holds = text.takeWhile holds ∧
      (text.flatMap image).dropWhile holds = (text.dropWhile holds).flatMap image ∧
      (text.takeWhile holds).flatMap image = text.takeWhile holds := by
  obtain ⟨run, left⟩ := rewriting.takeWhile_flatMap (rewriting.stable_of_plain inside) text
  have same : (text.takeWhile holds).flatMap image = text.takeWhile holds := by
    apply rewriting.flatMap_plain
    intro c member
    exact inside c (List.mem_takeWhile_imp member)
  exact ⟨run.trans same, left, same⟩

end Rewriting
end ScriptLexer
