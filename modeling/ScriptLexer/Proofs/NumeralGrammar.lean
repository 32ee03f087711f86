import Mathlib
import ScriptLexer.Proofs.Numeral
import ScriptLexer.Proofs.Pull

/-! The grammar of numbers: a sign, a run of digits and separators, and behind a point another. A
number is accepted if both runs are sound, else the fault is the first from the left, and the number
takes every digit, separator and point that follows with it. -/

namespace ScriptLexer
namespace Scan

def StartsWithDigit (text : List Char) : Prop :=
  ∃ c, text.head? = some c ∧ isDecimalDigit c = true

def signings : List (List Char) := [[], ['+'], ['-']]

/-- What stands behind a sign begins a number: a digit, or without a sign a point and a digit. -/
def BeginsNumber (signs body : List Char) : Prop :=
  StartsWithDigit body ∨ signs = [] ∧ ∃ after, body = '.' :: after ∧ StartsWithDigit after

def wholeRun (body : List Char) : List Char := body.takeWhile isDigitOrSeparator

def fractionRun? (body : List Char) : Option (List Char) :=
  match body.dropWhile isDigitOrSeparator with
  | '.' :: after => some (after.takeWhile isDigitOrSeparator)
  | _ => none

def written (signs whole : List Char) (fraction? : Option (List Char)) : List Char :=
  signs ++ whole ++ fraction?.elim [] ('.' :: ·)

structure Separated (run : List Char) : Prop where
  single : ¬['_', '_'] <:+: run
  inner : run.getLast? ≠ some '_'

def SoundWhole (whole : List Char) : Prop :=
  whole = [] ∨ whole = ['0'] ∨
    StartsWithDigit whole ∧ whole.head? ≠ some '0' ∧ Separated whole

def SoundFraction (digits : List Char) : Prop :=
  digits = [] ∨ StartsWithDigit digits ∧ Separated digits

def SoundNumber (whole : List Char) (fraction? : Option (List Char)) : Prop :=
  SoundWhole whole ∧ ∀ digits, fraction? = some digits → SoundFraction digits

inductive RunFault (run : List Char) : ErrorCode → Prop
  | doubled (double : ['_', '_'] <:+: run) : RunFault run .multipleNumericSeparatorsNotAllowed
  | trailing (single : ¬['_', '_'] <:+: run) (last : run.getLast? = some '_') :
      RunFault run .numericSeparatorNotAllowed

inductive WholeFault (whole : List Char) : ErrorCode → Prop
  | octal (zero : whole.head? = some '0') (longer : 1 < whole.length) :
      WholeFault whole .octalLiteralsNotSupported
  | run {code : ErrorCode} (digit : StartsWithDigit whole) (nonzero : whole.head? ≠ some '0')
      (fault : RunFault whole code) : WholeFault whole code

inductive FractionFault (digits : List Char) : ErrorCode → Prop
  | leading (first : digits.head? = some '_') : FractionFault digits .numericSeparatorNotAllowed
  | run {code : ErrorCode} (digit : StartsWithDigit digits) (fault : RunFault digits code) :
      FractionFault digits code

/-- The fault that comes first, from the left. -/
inductive NumberFault (whole : List Char) (fraction? : Option (List Char)) : ErrorCode → Prop
  | whole {code : ErrorCode} (fault : WholeFault whole code) : NumberFault whole fraction? code
  | fraction {code : ErrorCode} {digits : List Char} (sound : SoundWhole whole)
      (pointed : fraction? = some digits) (fault : FractionFault digits code) :
      NumberFault whole fraction? code

section Runs

theorem hasDoubleSeparator_iff (run : List Char) :
    hasDoubleSeparator run = true ↔ ['_', '_'] <:+: run := by
  induction run with
  | nil => simp [hasDoubleSeparator]
  | cons c run ih =>
      rw [hasDoubleSeparator, Bool.or_eq_true, ih, List.infix_cons_iff]
      apply or_congr_left
      cases run with
      | nil => simp
      | cons d run =>
          simp only [isNumericSeparator, List.head?_cons, Option.any_some, Bool.and_eq_true,
            beq_iff_eq, List.cons_prefix_cons, List.nil_prefix, and_true]
          exact and_congr eq_comm eq_comm

variable {run : List Char} {code : ErrorCode}

theorem separatorFault?_eq_some_iff : separatorFault? run = some code ↔ RunFault run code := by
  have last : run.getLast?.any isNumericSeparator = true ↔ run.getLast? = some '_' := by
    cases run.getLast? <;> simp [isNumericSeparator]
  unfold separatorFault?
  constructor
  · intro faulty
    split at faulty
    · rename_i double
      obtain rfl := Option.some.inj faulty
      exact .doubled ((hasDoubleSeparator_iff run).mp double)
    · rename_i single
      rw [hasDoubleSeparator_iff] at single
      split at faulty
      · rename_i trailing
        obtain rfl := Option.some.inj faulty
        exact .trailing single (last.mp trailing)
      · cases faulty
  · intro fault
    cases fault with
    | doubled double => rw [if_pos ((hasDoubleSeparator_iff run).mpr double)]
    | trailing single trailing =>
        rw [← hasDoubleSeparator_iff] at single
        rw [if_neg single, if_pos (last.mpr trailing)]

theorem separated_iff : Separated run ↔ ∀ code, ¬RunFault run code := by
  constructor
  · rintro ⟨single, inner⟩ code fault
    cases fault with
    | doubled double => exact single double
    | trailing _ last => exact inner last
  · intro faultless
    have single : ¬['_', '_'] <:+: run := fun double => faultless _ (.doubled double)
    exact ⟨single, fun last => faultless _ (.trailing single last)⟩

theorem not_runFault_of_short (short : run.length ≤ 1) (digit : run.head? ≠ some '_') :
    ¬RunFault run code := by
  intro fault
  cases fault with
  | doubled double =>
      have two := double.length_le
      simp only [List.length_cons, List.length_nil] at two
      omega
  | trailing _ last =>
      match run, short with
      | [], _ => cases last
      | [c], _ => exact digit last

theorem StartsWithDigit.head_ne {text : List Char} (starts : StartsWithDigit text) :
    text.head? ≠ some '_' := by
  obtain ⟨c, first, digit⟩ := starts
  rw [first]
  rintro same
  obtain rfl := Option.some.inj same
  cases digit

end Runs

section Whole

variable {whole : List Char} (starts : whole = [] ∨ StartsWithDigit whole) {code : ErrorCode}
include starts

theorem runFault_of_whole (fault : RunFault whole code)
    (single : ¬(whole.head? = some '0' ∧ 1 < whole.length)) : WholeFault whole code := by
  rcases starts with rfl | digit
  · exact absurd fault (not_runFault_of_short (Nat.zero_le 1) (by simp))
  · refine .run digit (fun zero => ?_) fault
    exact not_runFault_of_short (by_contra fun long => single ⟨zero, by omega⟩) digit.head_ne fault

theorem wholeFault?_eq_some_iff : wholeFault? whole = some code ↔ WholeFault whole code := by
  -- A leading zero is found before any separator is looked at.
  by_cases octal : whole.head? = some '0' ∧ 1 < whole.length
  · obtain ⟨zero, longer⟩ := octal
    have faulty : wholeFault? whole = some .octalLiteralsNotSupported := by
      obtain ⟨digits, rfl⟩ := List.head?_eq_some_iff.mp zero
      cases digits with
      | nil => exact absurd longer (Nat.lt_irrefl 1)
      | cons => rfl
    rw [faulty]
    constructor
    · intro same
      obtain rfl := Option.some.inj same
      exact .octal zero longer
    · intro fault
      cases fault with
      | octal => rfl
      | run _ nonzero => exact absurd zero nonzero
  · have same : wholeFault? whole = separatorFault? whole := by
      apply wholeFault?.eq_2
      rintro c digits rfl
      exact octal ⟨rfl, by simp⟩
    rw [same, separatorFault?_eq_some_iff]
    constructor
    · exact fun fault => runFault_of_whole starts fault octal
    · intro fault
      cases fault with
      | octal zero longer => exact absurd ⟨zero, longer⟩ octal
      | run _ _ fault => exact fault

theorem soundWhole_iff : SoundWhole whole ↔ ∀ code, ¬WholeFault whole code := by
  constructor
  · intro sound code fault
    rcases sound with rfl | rfl | ⟨_, nonzero, separated⟩
    · cases fault with
      | octal zero => cases zero
      | run digit => obtain ⟨_, first, _⟩ := digit; cases first
    · cases fault with
      | octal _ longer => exact absurd longer (Nat.lt_irrefl 1)
      | run _ nonzero => exact nonzero rfl
    · cases fault with
      | octal zero => exact nonzero zero
      | run _ _ fault => exact separated_iff.mp separated code fault
  · intro faultless
    rcases starts with rfl | digit
    · exact .inl rfl
    by_cases zero : whole.head? = some '0'
    · have short : ¬1 < whole.length := fun longer => faultless _ (.octal zero longer)
      obtain ⟨tail, rfl⟩ := List.head?_eq_some_iff.mp zero
      have nothing : tail = [] := by
        apply List.eq_nil_of_length_eq_zero
        simp only [List.length_cons] at short
        omega
      exact .inr (.inl (by rw [nothing]))
    · refine .inr (.inr ⟨digit, zero, separated_iff.mpr fun code fault => ?_⟩)
      exact faultless code (.run digit zero fault)

theorem wholeFault?_eq_none_iff : wholeFault? whole = none ↔ SoundWhole whole := by
  rw [soundWhole_iff starts, Option.eq_none_iff_forall_ne_some]
  exact forall_congr' fun code => not_congr (wholeFault?_eq_some_iff starts)

end Whole

section Fraction

variable {digits : List Char} (inside : ∀ c ∈ digits, isDigitOrSeparator c = true)
  {code : ErrorCode}
include inside

theorem run_cases : digits = [] ∨ digits.head? = some '_' ∨ StartsWithDigit digits := by
  cases digits with
  | nil => exact .inl rfl
  | cons c digits =>
      have member := inside c List.mem_cons_self
      rw [isDigitOrSeparator, Bool.or_eq_true] at member
      rcases member with digit | separator
      · exact .inr (.inr ⟨c, rfl, digit⟩)
      · exact .inr (.inl (congrArg some (by simpa [isNumericSeparator] using separator)))

theorem fractionFault?_eq_some_iff :
    fractionFault? digits = some code ↔ FractionFault digits code := by
  have first : digits.head?.any isNumericSeparator = true ↔ digits.head? = some '_' := by
    cases digits.head? <;> simp [isNumericSeparator]
  unfold fractionFault?
  by_cases leading : digits.head? = some '_'
  · rw [if_pos (first.mpr leading)]
    constructor
    · intro same
      obtain rfl := Option.some.inj same
      exact .leading leading
    · intro fault
      cases fault with
      | leading => rfl
      | run digit => exact absurd leading digit.head_ne
  · rw [if_neg (mt first.mp leading), separatorFault?_eq_some_iff]
    constructor
    · intro fault
      rcases run_cases inside with rfl | separator | digit
      · exact absurd fault (not_runFault_of_short (Nat.zero_le 1) leading)
      · exact absurd separator leading
      · exact .run digit fault
    · intro fault
      cases fault with
      | leading separator => exact absurd separator leading
      | run _ fault => exact fault

theorem fractionFault?_eq_none_iff : fractionFault? digits = none ↔ SoundFraction digits := by
  rw [Option.eq_none_iff_forall_ne_some,
    forall_congr' fun code => not_congr (fractionFault?_eq_some_iff inside)]
  constructor
  · intro faultless
    rcases run_cases inside with rfl | separator | digit
    · exact .inl rfl
    · exact absurd (.leading separator) (faultless _)
    · exact .inr ⟨digit, separated_iff.mpr fun code fault => faultless code (.run digit fault)⟩
  · intro sound code fault
    rcases sound with rfl | ⟨digit, separated⟩
    · cases fault with
      | leading first => cases first
      | run digit => obtain ⟨_, first, _⟩ := digit; cases first
    · cases fault with
      | leading first => exact digit.head_ne first
      | run _ fault => exact separated_iff.mp separated code fault

end Fraction

section Number

variable {signs body : List Char}

theorem whole_starts (begins : BeginsNumber signs body) :
    wholeRun body = [] ∨ StartsWithDigit (wholeRun body) := by
  unfold wholeRun
  rcases begins with ⟨c, first, digit⟩ | ⟨_, after, rfl, _⟩
  · obtain ⟨tail, rfl⟩ := List.head?_eq_some_iff.mp first
    right
    refine ⟨c, ?_, digit⟩
    have member : isDigitOrSeparator c = true := by simp [isDigitOrSeparator, digit]
    rw [List.takeWhile_cons_of_pos member]
    rfl
  · left
    exact List.takeWhile_cons_of_neg (by simp [point_not_digitOrSeparator])

theorem sign_of_begins (signed : signs ∈ signings) (begins : BeginsNumber signs body) :
    sign (signs ++ body) = signs := by
  simp only [signings, List.mem_cons, List.not_mem_nil, or_false] at signed
  rcases signed with rfl | rfl | rfl
  · rcases begins with ⟨c, first, digit⟩ | ⟨_, after, rfl, _⟩
    · obtain ⟨tail, rfl⟩ := List.head?_eq_some_iff.mp first
      have unsigned : isSign c = false := by
        apply Bool.eq_false_iff.mpr
        intro member
        simp only [isSign, Bool.or_eq_true, beq_iff_eq] at member
        rcases member with rfl | rfl <;> cases digit
      simp [sign, unsigned]
    · rfl
  · rfl
  · rfl

theorem startsNumber_of_begins (signed : signs ∈ signings) (begins : BeginsNumber signs body) :
    startsNumber (signs ++ body) = true := by
  simp only [signings, List.mem_cons, List.not_mem_nil, or_false] at signed
  rcases begins with ⟨c, first, digit⟩ | ⟨rfl, after, rfl, c, first, digit⟩
  · obtain ⟨tail, rfl⟩ := List.head?_eq_some_iff.mp first
    rcases signed with rfl | rfl | rfl <;> simp [startsNumber, digit, isSign]
  · simp [startsNumber, first, digit]

theorem point_of_fractionRun? {digits : List Char} (pointed : fractionRun? body = some digits) :
    ∃ after, body.dropWhile isDigitOrSeparator = '.' :: after ∧
      digits = after.takeWhile isDigitOrSeparator := by
  unfold fractionRun? at pointed
  split at pointed
  · rename_i after behind
    exact ⟨after, behind, (Option.some.inj pointed).symm⟩
  · cases pointed

theorem fractionRun?_inside {digits : List Char} (pointed : fractionRun? body = some digits) :
    ∀ c ∈ digits, isDigitOrSeparator c = true := by
  obtain ⟨after, _, rfl⟩ := point_of_fractionRun? pointed
  exact fun _ => List.mem_takeWhile_imp

theorem soundNumber_iff (begins : BeginsNumber signs body) :
    SoundNumber (wholeRun body) (fractionRun? body) ↔ wholeFault? (wholeRun body) = none ∧
      ∀ digits, fractionRun? body = some digits → fractionFault? digits = none := by
  rw [wholeFault?_eq_none_iff (whole_starts begins)]
  apply and_congr_right
  intro sound
  apply forall_congr'
  intro digits
  apply forall_congr'
  intro pointed
  exact (fractionFault?_eq_none_iff (fractionRun?_inside pointed)).symm

variable (signed : sign (signs ++ body) = signs)
include signed

theorem number_of_sound (sound : wholeFault? (wholeRun body) = none)
    (valid : ∀ digits, fractionRun? body = some digits → fractionFault? digits = none) :
    ∃ rest, written signs (wholeRun body) (fractionRun? body) ++ rest = signs ++ body ∧
      number (signs ++ body) =
        accept (numberToken (written signs (wholeRun body) (fractionRun? body)))
          (written signs (wholeRun body) (fractionRun? body)) rest := by
  unfold wholeRun at sound ⊢
  have parts := List.takeWhile_append_dropWhile (p := isDigitOrSeparator) (l := body)
  unfold number
  unfold fractionRun? at valid ⊢
  simp only [unsigned_append signed, signed, sound]
  split
  · rename_i after pointed
    simp only [pointed] at valid ⊢
    rw [valid _ rfl]
    refine ⟨after.dropWhile isDigitOrSeparator, ?_, rfl⟩
    have run := List.takeWhile_append_dropWhile (p := isDigitOrSeparator) (l := after)
    conv => rhs; rw [← parts, pointed, ← run]
    simp [written]
  · rename_i pointless
    refine ⟨body.dropWhile isDigitOrSeparator, ?_, ?_⟩
    · conv => rhs; rw [← parts]
      simp [written]
    · simp [written]

theorem number_of_fault (begins : BeginsNumber signs body) {code : ErrorCode}
    (fault : NumberFault (wholeRun body) (fractionRun? body) code) :
    number (signs ++ body) = malformedNumber code (signs ++ body) := by
  have starts := whole_starts begins
  unfold wholeRun at starts fault
  unfold number
  simp only [unsigned_append signed]
  cases fault with
  | whole fault => rw [(wholeFault?_eq_some_iff starts).mpr fault]
  | @fraction digits sound pointed fault =>
      have faulty := (fractionFault?_eq_some_iff (fractionRun?_inside pointed)).mpr fault
      obtain ⟨after, behind, rfl⟩ := point_of_fractionRun? pointed
      rw [(wholeFault?_eq_none_iff starts).mpr sound, behind]
      simp only [faulty]

omit signed in
theorem exists_numberFault (begins : BeginsNumber signs body)
    (unsound : ¬SoundNumber (wholeRun body) (fractionRun? body)) :
    ∃ code, NumberFault (wholeRun body) (fractionRun? body) code := by
  have starts := whole_starts begins
  rw [soundNumber_iff begins] at unsound
  cases known : wholeFault? (wholeRun body) with
  | some code => exact ⟨code, .whole ((wholeFault?_eq_some_iff starts).mp known)⟩
  | none =>
      simp only [known, true_and, not_forall] at unsound
      obtain ⟨digits, pointed, faulty⟩ := unsound
      obtain ⟨code, found⟩ := Option.ne_none_iff_exists'.mp faulty
      have fault := (fractionFault?_eq_some_iff (fractionRun?_inside pointed)).mp found
      exact ⟨code, .fraction ((wholeFault?_eq_none_iff starts).mp known) pointed fault⟩

end Number
end Scan

namespace Lexer

/-- Both runs of a number decide whether it is accepted, as far as it is written. If it is not, the
fault that comes first is reported, and nothing of the run of digits, separators and points is left. -/
theorem next_numericLiteral {lexer : Lexer} {signs body : List Char}
    (signed : signs ∈ Scan.signings) (begins : Scan.BeginsNumber signs body)
    (visible : lexer.cursor.rest.dropWhile isWhitespace = signs ++ body) :
    let whole := Scan.wholeRun body
    let fraction? := Scan.fractionRun? body
    let literal := Scan.written signs whole fraction?
    let rest := lexer.next.lexer.cursor.rest
    (lexer.next.token? = some (Token.ofText .numericLiteral literal) ↔
        Scan.SoundNumber whole fraction?) ∧
      (Scan.SoundNumber whole fraction? →
        lexer.next.report? = none ∧ literal ++ rest = signs ++ body) ∧
      (¬Scan.SoundNumber whole fraction? →
        lexer.next.token? = some .invalid ∧ rest = body.dropWhile isNumericRun ∧
          ∃ report, lexer.next.report? = some report ∧
            ∀ code, report.code = code ↔ Scan.NumberFault whole fraction? code) := by
  intro whole fraction? literal rest
  have sign := Scan.sign_of_begins signed begins
  have starts := Scan.startsNumber_of_begins signed begins
  obtain ⟨c, text, first⟩ : ∃ c text, signs ++ body = c :: text := by
    apply List.exists_cons_of_ne_nil
    intro nothing
    rw [nothing] at starts
    cases starts
  rw [first] at visible starts
  have scanned := Scan.leading_of_startsNumber starts
  rw [← first] at scanned
  have accepted : Scan.SoundNumber whole fraction? →
      lexer.next.token? = some (Token.ofText .numericLiteral literal) ∧
        lexer.next.report? = none ∧ literal ++ rest = signs ++ body := by
    intro sound
    obtain ⟨known, valid⟩ := (Scan.soundNumber_iff begins).mp sound
    obtain ⟨behind, parts, read⟩ := Scan.number_of_sound sign known valid
    rw [read] at scanned
    obtain ⟨token, report⟩ := next_of_token visible (by rw [scanned]; rfl)
    refine ⟨token, report, ?_⟩
    unfold rest
    rw [next_rest visible, scanned]
    exact parts
  have rejected : ∀ code, Scan.NumberFault whole fraction? code →
      lexer.next.token? = some .invalid ∧ rest = body.dropWhile isNumericRun ∧
        ∃ report, lexer.next.report? = some report ∧ report.code = code := by
    intro code fault
    rw [Scan.number_of_fault sign begins fault] at scanned
    obtain ⟨token, report⟩ := next_of_fault visible (by rw [scanned]; rfl)
    refine ⟨token, ?_, report⟩
    unfold rest
    rw [next_rest visible, scanned]
    exact congrArg (List.dropWhile isNumericRun) (Scan.unsigned_append sign)
  refine ⟨⟨fun given => ?_, fun sound => (accepted sound).1⟩, fun sound => (accepted sound).2,
    fun unsound => ?_⟩
  · by_contra unsound
    obtain ⟨code, fault⟩ := Scan.exists_numberFault begins unsound
    cases given.symm.trans (rejected code fault).1
  · obtain ⟨code, fault⟩ := Scan.exists_numberFault begins unsound
    obtain ⟨token, left, report, made, named⟩ := rejected code fault
    refine ⟨token, left, report, made, fun other => ⟨?_, fun another => ?_⟩⟩
    · rintro rfl
      rwa [named]
    · obtain ⟨_, _, again, same, other⟩ := rejected other another
      rw [Option.some.inj (made.symm.trans same), other]

theorem next_numericLiteral_points :
    let sound := ['0', '.', '5', '.', '7']
    let faulty := ['1', '_', '0', '.', '5', '_', '_', '2', '_', '.', '7', ';']
    let accepted := Lexer.ofText sound "s"
    let rejected := Lexer.ofText ('+' :: faulty) "s"
    [] ∈ Scan.signings ∧ ['+'] ∈ Scan.signings ∧ Scan.BeginsNumber [] sound ∧
      Scan.BeginsNumber ['+'] faulty ∧ accepted.cursor.rest.dropWhile isWhitespace = sound ∧
      rejected.cursor.rest.dropWhile isWhitespace = '+' :: faulty ∧
      Scan.SoundNumber ['0'] (some ['5']) ∧ accepted.next.lexer.cursor.rest = ['.', '7'] ∧
      Scan.NumberFault ['1', '_', '0'] (some ['5', '_', '_', '2', '_'])
        .multipleNumericSeparatorsNotAllowed ∧
      rejected.next.lexer.cursor.rest = [';'] := by
  intro sound faulty accepted rejected
  have plain : [] ∈ Scan.signings := by decide
  have signed : ['+'] ∈ Scan.signings := by decide
  have one : Scan.BeginsNumber [] sound := .inl ⟨'0', rfl, by decide⟩
  have other : Scan.BeginsNumber ['+'] faulty := .inl ⟨'1', rfl, by decide⟩
  have visible : accepted.cursor.rest.dropWhile isWhitespace = [] ++ sound := by decide
  have also : rejected.cursor.rest.dropWhile isWhitespace = ['+'] ++ faulty := by decide
  have token : accepted.next.token? = some (Token.ofText .numericLiteral ['0', '.', '5']) := by
    unfold accepted sound
    cbv
  have invalid : rejected.next.token? = some .invalid := by
    unfold rejected faulty
    cbv
  have report : rejected.next.report? =
      some ⟨"s", .multipleNumericSeparatorsNotAllowed, 1⟩ := by
    unfold rejected faulty
    cbv
  obtain ⟨accepts, takes, _⟩ := next_numericLiteral plain one visible
  obtain ⟨denies, _, rejects⟩ := next_numericLiteral signed other also
  have valid : Scan.SoundNumber ['0'] (some ['5']) := accepts.mp token
  have behind : ['0', '.', '5'] ++ accepted.next.lexer.cursor.rest = sound := (takes valid).2
  have unsound : ¬Scan.SoundNumber (Scan.wholeRun faulty) (Scan.fractionRun? faulty) := by
    intro valid
    cases invalid.symm.trans (denies.mpr valid)
  obtain ⟨_, left, made, reported, decided⟩ := rejects unsound
  rw [report] at reported
  refine ⟨plain, signed, one, other, visible, also, valid, List.append_cancel_left behind, ?_, left⟩
  exact (decided _).mp (by rw [← Option.some.inj reported])

end Lexer
end ScriptLexer
