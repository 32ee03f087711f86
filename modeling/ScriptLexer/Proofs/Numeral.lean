import ScriptLexer.Proofs.Run
import ScriptLexer.Scan.Number

/-! The two outcomes of a number. Its run of digits, separators and points decides alone whether it
is malformed; if it is not, the number ends in front of a character that cannot go on with it. -/

namespace ScriptLexer.Scan

theorem isNumericRun_of_digitOrSeparator (c : Char) (member : isDigitOrSeparator c = true) :
    isNumericRun c = true := by
  simp [isNumericRun, member]

theorem point_not_digitOrSeparator : isDigitOrSeparator '.' = false := by decide

def numeralFault? (run : List Char) : Option ErrorCode :=
  match wholeFault? (run.takeWhile isDigitOrSeparator) with
  | some code => some code
  | none =>
      match run.dropWhile isDigitOrSeparator with
      | '.' :: after => fractionFault? (after.takeWhile isDigitOrSeparator)
      | _ => none

section Signed

variable {signs body : List Char}

theorem unsigned_append (signed : sign (signs ++ body) = signs) : unsigned (signs ++ body) = body := by
  rw [unsigned, signed, List.drop_left]

theorem sign_append_congr {other : List Char} (signed : sign (signs ++ body) = signs)
    (same : other.head? = body.head?) : sign (signs ++ other) = signs := by
  cases signs with
  | cons c signs => simpa [sign] using signed
  | nil =>
      cases other with
      | nil => rfl
      | cons c other =>
          cases body with
          | nil => cases same
          | cons d body =>
              obtain rfl := Option.some.inj same
              simpa [sign] using signed

theorem number_malformed {run rest : List Char} {code : ErrorCode}
    (signed : sign (signs ++ (run ++ rest)) = signs) (inside : ∀ c ∈ run, isNumericRun c = true)
    (stops : Stops isNumericRun rest) (faulty : numeralFault? run = some code) :
    number (signs ++ (run ++ rest)) = reject code (signs ++ run) [] rest := by
  have body := unsigned_append signed
  have narrow : Stops isDigitOrSeparator rest := stops.within isNumericRun_of_digitOrSeparator
  obtain ⟨whole, behind⟩ := takeWhile_append_stopped run narrow
  obtain ⟨taken, left⟩ := takeWhile_run inside stops
  have malformed : ∀ code, malformedNumber code (signs ++ (run ++ rest)) =
      reject code (signs ++ run) [] rest := by
    intro code
    rw [malformedNumber, signed, body, taken, left]
  unfold numeralFault? at faulty
  unfold number
  simp only [body, whole, behind]
  cases known : wholeFault? (run.takeWhile isDigitOrSeparator) with
  | some other =>
      simp only [known] at faulty
      obtain rfl := Option.some.inj faulty
      simp only [malformed]
  | none =>
      simp only [known] at faulty
      split at faulty
      · rename_i after pointed
        have digits := (takeWhile_append_stopped after narrow).1
        simp only [pointed, List.cons_append, digits, faulty, malformed]
      · cases faulty

theorem number_whole {whole rest : List Char} (signed : sign (signs ++ (whole ++ rest)) = signs)
    (inside : ∀ c ∈ whole, isDigitOrSeparator c = true) (stops : Stops isNumericRun rest)
    (sound : wholeFault? whole = none) :
    number (signs ++ (whole ++ rest)) = accept (numberToken (signs ++ whole)) (signs ++ whole) rest := by
  have body := unsigned_append signed
  obtain ⟨taken, left⟩ :=
    takeWhile_run inside (stops.within isNumericRun_of_digitOrSeparator)
  unfold number
  simp only [body, taken, left, sound, signed]
  split
  · have point := stops '.' rfl
    cases point
  · rfl

theorem number_pointed {whole digits rest : List Char}
    (signed : sign (signs ++ (whole ++ '.' :: (digits ++ rest))) = signs)
    (inside : ∀ c ∈ whole, isDigitOrSeparator c = true)
    (within : ∀ c ∈ digits, isDigitOrSeparator c = true) (stops : Stops isDigitOrSeparator rest)
    (sound : wholeFault? whole = none) (valid : fractionFault? digits = none) :
    number (signs ++ (whole ++ '.' :: (digits ++ rest))) =
      accept (numberToken (signs ++ whole ++ '.' :: digits)) (signs ++ whole ++ '.' :: digits)
        rest := by
  have body := unsigned_append signed
  have pointStops : Stops isDigitOrSeparator ('.' :: (digits ++ rest)) :=
    stops_cons point_not_digitOrSeparator
  obtain ⟨taken, left⟩ := takeWhile_run inside pointStops
  obtain ⟨fraction, behind⟩ := takeWhile_run within stops
  unfold number
  simp only [body, taken, left, sound, signed, fraction, behind, valid]

end Signed

/-- How a number comes out: malformed with its whole run, whole, or with a point. -/
inductive Numeral (text : List Char) : Prop
  | malformed (run rest : List Char) (code : ErrorCode) (parts : unsigned text = run ++ rest)
      (inside : ∀ c ∈ run, isNumericRun c = true) (stops : Stops isNumericRun rest)
      (faulty : numeralFault? run = some code)
  | whole (whole rest : List Char) (parts : unsigned text = whole ++ rest)
      (inside : ∀ c ∈ whole, isDigitOrSeparator c = true) (stops : Stops isNumericRun rest)
      (sound : wholeFault? whole = none)
  | pointed (whole digits rest : List Char) (parts : unsigned text = whole ++ '.' :: (digits ++ rest))
      (inside : ∀ c ∈ whole, isDigitOrSeparator c = true)
      (within : ∀ c ∈ digits, isDigitOrSeparator c = true) (stops : Stops isDigitOrSeparator rest)
      (sound : wholeFault? whole = none) (valid : fractionFault? digits = none)

theorem numeral (text : List Char) : Numeral text := by
  have runParts := List.takeWhile_append_dropWhile (p := isNumericRun) (l := unsigned text)
  have runInside : ∀ c ∈ (unsigned text).takeWhile isNumericRun, isNumericRun c = true :=
    fun _ => List.mem_takeWhile_imp
  have runStops := stops_dropWhile isNumericRun (unsigned text)
  cases faulty : numeralFault? ((unsigned text).takeWhile isNumericRun) with
  | some code => exact .malformed _ _ code runParts.symm runInside runStops faulty
  | none =>
      generalize (unsigned text).takeWhile isNumericRun = run at *
      generalize (unsigned text).dropWhile isNumericRun = rest at *
      obtain ⟨whole, behind⟩ := takeWhile_append_stopped run
        (runStops.within isNumericRun_of_digitOrSeparator)
      have parts := List.takeWhile_append_dropWhile (p := isDigitOrSeparator) (l := run)
      unfold numeralFault? at faulty
      split at faulty
      · cases faulty
      · rename_i sound
        split at faulty
        · rename_i after pointed
          have digits := List.takeWhile_append_dropWhile (p := isDigitOrSeparator) (l := after)
          have fractionStops : Stops isDigitOrSeparator
              (after.dropWhile isDigitOrSeparator ++ rest) := by
            rw [← (takeWhile_append_stopped after
              (runStops.within isNumericRun_of_digitOrSeparator)).2]
            exact stops_dropWhile isDigitOrSeparator (after ++ rest)
          refine .pointed _ _ _ ?_ (fun _ => List.mem_takeWhile_imp)
            (fun _ => List.mem_takeWhile_imp) fractionStops sound faulty
          rw [← List.append_assoc (after.takeWhile isDigitOrSeparator), digits, ← List.cons_append,
            ← pointed, ← List.append_assoc, parts]
          exact runParts.symm
        · rename_i pointless
          refine .whole _ (run.dropWhile isDigitOrSeparator ++ rest) ?_
            (fun _ => List.mem_takeWhile_imp) ?_ sound
          · rw [← List.append_assoc, parts]
            exact runParts.symm
          · have split := stops_dropWhile isDigitOrSeparator run
            cases left : run.dropWhile isDigitOrSeparator with
            | nil => exact runStops
            | cons d tail =>
                rw [left] at split parts
                have member : isNumericRun d = true := by
                  apply runInside
                  rw [← parts]
                  exact List.mem_append_right _ List.mem_cons_self
                have point : d = '.' := by simpa [isNumericRun, split d rfl] using member
                subst point
                exact absurd left (pointless tail)

end ScriptLexer.Scan
