import ScriptLexer.Diagnostic

/-! The errors of a source by line. A line holds one code, that of its last report. The last line
is at hand, since reports come in about the order of their lines; `entries` has them ascending. -/

namespace ScriptLexer

structure LineErrors where
  descending : List (Nat × ErrorCode)
  deriving DecidableEq, Repr

namespace LineErrors

def empty : LineErrors := ⟨[]⟩

def insertInto (line : Nat) (code : ErrorCode) : List (Nat × ErrorCode) → List (Nat × ErrorCode)
  | [] => [(line, code)]
  | (other, known) :: entries =>
      if other < line then (line, code) :: (other, known) :: entries
      else if other = line then (line, code) :: entries
      else (other, known) :: insertInto line code entries

def insert (errors : LineErrors) (line : Nat) (code : ErrorCode) : LineErrors :=
  ⟨insertInto line code errors.descending⟩

def ofPairs (pairs : List (Nat × ErrorCode)) : LineErrors :=
  pairs.foldl (fun errors pair => errors.insert pair.1 pair.2) empty

def ofReports (reports : List Diagnostic) : LineErrors :=
  ofPairs (reports.map fun report => (report.line, report.code))

def entries (errors : LineErrors) : List (Nat × ErrorCode) := errors.descending.reverse

def get? (errors : LineErrors) (line : Nat) : Option ErrorCode := errors.descending.lookup line

def count (errors : LineErrors) : Nat := errors.descending.length

def isEmpty (errors : LineErrors) : Bool := errors.descending.isEmpty

def toDiagnostics (source : String) (errors : LineErrors) : List Diagnostic :=
  errors.entries.map fun entry => ⟨source, entry.2, entry.1⟩

def Descending : List (Nat × ErrorCode) → Prop :=
  List.Pairwise fun first second => second.1 < first.1

theorem lookup_cons (line other : Nat) (code : ErrorCode) (entries : List (Nat × ErrorCode)) :
    List.lookup other ((line, code) :: entries) =
      if other = line then some code else entries.lookup other := by
  by_cases same : other = line
  · simp [same]
  · have differs : (other == line) = false := by simpa using same
    simp [List.lookup_cons, differs, same]

theorem lookup_insertInto (line : Nat) (code : ErrorCode) (entries : List (Nat × ErrorCode))
    (other : Nat) :
    (insertInto line code entries).lookup other =
      if other = line then some code else entries.lookup other := by
  induction entries with
  | nil => simp [insertInto, lookup_cons]
  | cons entry entries ih =>
      obtain ⟨known, present⟩ := entry
      unfold insertInto
      split
      · exact lookup_cons line other code _
      · split
        · subst line
          by_cases same : other = known <;> simp [lookup_cons, same]
        · rw [lookup_cons, lookup_cons, ih]
          by_cases same : other = known
          · simp [same]
            omega
          · simp [same]

theorem get?_insert (errors : LineErrors) (line other : Nat) (code : ErrorCode) :
    (errors.insert line code).get? other = if other = line then some code else errors.get? other :=
  lookup_insertInto line code errors.descending other

theorem mem_insertInto (line : Nat) (code : ErrorCode) (entries : List (Nat × ErrorCode))
    (entry : Nat × ErrorCode) (member : entry ∈ insertInto line code entries) :
    entry.1 = line ∨ entry ∈ entries := by
  induction entries with
  | nil => simp_all [insertInto]
  | cons first entries ih =>
      unfold insertInto at member
      split at member
      · rcases List.mem_cons.mp member with rfl | member <;> simp_all
      · split at member
        · rcases List.mem_cons.mp member with rfl | member <;> simp_all
        · rcases List.mem_cons.mp member with rfl | member
          · simp
          · rcases ih member with same | member <;> simp_all

theorem descending_insertInto (line : Nat) (code : ErrorCode) (entries : List (Nat × ErrorCode))
    (descending : Descending entries) : Descending (insertInto line code entries) := by
  induction entries with
  | nil => simp [insertInto, Descending]
  | cons first entries ih =>
      have above := fun entry (member : entry ∈ entries) =>
        List.rel_of_pairwise_cons descending member
      have rest := List.Pairwise.of_cons descending
      unfold insertInto
      split
      · rename_i before
        refine List.Pairwise.cons ?_ descending
        intro entry member
        rcases List.mem_cons.mp member with rfl | member
        · exact before
        · exact Nat.lt_trans (above entry member) before
      · split
        · rename_i same
          subst line
          exact List.Pairwise.cons above rest
        · refine List.Pairwise.cons ?_ (ih rest)
          intro entry member
          rcases mem_insertInto line code entries entry member with same | member
          · simp only
            omega
          · exact above entry member

theorem descending_ofPairs (pairs : List (Nat × ErrorCode)) :
    Descending (ofPairs pairs).descending := by
  suffices ∀ errors : LineErrors, Descending errors.descending →
      Descending (pairs.foldl (fun errors pair => errors.insert pair.1 pair.2) errors).descending
    from this empty List.Pairwise.nil
  intro errors descending
  induction pairs generalizing errors with
  | nil => exact descending
  | cons pair pairs ih => exact ih _ (descending_insertInto _ _ _ descending)

end LineErrors
end ScriptLexer
