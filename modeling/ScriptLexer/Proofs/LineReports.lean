import Mathlib.Data.List.Dedup
import Mathlib.Data.List.Induction
import ScriptLexer.Proofs.Pull

/-! What a sequence of reports leaves on its lines: on each line the code of the last report there,
on the other lines nothing, and as many lines as there are different ones. -/

namespace ScriptLexer
namespace LineErrors

def lastOn? (line : Nat) (reports : List Diagnostic) : Option ErrorCode :=
  (reports.filter fun report => report.line == line).getLast?.map Diagnostic.code

theorem note_empty (reports : List Diagnostic) : empty.note reports = ofReports reports := by
  rw [ofReports, ofPairs, List.foldl_map]
  rfl

theorem ofReports_concat (reports : List Diagnostic) (report : Diagnostic) :
    ofReports (reports ++ [report]) = (ofReports reports).insert report.line report.code := by
  rw [← note_empty, note_append, note_empty]
  rfl

theorem get?_ofReports (reports : List Diagnostic) (line : Nat) :
    (ofReports reports).get? line = lastOn? line reports := by
  -- The induction is from the end: the last report decides on its own line, and on no other.
  induction reports using List.reverseRecOn with
  | nil => rfl
  | append_singleton reports report ih =>
      rw [ofReports_concat, get?_insert, ih]
      by_cases same : line = report.line
      · simp [lastOn?, same]
      · have other : ¬report.line = line := fun equal => same equal.symm
        simp [lastOn?, same, other]

theorem mem_iff_lookup {entries : List (Nat × ErrorCode)} (descending : Descending entries)
    (line : Nat) (code : ErrorCode) :
    (line, code) ∈ entries ↔ entries.lookup line = some code := by
  induction entries with
  | nil => simp
  | cons entry entries ih =>
      obtain ⟨other, known⟩ := entry
      have rest := ih descending.of_cons
      rw [List.mem_cons, lookup_cons, rest]
      by_cases same : line = other
      · subst line
        have absent : entries.lookup other ≠ some code := by
          intro later
          have above := List.rel_of_pairwise_cons descending (rest.mpr later)
          exact Nat.lt_irrefl other above
        simp [absent, eq_comm]
      · simp [same]

theorem mem_entries_ofReports (reports : List Diagnostic) (line : Nat) (code : ErrorCode) :
    (line, code) ∈ (ofReports reports).entries ↔ lastOn? line reports = some code := by
  rw [entries, List.mem_reverse, ← get?_ofReports]
  exact mem_iff_lookup (descending_ofPairs _) line code

theorem ascending_entries {errors : LineErrors} (descending : Descending errors.descending) :
    (errors.entries.map Prod.fst).Pairwise (· < ·) := by
  rw [entries, List.map_reverse, List.pairwise_reverse, List.pairwise_map]
  exact descending

theorem ascending_entries_ofReports (reports : List Diagnostic) :
    ((ofReports reports).entries.map Prod.fst).Pairwise (· < ·) :=
  ascending_entries (descending_ofPairs _)

theorem count_ofReports (reports : List Diagnostic) :
    (ofReports reports).count = (reports.map Diagnostic.line).dedup.length := by
  have descending := descending_ofPairs (reports.map fun report => (report.line, report.code))
  have once : ((ofReports reports).descending.map Prod.fst).Nodup := by
    apply List.pairwise_map.mpr
    exact descending.imp Nat.ne_of_gt
  have same : ∀ line, line ∈ (ofReports reports).descending.map Prod.fst ↔
      line ∈ (reports.map Diagnostic.line).dedup := by
    intro line
    calc
      line ∈ (ofReports reports).descending.map Prod.fst ↔
          ∃ code, (line, code) ∈ (ofReports reports).entries := by simp [entries]
      _ ↔ ∃ code, lastOn? line reports = some code :=
        exists_congr (mem_entries_ofReports reports line)
      _ ↔ line ∈ (reports.map Diagnostic.line).dedup := by
        rw [← Option.isSome_iff_exists]
        simp [lastOn?, List.mem_dedup]
  calc
    (ofReports reports).count = ((ofReports reports).descending.map Prod.fst).length :=
      (List.length_map _).symm
    _ = (reports.map Diagnostic.line).dedup.length :=
      ((List.perm_ext_iff_of_nodup once (List.nodup_dedup _)).mpr same).length_eq

theorem isEmpty_ofReports (reports : List Diagnostic) :
    (ofReports reports).isEmpty = true ↔ reports = [] := by
  rw [isEmpty, List.isEmpty_iff_length_eq_zero]
  change (ofReports reports).count = 0 ↔ _
  rw [count_ofReports, List.length_eq_zero_iff, List.dedup_eq_nil, List.map_eq_nil_iff]

end LineErrors
end ScriptLexer
