import Mathlib.Data.List.TakeWhile
import ScriptLexer.Cursor

/-! Runs of one character class: where a run stops, and that a run is found again with anything
behind it that stops it. -/

namespace ScriptLexer

def lineTerminators : List Char := ['\n', '\r', '\u2028', '\u2029']

theorem mem_lineTerminators {c : Char} : c ∈ lineTerminators ↔ isLineTerminator c = true := by
  simp [lineTerminators, isLineTerminator, or_assoc]

theorem inline_of_outside {holds : Char → Bool} (outside : lineTerminators.any holds = false)
    (c : Char) (member : holds c = true) : isLineTerminator c = false := by
  apply Bool.eq_false_iff.mpr
  intro terminator
  exact List.any_eq_false.mp outside c (mem_lineTerminators.mpr terminator) member

theorem inline_of_visible {c : Char} (visible : isWhitespace c = false) :
    isLineTerminator c = false := by
  apply Bool.eq_false_iff.mpr
  intro terminator
  have table : lineTerminators.all isWhitespace = true := by decide
  have blank := List.all_eq_true.mp table c (mem_lineTerminators.mpr terminator)
  exact Bool.false_ne_true (visible.symm.trans blank)

/-- No run of the class goes on into `text`. -/
def Stops (holds : Char → Bool) (text : List Char) : Prop :=
  ∀ c, text.head? = some c → holds c = false

theorem stops_dropWhile (holds : Char → Bool) (text : List Char) :
    Stops holds (text.dropWhile holds) := by
  intro c first
  have outside := List.head?_dropWhile_not holds text
  rw [first] at outside
  simpa using outside

structure LongestRun (holds : Char → Bool) (text run : List Char) : Prop where
  leads : run <+: text
  inside : ∀ c ∈ run, holds c = true
  longest : ∀ other, other <+: text → (∀ c ∈ other, holds c = true) → other.length ≤ run.length

theorem longestRun_takeWhile (holds : Char → Bool) (text : List Char) :
    LongestRun holds text (text.takeWhile holds) := by
  refine ⟨List.takeWhile_prefix holds, fun _ => List.mem_takeWhile_imp, ?_⟩
  rintro other ⟨more, rfl⟩ inside
  rw [List.takeWhile_append_of_pos inside, List.length_append]
  exact Nat.le_add_right _ _

theorem take_length_takeWhile (holds : Char → Bool) (text : List Char) :
    text.take (text.takeWhile holds).length = text.takeWhile holds :=
  (List.prefix_iff_eq_take.mp (List.takeWhile_prefix holds)).symm

section Run

variable {holds : Char → Bool}

theorem takeWhile_of_nothing_left {text : List Char} (nothing : text.dropWhile holds = []) :
    text.takeWhile holds = text :=
  List.takeWhile_eq_self_iff.mpr (List.dropWhile_eq_nil_iff.mp nothing)

theorem stops_nil : Stops holds [] := by
  intro c first
  cases first

theorem Stops.of_append {front back : List Char} (stops : Stops holds (front ++ back)) :
    Stops holds front := by
  cases front with
  | nil => exact stops_nil
  | cons c front => exact stops

theorem stops_cons {c : Char} {text : List Char} (outside : holds c = false) :
    Stops holds (c :: text) := by
  intro d first
  obtain rfl := Option.some.inj first
  exact outside

theorem Stops.within {narrow : Char → Bool} {text : List Char} (stops : Stops holds text)
    (inside : ∀ c, narrow c = true → holds c = true) : Stops narrow text := by
  intro c first
  apply Bool.eq_false_iff.mpr
  intro member
  exact Bool.false_ne_true ((stops c first).symm.trans (inside c member))

theorem takeWhile_stopped {text : List Char} (stops : Stops holds text) :
    text.takeWhile holds = [] ∧ text.dropWhile holds = text := by
  cases text with
  | nil => exact ⟨rfl, rfl⟩
  | cons c text =>
      have outside := stops c rfl
      simp [outside]

/-- What stands behind a text and stops a run leaves the run at its front alone. -/
theorem takeWhile_append_stopped (text : List Char) {rest : List Char} (stops : Stops holds rest) :
    (text ++ rest).takeWhile holds = text.takeWhile holds ∧
      (text ++ rest).dropWhile holds = text.dropWhile holds ++ rest := by
  obtain ⟨nothing, all⟩ := takeWhile_stopped stops
  induction text with
  | nil => simp [nothing, all]
  | cons c text ih => by_cases member : holds c = true <;> simp [member, ih]

theorem takeWhile_run {run rest : List Char} (inside : ∀ c ∈ run, holds c = true)
    (stops : Stops holds rest) :
    (run ++ rest).takeWhile holds = run ∧ (run ++ rest).dropWhile holds = rest := by
  obtain ⟨taken, left⟩ := takeWhile_append_stopped run stops
  rw [taken, left, List.takeWhile_eq_self_iff.mpr inside, List.dropWhile_eq_nil_iff.mpr inside]
  exact ⟨rfl, rfl⟩

end Run
end ScriptLexer
